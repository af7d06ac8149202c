import ConfinedDb.Proofs.Native.Serving
import ConfinedDb.Proofs.Solo.Connect
/-!
# Native pointers

The library brings databases, statements and message texts, and each has to be given back once. Who
has to do so is settled primitive by primitive: a prepared statement is handed out only with success
and without more text behind it, and else given back at once (`Prepares`); a message text is copied
and given back, whatever the code (`Executes`); a database is handed out with any code (`Opens`), so
that with a failure it is for the open of the connection to close it (`openAs_closes`).

Each primitive is then balanced: what the library has brought and what the caller has handed in is
what the library was given back and what the caller gets, as often (`routine_balanced`). Balances
add up, so whole operations are balanced too (`served_balanced`). The result is
**`pointers_given_back_once`**.
-/
namespace ConfinedDb.Native

/-! ## The ledger -/

/-- A native pointer to anything that has to be given back. No handle is null. -/
abbrev Pointer := (r : Resource) × Handle r

def pointers {r : Resource} (h? : Option (Handle r)) : List Pointer := h?.toList.map (Sigma.mk r)

/-- What the library has brought. -/
def Exchange.obtained : Exchange → List Pointer
  | ⟨.open .., (_, db?)⟩ => pointers db?
  | ⟨.prepare .., answer⟩ => pointers answer.stmt
  | ⟨.exec .., (_, message?)⟩ => pointers message?
  | _ => []

/-- What the library was given back. -/
def Exchange.released : Exchange → List Pointer
  | ⟨.close db, _⟩ => pointers (some db)
  | ⟨.finalize stmt, _⟩ => pointers (some stmt)
  | ⟨.free message, _⟩ => pointers (some message)
  | _ => []

/-- What the caller of a primitive hands in to be given back. -/
def surrendered : EngineCall → List Pointer
  | .close db => pointers (some db)
  | .finalize stmt => pointers (some stmt)
  | _ => []

/-- What the caller of a primitive gets. -/
def handedOut : Interleaving.Exchange → List Pointer
  | ⟨.open .., (db?, _)⟩ => pointers db?
  | ⟨.prepare .., (stmt?, _)⟩ => pointers stmt?
  | _ => []

/-- Whatever was brought or handed in has been given back or handed out, each once. -/
def Balanced (primitives : List Interleaving.Exchange) (log : List Exchange) : Prop :=
  (primitives.flatMap (fun x => surrendered x.call) ++ log.flatMap Exchange.obtained).Perm
    (log.flatMap Exchange.released ++ primitives.flatMap handedOut)

/-! ## The primitives -/

variable (L : Library) {α : Type}

theorem passable_clean {s : String} (h : 0 ∉ Utf8.encode s) (what : String) :
    passable s what = .done true := by
  have hnone : (Utf8.encode s).findIdx? (· = 0) = none := by
    rw [List.findIdx?_eq_none_iff]
    intro b hb
    simpa using fun heq : b = 0 => h (heq ▸ hb)
  rw [passable, hnone]
  rfl

theorem passable_nul {s : String} (h : 0 ∈ Utf8.encode s) (what : String) :
    ∃ r, passable s what = Routine.report r >>= fun _ => .done false := by
  cases hfind : (Utf8.encode s).findIdx? (· = 0) with
  | none => simpa using List.findIdx?_eq_none_iff.1 hfind 0 h
  | some position =>
    rw [passable, hfind]
    exact ⟨_, rfl⟩

theorem run_unpassable {s : String} (h : 0 ∈ Utf8.encode s) (what : String)
    (next : Bool → Routine α) (l : L.State) :
    L.run (passable s what >>= next) l = L.run (next false) l := by
  obtain ⟨r, hr⟩ := passable_nul h what
  rw [hr]
  rfl

theorem run_passable {s : String} (h : 0 ∉ Utf8.encode s) (what : String)
    (next : Bool → Routine α) (l : L.State) :
    L.run (passable s what >>= next) l = L.run (next true) l := by
  rw [passable_clean h]
  rfl

structure Opens (location : String) (flags : OpenFlags) (answer : Option DbHandle × ResultCode)
    (log : List Exchange) : Prop where
  unpassable : 0 ∈ Utf8.encode location → log = [] ∧ answer = (none, .misuse)
  passed : 0 ∉ Utf8.encode location → ∃ rc db?,
    log = [⟨.open location (flagBits flags), (rc, db?)⟩] ∧ answer = (db?, rc)

def asciiSpace : Bytes := [0x20, 0x09, 0x0A, 0x0C, 0x0D]

/-- The rest of a text is missing or only white space. -/
def BlankAfter (sql : String) (tail : Option Nat) : Prop :=
  ∀ offset, tail = some offset → ∀ b ∈ (Utf8.encode sql).drop offset, b ∈ asciiSpace

theorem blankTail_iff (sql : String) (tail : Option Nat) :
    blankTail sql tail = true ↔ BlankAfter sql tail := by
  cases tail with
  | none => simp [blankTail, BlankAfter]
  | some offset => simp [blankTail, BlankAfter, isBlank, asciiSpace, or_assoc]

instance (sql : String) (tail : Option Nat) : Decidable (BlankAfter sql tail) :=
  decidable_of_iff _ (blankTail_iff sql tail)

/-- How a preparation goes: a statement is handed out, or given back. -/
structure Prepares (db : DbHandle) (sql : String) (answer : Option StmtHandle × ResultCode)
    (log : List Exchange) : Prop where
  unpassable : 0 ∈ Utf8.encode sql → log = [] ∧ answer = (none, .misuse)
  passed : 0 ∉ Utf8.encode sql → ∃ prepared rest,
    log = ⟨.prepare db sql (.ofNat (Utf8.encode sql).length), prepared⟩ :: rest ∧
    if prepared.code.isOk = true ∧ BlankAfter sql prepared.tail then
      answer = (prepared.stmt, prepared.code) ∧ rest = []
    else
      answer.1 = none ∧ answer.2.isOk = false ∧
        rest.map Exchange.call = prepared.stmt.toList.map .finalize

/-- How an execution goes: a message text is copied and given back. -/
structure Executes (db : DbHandle) (sql : String) (answer : ResultCode × Option String)
    (log : List Exchange) : Prop where
  unpassable : 0 ∈ Utf8.encode sql → log = [] ∧ answer = (.misuse, none)
  passed : 0 ∉ Utf8.encode sql → ∃ rc message? rest,
    log = ⟨.exec db sql, (rc, message?)⟩ :: rest ∧ answer.1 = rc ∧
    match message? with
    | none => rest = [] ∧ answer.2 = none
    | some message => ∃ bytes, rest = [⟨.readMessage message, bytes⟩, ⟨.free message, ()⟩] ∧
      answer.2 = some (messageText (some bytes))

theorem openDatabase_opens (location : String) (flags : OpenFlags) (l : L.State) :
    Opens location flags (L.run (openDatabase location flags) l).result
      (L.run (openDatabase location flags) l).exchanges := by
  constructor
  · intro h
    rw [openDatabase, run_unpassable L h]
    exact ⟨rfl, rfl⟩
  · intro h
    rw [openDatabase, run_passable L h]
    exact ⟨_, _, rfl, rfl⟩

/-- What is left of a preparation once the library has answered. -/
def screened (sql : String) (prepared : Prepared) : Routine (Option StmtHandle × ResultCode) := do
  if !prepared.code.isOk then
    discardStatement prepared.stmt
    return (none, prepared.code)
  else if blankTail sql prepared.tail then return (prepared.stmt, prepared.code)
  else
    Routine.report ⟨.error,
      "Cannot prepare more than one statement at a time, while preparing the query:\n" ++ sql⟩
    discardStatement prepared.stmt
    return (none, .misuse)

theorem run_discard (stmt? : Option StmtHandle) (a : α) (l : L.State) :
    (L.run (discardStatement stmt? >>= fun _ => .done a) l).result = a ∧
      (L.run (discardStatement stmt? >>= fun _ => .done a) l).exchanges.map Exchange.call
        = stmt?.toList.map .finalize := by
  cases stmt? <;> exact ⟨rfl, rfl⟩

theorem run_screened (sql : String) (prepared : Prepared) (l : L.State) :
    let ran := L.run (screened sql prepared) l
    if prepared.code.isOk = true ∧ BlankAfter sql prepared.tail then
      ran.result = (prepared.stmt, prepared.code) ∧ ran.exchanges = []
    else
      ran.result.1 = none ∧ ran.result.2.isOk = false ∧
        ran.exchanges.map Exchange.call = prepared.stmt.toList.map .finalize := by
  intro ran
  by_cases hok : prepared.code.isOk = true
  · by_cases hblank : BlankAfter sql prepared.tail
    · have hran : screened sql prepared = .done (prepared.stmt, prepared.code) := by
        simp [screened, hok, (blankTail_iff sql prepared.tail).2 hblank]
      rw [if_pos ⟨hok, hblank⟩]
      simp only [ran, hran]
      exact ⟨rfl, rfl⟩
    · have hran : ran = L.run (discardStatement prepared.stmt >>= fun _ =>
          .done (none, ResultCode.misuse)) l := by
        simp only [ran, screened, hok, mt (blankTail_iff sql prepared.tail).1 hblank]
        rfl
      obtain ⟨hresult, hcalls⟩ := run_discard L prepared.stmt (none, ResultCode.misuse) l
      rw [if_neg fun h => hblank h.2, hran, hresult]
      exact ⟨rfl, rfl, hcalls⟩
  · have hran : ran = L.run (discardStatement prepared.stmt >>= fun _ =>
        .done (none, prepared.code)) l := by
      simp only [ran, screened, hok]
      rfl
    obtain ⟨hresult, hcalls⟩ := run_discard L prepared.stmt (none, prepared.code) l
    rw [if_neg fun h => hok h.1, hran, hresult]
    exact ⟨rfl, Bool.eq_false_iff.2 hok, hcalls⟩

theorem prepare_prepares (db : DbHandle) (sql : String) (l : L.State) :
    Prepares db sql (L.run (prepare db sql) l).result (L.run (prepare db sql) l).exchanges := by
  constructor
  · intro h
    rw [prepare, run_unpassable L h]
    exact ⟨rfl, rfl⟩
  · intro h
    let length : Int32 := .ofNat (Utf8.encode sql).length
    have hran : L.run (prepare db sql) l
        = L.run (Routine.call (.prepare db sql length) >>= screened sql) l := by
      rw [prepare, run_passable L h]
      rfl
    rw [hran, L.run_bind]
    exact ⟨_, _, rfl, run_screened L sql _ _⟩

/-- What is left of an execution once the library has answered. -/
def relayed (rc : ResultCode) : Option MessageHandle → Routine (ResultCode × Option String)
  | some message => do
    let bytes ← Routine.call (.readMessage message)
    Routine.call (.free message)
    return (rc, some (messageText (some bytes)))
  | none => return (rc, none)

theorem exec_executes (db : DbHandle) (sql : String) (l : L.State) :
    Executes db sql (L.run (exec db sql) l).result (L.run (exec db sql) l).exchanges := by
  constructor
  · intro h
    rw [exec, run_unpassable L h]
    exact ⟨rfl, rfl⟩
  · intro h
    have hran : L.run (exec db sql) l
        = L.run (Routine.call (.exec db sql) >>= fun answer => relayed answer.1 answer.2) l := by
      rw [exec, run_passable L h]
      refine congrArg (L.run · l) (congrArg (Program.ask _) (funext fun answer => ?_))
      obtain ⟨rc, _ | message⟩ := answer <;> rfl
    rw [hran, L.run_bind]
    rcases hanswer : L.answer l (.exec db sql) with ⟨⟨rc, message?⟩, l'⟩
    rw [L.run_call, hanswer]
    refine ⟨rc, message?, _, rfl, ?_⟩
    cases message? with
    | none => exact ⟨rfl, rfl, rfl⟩
    | some message => exact ⟨rfl, _, rfl, rfl⟩

/-! ## The balance -/

theorem perm_interchange (a b c d : List Pointer) :
    (a ++ b ++ (c ++ d)).Perm (a ++ c ++ (b ++ d)) := by
  simpa using ((List.perm_append_comm_assoc b c d).append_left a)

theorem Balanced.append {xs ys : List Interleaving.Exchange} {log log' : List Exchange}
    (h : Balanced xs log) (h' : Balanced ys log') : Balanced (xs ++ ys) (log ++ log') := by
  unfold Balanced at h h' ⊢
  simp only [List.flatMap_append]
  refine (perm_interchange _ _ _ _).trans ((h.append h').trans ?_)
  exact perm_interchange _ _ _ _

/-- The routine neither brings anything nor gives anything back. -/
def Idle (routine : Routine α) : Prop :=
  ∀ l, ∀ x ∈ (L.run routine l).exchanges, x.obtained = [] ∧ x.released = []

namespace Idle

variable {L} {β : Type}

theorem done (a : α) : Idle L (.done a) := Library.Each.done a

theorem call {c : LibraryCall}
    (h : ∀ answer, Exchange.obtained ⟨c, answer⟩ = [] ∧ Exchange.released ⟨c, answer⟩ = []) :
    Idle L (Routine.call c) := Library.Each.call h

theorem bind {routine : Routine α} {next : α → Routine β} (h : Idle L routine)
    (hnext : ∀ a, Idle L (next a)) : Idle L (routine >>= next) := Library.Each.bind h hnext

theorem balanced {primitive : EngineCall} (h : Idle L (routine primitive))
    (hs : surrendered primitive = []) (ho : ∀ answer, handedOut ⟨primitive, answer⟩ = [])
    (l : L.State) :
    Balanced [⟨primitive, (L.run (routine primitive) l).result⟩]
      (L.run (routine primitive) l).exchanges := by
  have hobtained := List.flatMap_eq_nil_iff.2 fun x hx => (h l x hx).1
  have hreleased := List.flatMap_eq_nil_iff.2 fun x hx => (h l x hx).2
  simp only [Balanced, List.flatMap_singleton, hobtained, hreleased, hs, ho]
  exact .refl []

end Idle

theorem readColumn_idle (stmt : StmtHandle) (index : Int32) : Idle L (readColumn stmt index) := by
  refine (L.readColumn_each stmt index).mono fun x hx => ?_
  obtain ⟨call, answer⟩ := x
  cases call <;> first | exact ⟨rfl, rfl⟩ | cases hx

theorem columnCount_idle (stmt : StmtHandle) : Idle L (columnCount stmt) :=
  .bind (.call fun _ => ⟨rfl, rfl⟩) fun _ => .done _

theorem columnValue_idle (stmt : StmtHandle) (index : Nat) : Idle L (columnValue stmt index) := by
  refine .bind (columnCount_idle L stmt) fun count => ?_
  split_ifs
  · exact readColumn_idle L stmt _
  · exact .done _

theorem bind_idle (stmt : StmtHandle) (index : Nat) (value : Value) :
    Idle L (bind stmt index value) := by
  cases value <;> exact .call fun _ => ⟨rfl, rfl⟩

theorem errorMessage_idle (db? : Option DbHandle) : Idle L (errorMessage db?) := by
  cases db? with
  | none => exact .done _
  | some db =>
    refine .bind (.call fun _ => ⟨rfl, rfl⟩) fun answer => ?_
    cases answer <;> exact .done _

theorem Opens.balanced {location : String} {flags : OpenFlags}
    {answer : Option DbHandle × ResultCode} {log : List Exchange}
    (h : Opens location flags answer log) : Balanced [⟨.open location flags, answer⟩] log := by
  by_cases hnul : 0 ∈ Utf8.encode location
  · obtain ⟨rfl, rfl⟩ := h.unpassable hnul
    exact .refl []
  · obtain ⟨rc, db?, rfl, rfl⟩ := h.passed hnul
    simp [Balanced, surrendered, handedOut, Exchange.obtained, Exchange.released]

theorem finalized_pointers {log : List Exchange} {stmt? : Option StmtHandle}
    (h : log.map Exchange.call = stmt?.toList.map .finalize) :
    log.flatMap Exchange.obtained = [] ∧ log.flatMap Exchange.released = pointers stmt? := by
  cases stmt? with
  | none =>
    rw [List.map_eq_nil_iff.1 h]
    exact ⟨rfl, rfl⟩
  | some stmt =>
    obtain ⟨⟨call, code⟩, rest, rfl, rfl, hrest⟩ := List.map_eq_cons_iff.1 h
    rw [List.map_eq_nil_iff.1 hrest]
    exact ⟨rfl, rfl⟩

theorem Prepares.balanced {db : DbHandle} {sql : String}
    {answer : Option StmtHandle × ResultCode} {log : List Exchange}
    (h : Prepares db sql answer log) : Balanced [⟨.prepare db sql, answer⟩] log := by
  by_cases hnul : 0 ∈ Utf8.encode sql
  · obtain ⟨rfl, rfl⟩ := h.unpassable hnul
    exact .refl []
  · obtain ⟨prepared, rest, rfl, hrest⟩ := h.passed hnul
    split at hrest
    · obtain ⟨rfl, rfl⟩ := hrest
      simp [Balanced, surrendered, handedOut, Exchange.obtained, Exchange.released]
    · obtain ⟨stmt?, code⟩ := answer
      obtain ⟨rfl, -, hcalls⟩ := hrest
      obtain ⟨hobtained, hreleased⟩ := finalized_pointers hcalls
      simp [Balanced, surrendered, handedOut, Exchange.obtained, Exchange.released, pointers,
        hobtained, hreleased]

theorem Executes.balanced {db : DbHandle} {sql : String} {answer : ResultCode × Option String}
    {log : List Exchange} (h : Executes db sql answer log) :
    Balanced [⟨.exec db sql, answer⟩] log := by
  by_cases hnul : 0 ∈ Utf8.encode sql
  · obtain ⟨rfl, rfl⟩ := h.unpassable hnul
    exact .refl []
  · obtain ⟨rc, message?, rest, rfl, -, hrest⟩ := h.passed hnul
    cases message? with
    | none =>
      obtain ⟨rfl, -⟩ := hrest
      exact .refl []
    | some message =>
      obtain ⟨bytes, rfl, -⟩ := hrest
      exact .refl _

/-- **Every primitive is balanced.** -/
theorem routine_balanced (primitive : EngineCall) (l : L.State) :
    Balanced [⟨primitive, (L.run (routine primitive) l).result⟩]
      (L.run (routine primitive) l).exchanges := by
  cases primitive with
  | «open» location flags => exact (openDatabase_opens L location flags l).balanced
  | prepare db sql => exact (prepare_prepares L db sql l).balanced
  | exec db sql => exact (exec_executes L db sql l).balanced
  | close db => exact .refl _
  | finalize stmt => exact .refl _
  | reset stmt => exact Idle.balanced (.call fun _ => ⟨rfl, rfl⟩) rfl (fun _ => rfl) l
  | clearBindings stmt => exact Idle.balanced (.call fun _ => ⟨rfl, rfl⟩) rfl (fun _ => rfl) l
  | step stmt => exact Idle.balanced (.call fun _ => ⟨rfl, rfl⟩) rfl (fun _ => rfl) l
  | errorMessage db? => exact (errorMessage_idle L db?).balanced rfl (fun _ => rfl) l
  | bind stmt index value => exact (bind_idle L stmt index value).balanced rfl (fun _ => rfl) l
  | columnCount stmt => exact (columnCount_idle L stmt).balanced rfl (fun _ => rfl) l
  | columnValue stmt index => exact (columnValue_idle L stmt index).balanced rfl (fun _ => rfl) l

/-- **And so is all that is done for any primitives.** -/
theorem served_balanced {xs : List Interleaving.Exchange} {log : List Exchange}
    (h : L.Served xs log) : Balanced xs log := by
  induction h with
  | nil => exact .refl []
  | cons l answered rest ih =>
    subst answered
    exact (routine_balanced L _ l).append ih

/-! ## The open of a connection -/

open Interleaving

theorem Opens.told {location : String} {flags : OpenFlags} {answer : Option DbHandle × ResultCode}
    {log : List Exchange} (h : Opens location flags answer log) {filename : String} {bits : Int32}
    {rc : ResultCode} {db? : Option DbHandle} (hx : ⟨.open filename bits, (rc, db?)⟩ ∈ log) :
    log = [⟨.open filename bits, (rc, db?)⟩] ∧ answer = (db?, rc) := by
  by_cases hnul : 0 ∈ Utf8.encode location
  · rw [(h.unpassable hnul).1] at hx
    cases hx
  · obtain ⟨rc', db?', rfl, rfl⟩ := h.passed hnul
    cases List.mem_singleton.1 hx
    exact ⟨rfl, rfl⟩

theorem errorMessage_calls (db? : Option DbHandle) (l : L.State) :
    (L.run (errorMessage db?) l).exchanges.map Exchange.call = db?.toList.map .lastError := by
  cases db? with
  | none => rfl
  | some db =>
    rw [errorMessage, L.run_bind, L.run_call]
    cases (L.answer l (.lastError db)).1 <;> rfl

/-- After a failed open the library is asked for the message, and to close the database. -/
theorem served_cleanup {db? : Option DbHandle} {answer : Except Error String} {code : ResultCode}
    {log : List Exchange} (h : L.Served (⟨.errorMessage db?, answer⟩ ::
      db?.toList.map fun db => ⟨.close db, code⟩) log) :
    log.map Exchange.call = db?.toList.flatMap fun db => [.lastError db, .close db] := by
  obtain _ | ⟨l, -, closing⟩ := h
  cases db? with
  | none =>
    replace closing : L.Served [] _ := closing
    cases closing
    rw [List.append_nil]
    exact errorMessage_calls L none l
  | some db =>
    replace closing : L.Served [_] _ := closing
    obtain _ | ⟨l', -, ⟨⟩⟩ := closing
    have hmessage := errorMessage_calls L (some db) l
    exact (List.map_append ..).trans (congrArg (· ++ _) hmessage)

theorem cleanup_pointers {db? : Option DbHandle} {log : List Exchange}
    (h : log.map Exchange.call = db?.toList.flatMap fun db => [.lastError db, .close db]) :
    (∀ x ∈ log, ∀ filename bits, x.call ≠ .open filename bits) ∧
      log.flatMap Exchange.obtained = [] ∧ log.flatMap Exchange.released = pointers db? := by
  cases db? with
  | none =>
    rw [List.map_eq_nil_iff.1 h]
    exact ⟨nofun, rfl, rfl⟩
  | some db =>
    obtain ⟨⟨_, text⟩, _, rfl, rfl, hclose⟩ := List.map_eq_cons_iff.1 h
    obtain ⟨⟨_, code⟩, rest, rfl, rfl, hnone⟩ := List.map_eq_cons_iff.1 hclose
    rw [List.map_eq_nil_iff.1 hnone]
    refine ⟨fun x hx => ?_, rfl, rfl⟩
    rcases List.mem_pair.1 hx with rfl | rfl <;> exact fun _ _ => nofun

/-- A database that comes with a failure is closed, once. -/
theorem opened_closes {c : Connection} {flags : OpenFlags} {xs : List Interleaving.Exchange}
    {o : Outcome} {s : ConfinedDb.State} {log : List Exchange} (opened : Opened c flags xs o s)
    (served : L.Served xs log) {filename : String} {bits : Int32} {rc : ResultCode}
    {db? : Option DbHandle} (hx : ⟨.open filename bits, (rc, db?)⟩ ∈ log)
    (failed : rc.isOk = false) :
    (∃ err, o.result = .error err) ∧ log.flatMap Exchange.obtained = pointers db? ∧
      log.flatMap Exchange.released = pointers db? := by
  have htold : ∀ {answer : Option DbHandle × ResultCode} {l : L.State},
      (L.run (routine (.open c.location flags)) l).result = answer →
      ⟨.open filename bits, (rc, db?)⟩ ∈ (L.run (routine (.open c.location flags)) l).exchanges →
      (L.run (routine (.open c.location flags)) l).exchanges
        = [⟨.open filename bits, (rc, db?)⟩] ∧ answer = (db?, rc) :=
    fun hanswer h => hanswer ▸ (openDatabase_opens L c.location flags _).told h
  cases opened with
  | success ok =>
    obtain _ | ⟨l, answered, ⟨⟩⟩ := served
    rw [List.append_nil] at hx
    cases (htold answered hx).2
    simp [failed] at ok
  | missing ok =>
    obtain _ | ⟨l, answered, ⟨⟩⟩ := served
    rw [List.append_nil] at hx
    cases (htold answered hx).2
    simp [failed] at ok
  | failure =>
    obtain _ | ⟨l, answered, cleanup⟩ := served
    obtain ⟨hopens, hobtained, hreleased⟩ := cleanup_pointers (served_cleanup L cleanup)
    rcases List.mem_append.1 hx with hx | hx
    · obtain ⟨hlog, hanswer⟩ := htold answered hx
      cases hanswer
      rw [hlog, List.flatMap_append, List.flatMap_append, hobtained, hreleased]
      exact ⟨⟨_, rfl⟩, by simp [Exchange.obtained], by simp [Exchange.released]⟩
    · exact absurd rfl (hopens _ hx filename bits)

/-- An open of a connection, in any state, asks nothing or goes as `Opened` says. -/
theorem openAs_asks (c : Connection) (t : ThreadId) (mode : OpenMode) (E : Engine) (e : E.State)
    (s : ConfinedDb.State) :
    ∃ (xs : List Interleaving.Exchange) (o : Outcome) (s' : ConfinedDb.State),
      Asks c t E e (phaseStart c t s (.open mode)) xs o s' ∧
      (xs = [] ∨ Opened c mode.flags xs o s') := by
  cases hunfit : (Task.open mode).unfit c with
  | true =>
    obtain ⟨text, hstart⟩ := unfit_start (t := t) (s := s) hunfit
    rw [hstart]
    exact ⟨[], _, _, .ends rfl, .inl rfl⟩
  | false => exact fit_start (t := t) (s := s) hunfit ▸ openChunk_asks c t mode.flags e s

/-- The open of a connection closes the database that comes with a failure, and fails. -/
theorem openAs_closes (c : Connection) (t : ThreadId) (mode : OpenMode) (l : L.State)
    (s : ConfinedDb.State) :
    let (result, (_, log), _) := carryOut L.engine (c.openAs t mode).run (l, []) s
    ∀ filename bits rc db?, ⟨.open filename bits, (rc, db?)⟩ ∈ log → rc.isOk = false →
      (∃ err, result = .error err) ∧ log.flatMap Exchange.obtained = pointers db? ∧
        log.flatMap Exchange.released = pointers db? := by
  obtain ⟨xs, o, s', hasks, hcase⟩ := openAs_asks c t mode L.engine (l, []) s
  obtain ⟨e', hcarry⟩ := hasks.carryOut []
  obtain ⟨xs', log, hserved, hxs, hlog⟩ :=
    L.carryOut_served ((Task.open mode).operation c t) l [] [] s
  rw [hcarry] at hxs hlog
  obtain rfl : xs = xs' := hxs
  obtain rfl : e'.2 = log := hlog
  have hsame : carryOut L.engine ((Task.open mode).operation c t) (l, []) s = (o, e', s') :=
    (carryOut_noting _ _ [] s).trans (congrArg (fun x => (x.1, x.2.1.1, x.2.2)) hcarry)
  have hmap := carryOut_map (E := L.engine) Outcome.ofResult (c.openAs t mode).run (l, []) s
  rcases hopen : carryOut L.engine (c.openAs t mode).run (l, []) s with ⟨result, ⟨l', log⟩, s''⟩
  rw [hopen] at hmap
  obtain ⟨rfl, hstates⟩ := Prod.mk.inj (hmap.symm.trans hsame)
  obtain ⟨rfl, -⟩ := Prod.mk.inj hstates
  intro filename bits rc db? hx failed
  rcases hcase with rfl | hopened
  · cases hserved
    cases hx
  · obtain ⟨⟨err, herr⟩, hpointers⟩ := opened_closes L hopened hserved hx failed
    cases result with
    | ok _ => cases herr
    | error err => exact ⟨⟨err, rfl⟩, hpointers⟩

/-- **Every native pointer has one outcome**, primitive by primitive, in the open of a connection
that fails, and over whole operations, whatever the library answers. -/
theorem pointers_given_back_once (L : Library) (l : L.State) :
    (∀ primitive, Balanced [⟨primitive, (L.engine.answer (l, []) primitive).1⟩]
      (L.engine.answer (l, []) primitive).2.2) ∧
    (∀ db sql, Prepares db sql (L.engine.answer (l, []) (.prepare db sql)).1
      (L.engine.answer (l, []) (.prepare db sql)).2.2) ∧
    (∀ db sql, Executes db sql (L.engine.answer (l, []) (.exec db sql)).1
      (L.engine.answer (l, []) (.exec db sql)).2.2) ∧
    (∀ location flags, Opens location flags (L.engine.answer (l, []) (.open location flags)).1
      (L.engine.answer (l, []) (.open location flags)).2.2) ∧
    (∀ (c : Connection) (t : ThreadId) (mode : OpenMode) (s : ConfinedDb.State),
      let (result, (_, log), _) := carryOut L.engine (c.openAs t mode).run (l, []) s
      ∀ filename bits rc db?, ⟨.open filename bits, (rc, db?)⟩ ∈ log → rc.isOk = false →
        (∃ err, result = .error err) ∧ log.flatMap Exchange.obtained = pointers db? ∧
          log.flatMap Exchange.released = pointers db?) ∧
    ∀ (ω : Type) (operation : Operation ω) (s : ConfinedDb.State),
      Balanced (course L.engine operation (l, []) s).exchanges
        (carryOut L.engine operation (l, []) s).2.1.2 := by
  have hanswer := fun primitive => L.engine_answer l [] primitive
  simp only [hanswer, List.nil_append]
  refine ⟨(routine_balanced L · l), (prepare_prepares L · · l), (exec_executes L · · l),
    (openDatabase_opens L · · l), (openAs_closes L · · · l ·), fun ω operation s => ?_⟩
  obtain ⟨xs, log, hserved, hxs, hlog⟩ := L.carryOut_served operation l [] [] s
  have hsame := carryOut_noting (E := L.engine) operation (l, []) [] s
  have hlog : (carryOut L.engine operation (l, []) s).2.1.2 = log :=
    (congrArg (fun x => x.2.1.2) hsame).trans hlog
  exact (congrArg₂ Balanced hxs hlog).mpr (served_balanced L hserved)

def scripted : Library := ⟨ScriptedLibrary, ScriptedLibrary.answer⟩

/-- A library that brings a database with a code that is no success. -/
def balky : ScriptedLibrary :=
  ScriptedLibrary.initial.expect .open ⟨some .busy, some 8, none, none, none⟩

/-- An open takes the database of such a library and closes it again. -/
theorem balky_closed :
    let (result, (_, log), _) :=
      carryOut scripted.engine (inMemory.openAs ⟨0⟩ .readWriteCreate).run (balky, []) .initial
    (∃ err, result = .error err) ∧
      log.flatMap Exchange.obtained = [⟨.database, ⟨8, by decide⟩⟩] ∧
      log.flatMap Exchange.released = [⟨.database, ⟨8, by decide⟩⟩] := by
  obtain ⟨-, -, -, -, hopen, -⟩ := pointers_given_back_once scripted balky
  refine hopen inMemory ⟨0⟩ .readWriteCreate .initial memoryLocation 6 .busy
    (some ⟨8, by decide⟩) ?_ (by decide)
  exact List.mem_cons_self

end ConfinedDb.Native
