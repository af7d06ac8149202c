import ConfinedDb.Proofs.Interleaving.World
/-!
# What the recording engine does with its handles

Of the state of the recording engine only a few things matter to the handles that it has given out:
which statements are live and of which database (`home`), which databases are open, and how many
handles it has minted. An answer changes these in one of five ways (`Effect`,
**`answer_effect`**), and what follows for a single handle is said once for all calls.
-/
namespace ConfinedDb

namespace RecordingEngine

def home (e : RecordingEngine) (h : StmtHandle) : Option DbHandle :=
  (e.statements.get? h).map LiveStatement.db

theorem isLive_eq (e : RecordingEngine) (h : StmtHandle) : e.isLive h = (e.home h).isSome := by
  simp [isLive, home, Table.contains_eq]

theorem hasStatements_iff (e : RecordingEngine) (db : DbHandle) :
    e.hasStatements db = true ↔ ∃ h, e.home h = some db := by
  simp only [hasStatements, home, List.any_eq_true, decide_eq_true_eq, Option.map_eq_some_iff]
  constructor
  · rintro ⟨⟨h, s⟩, hm, hs⟩
    exact ⟨h, s, (e.statements.mem_entries_iff h s).1 hm, hs⟩
  · rintro ⟨h, s, hm, hs⟩
    exact ⟨(h, s), (e.statements.mem_entries_iff h s).2 hm, hs⟩

/-- The handle is not one that is still to be minted. -/
def Minted {r : Resource} (e : RecordingEngine) (h : Handle r) : Prop := h.raw ≤ e.minted * 8

theorem minted_next {r : Resource} {e e' : RecordingEngine} (h : e'.minted = e.minted + 1) :
    e'.Minted (e.nextHandle : Handle r) := by
  simp [Minted, nextHandle, h]

theorem not_minted_next {r : Resource} (e : RecordingEngine) :
    ¬e.Minted (e.nextHandle : Handle r) := by
  simp only [Minted, nextHandle]
  omega

theorem Minted.mono {r : Resource} {e e' : RecordingEngine} {h : Handle r} (hm : e.Minted h)
    (hle : e.minted ≤ e'.minted) : e'.Minted h :=
  Nat.le_trans hm (Nat.mul_le_mul_right 8 hle)

structure Healthy (e : RecordingEngine) : Prop where
  failures : e.failures = ∅
  withheld : e.withheld = []

theorem healthy_initial : RecordingEngine.initial.Healthy := ⟨rfl, rfl⟩

theorem answer_failures (e : RecordingEngine) (call : EngineCall) :
    (e.answer call).2.failures = e.failures ∧ (e.answer call).2.withheld = e.withheld := by
  cases call with
  | «open» location flags =>
    simp only [answer, answerOpen]
    split <;> exact ⟨rfl, rfl⟩
  | close db =>
    simp only [answer, answerClose]
    split
    · exact ⟨rfl, rfl⟩
    · split <;> exact ⟨rfl, rfl⟩
  | prepare db sql =>
    simp only [answer, answerPrepare]
    split
    · exact ⟨rfl, rfl⟩
    · split <;> exact ⟨rfl, rfl⟩
  | finalize h =>
    simp only [answer, answerFinalize]
    split <;> exact ⟨rfl, rfl⟩
  | reset h =>
    simp only [answer, answerChange]
    split
    · split <;> exact ⟨rfl, rfl⟩
    · exact ⟨rfl, rfl⟩
  | clearBindings h =>
    simp only [answer, answerChange]
    split
    · split <;> exact ⟨rfl, rfl⟩
    · exact ⟨rfl, rfl⟩
  | step h =>
    simp only [answer, answerStep]
    split
    · exact ⟨rfl, rfl⟩
    · split <;> exact ⟨rfl, rfl⟩
  | bind h index value =>
    simp only [answer, answerBind]
    split
    · exact ⟨rfl, rfl⟩
    · split <;> exact ⟨rfl, rfl⟩
  | _ => exact ⟨rfl, rfl⟩

theorem Healthy.answer {e : RecordingEngine} (h : e.Healthy) (call : EngineCall) :
    (e.answer call).2.Healthy :=
  ⟨(e.answer_failures call).1.trans h.failures, (e.answer_failures call).2.trans h.withheld⟩

theorem Healthy.codeOf {e : RecordingEngine} (h : e.Healthy) (p : Primitive) :
    e.codeOf p = .ok := by
  simp [RecordingEngine.codeOf, h.failures, Table.get?_empty]

/-- A close fails exactly if a statement of the database is live. -/
theorem Healthy.close {e : RecordingEngine} (h : e.Healthy) (db : DbHandle) :
    (∃ k, e.home k = some db) ∧ (e.answer (.close db)).2.databases = e.databases ∨
      (∀ k, e.home k ≠ some db) ∧
        (e.answer (.close db)).2.databases = e.databases.filter (· ≠ db) := by
  have hrc : ((e.record (.close db)).codeOf .close).isOk = true :=
    congrArg ResultCode.isOk (h.codeOf .close)
  simp only [RecordingEngine.answer, answerClose, hrc, Bool.not_true]
  split
  · next he => cases he
  · split
    · next hs => exact .inl ⟨(hasStatements_iff (e.record (.close db)) db).1 hs, rfl⟩
    · next hs =>
      refine .inr ⟨fun k hk => ?_, rfl⟩
      exact hs ((hasStatements_iff (e.record (.close db)) db).2 ⟨k, hk⟩)

end RecordingEngine

namespace Interleaving

open RecordingEngine

/-- What an answer does with handles. -/
inductive Effect (e : RecordingEngine) : (call : EngineCall) → call.Answer → RecordingEngine → Prop
  /-- Nothing. -/
  | quiet {call : EngineCall} {answer : call.Answer} {e' : RecordingEngine}
    (home : e'.home = e.home) (databases : e'.databases = e.databases)
    (minted : e'.minted = e.minted) (brings : minting call answer = [])
    (other : ∀ h, call ≠ .finalize h) : Effect e call answer e'
  /-- A database is opened. -/
  | opens {location : String} {flags : OpenFlags} {rc : ResultCode} {e' : RecordingEngine}
    (home : e'.home = e.home) (databases : e'.databases = e.nextHandle :: e.databases)
    (minted : e'.minted = e.minted + 1) :
    Effect e (.open location flags) (some e.nextHandle, rc) e'
  /-- A statement is compiled. -/
  | prepares {db : DbHandle} {sql : String} {rc : ResultCode} {e' : RecordingEngine}
    (ok : rc.isOk = true) (there : db ∈ e.databases)
    (home : ∀ k, e'.home k = if k = e.nextHandle then some db else e.home k)
    (databases : e'.databases = e.databases) (minted : e'.minted = e.minted + 1) :
    Effect e (.prepare db sql) (some e.nextHandle, rc) e'
  /-- A statement is gone. -/
  | finalizes {h : StmtHandle} {rc : ResultCode} {e' : RecordingEngine}
    (home : ∀ k, e'.home k = if k = h then none else e.home k)
    (databases : e'.databases = e.databases) (minted : e'.minted = e.minted) :
    Effect e (.finalize h) rc e'
  /-- A database is closed, as no statement of it is live. -/
  | closes {db : DbHandle} {rc : ResultCode} {e' : RecordingEngine}
    (free : ∀ k, e.home k ≠ some db) (home : e'.home = e.home)
    (databases : e'.databases = e.databases.filter (· ≠ db)) (minted : e'.minted = e.minted) :
    Effect e (.close db) rc e'

theorem home_insert {e e' : RecordingEngine} {h : StmtHandle} {s : LiveStatement}
    (hs : e'.statements = e.statements.insert h s) (k : StmtHandle) :
    e'.home k = if k = h then some s.db else e.home k := by
  simp only [home, hs, Table.get?_insert]
  split <;> rfl

/-- A live statement that changes stays with its database. -/
theorem home_change {e e' : RecordingEngine} {h : StmtHandle} {s s' : LiveStatement}
    (hg : e.statements.get? h = some s) (hs : e'.statements = e.statements.insert h s')
    (hdb : s'.db = s.db) : e'.home = e.home := by
  funext k
  rw [home_insert hs]
  split
  · next hk => simp [home, hk, hg, hdb]
  · rfl

theorem answerChange_effect (e : RecordingEngine) (p : Primitive) (h : StmtHandle)
    (change : LiveStatement → LiveStatement) (hdb : ∀ s, (change s).db = s.db) :
    (e.answerChange p h change).2.home = e.home ∧
      (e.answerChange p h change).2.databases = e.databases ∧
      (e.answerChange p h change).2.minted = e.minted := by
  unfold answerChange
  split
  · split
    · refine ⟨funext fun k => ?_, rfl, rfl⟩
      simp only [home, Table.get?_modify]
      split
      · cases e.statements.get? k <;> simp [hdb]
      · rfl
    · exact ⟨rfl, rfl, rfl⟩
  · exact ⟨rfl, rfl, rfl⟩

/-- **What each answer does with handles.** -/
theorem answer_effect (e : RecordingEngine) (call : EngineCall) :
    Effect e call (e.answer call).1 (e.answer call).2 := by
  cases call with
  | «open» location flags =>
    simp only [answer, answerOpen]
    split
    · exact .quiet rfl rfl rfl rfl (by simp)
    · exact .opens rfl rfl rfl
  | close db =>
    simp only [answer, answerClose]
    split
    · exact .quiet rfl rfl rfl rfl (by simp)
    · split
      · exact .quiet rfl rfl rfl rfl (by simp)
      · next hs =>
        refine .closes (fun k hk => ?_) rfl rfl rfl
        exact hs ((hasStatements_iff _ db).2 ⟨k, hk⟩)
  | prepare db sql =>
    simp only [answer, answerPrepare]
    split
    · exact .quiet rfl rfl rfl rfl (by simp)
    · next hok =>
      split
      · exact .quiet rfl rfl rfl rfl (by simp)
      · next hdb =>
        refine .prepares ?_ (Decidable.not_not.1 hdb)
          (fun k => home_insert (s := ⟨db, 0, ∅⟩) rfl k) rfl rfl
        simpa using fun h => hok (.inl h)
  | finalize h =>
    simp only [answer, answerFinalize]
    split
    · refine .finalizes (fun k => ?_) rfl rfl
      simp only [home, Table.get?_erase]
      split <;> rfl
    · next hl =>
      refine .finalizes (fun k => ?_) rfl rfl
      split
      · next hk =>
        rw [isLive_eq] at hl
        simpa [hk] using hl
      · rfl
  | reset h =>
    obtain ⟨hh, hd, hm⟩ := answerChange_effect (e.record (.reset h)) .reset h
      (fun s => { s with steps := 0 }) (fun _ => rfl)
    exact .quiet hh hd hm rfl (by simp)
  | clearBindings h =>
    obtain ⟨hh, hd, hm⟩ := answerChange_effect (e.record (.clearBindings h)) .clearBindings h
      (fun s => { s with bindings := ∅ }) (fun _ => rfl)
    exact .quiet hh hd hm rfl (by simp)
  | exec db sql => exact .quiet rfl rfl rfl rfl (by simp)
  | errorMessage db => exact .quiet rfl rfl rfl rfl (by simp)
  | step h =>
    simp only [answer, answerStep]
    split
    · exact .quiet rfl rfl rfl rfl (by simp)
    · split
      · next s hg => exact .quiet (home_change hg rfl rfl) rfl rfl rfl (by simp)
      · exact .quiet rfl rfl rfl rfl (by simp)
  | bind h index value =>
    simp only [answer, answerBind]
    split
    · exact .quiet rfl rfl rfl rfl (by simp)
    · split
      · next s hg => exact .quiet (home_change hg rfl rfl) rfl rfl rfl (by simp)
      · exact .quiet rfl rfl rfl rfl (by simp)
  | columnCount h => exact .quiet rfl rfl rfl rfl (by simp)
  | columnValue h index => exact .quiet rfl rfl rfl rfl (by simp)

/-! ## What comes of an effect -/

def closed : EngineCall → List DbHandle
  | .close db => [db]
  | _ => []

/-- A statement only comes with a code of success. -/
def compiledWell : (call : EngineCall) → call.Answer → Bool
  | .prepare .., (some _, rc) => rc.isOk
  | _, _ => true

namespace Effect

variable {e e' : RecordingEngine} {call : EngineCall} {answer : call.Answer}

theorem minted_le (f : Effect e call answer e') : e.minted ≤ e'.minted := by
  cases f <;> omega

theorem opened (f : Effect e call answer e') {db : DbHandle}
    (hm : db ∈ History.databases (minting call answer)) : db = e.nextHandle ∧ e'.Minted db := by
  cases f with
  | quiet _ _ _ brings => simp [brings, History.databases] at hm
  | opens _ _ minted =>
    obtain rfl := List.mem_singleton.1 hm
    exact ⟨rfl, minted_next minted⟩
  | _ => cases hm

theorem compiled (f : Effect e call answer e') {h : StmtHandle} (hm : h ∈ arriving call answer) :
    h = e.nextHandle ∧ e'.Minted h ∧ ∃ db sql, call = .prepare db sql ∧ e'.home h = some db := by
  cases f with
  | quiet _ _ _ brings =>
    cases call with
    | prepare db sql =>
      obtain ⟨_ | k, rc⟩ := answer
      · cases hm
      · cases brings
    | _ => cases hm
  | prepares _ _ home _ minted =>
    obtain rfl := List.mem_singleton.1 hm
    exact ⟨rfl, minted_next minted, _, _, rfl, by simp [home]⟩
  | _ => cases hm

theorem compiledWell (f : Effect e call answer e') : compiledWell call answer = true := by
  cases f with
  | quiet _ _ _ brings =>
    cases call with
    | prepare db sql =>
      obtain ⟨_ | h, rc⟩ := answer
      · rfl
      · cases brings
    | _ => rfl
  | prepares ok => exact ok
  | _ => rfl

/-- What is live was so before, or has been compiled. -/
theorem home_before (f : Effect e call answer e') {h : StmtHandle} {db : DbHandle}
    (hh : e'.home h = some db) :
    e.home h = some db ∧ call ≠ .finalize h ∨ h ∈ arriving call answer := by
  cases f with
  | quiet home _ _ _ other => exact .inl ⟨home ▸ hh, other h⟩
  | opens home => exact .inl ⟨home ▸ hh, by simp⟩
  | prepares _ _ home =>
    rw [home] at hh
    split at hh
    · next hk => exact .inr (hk ▸ List.mem_singleton_self _)
    · exact .inl ⟨hh, by simp⟩
  | finalizes home =>
    rw [home] at hh
    split at hh
    · cases hh
    · next hk => exact .inl ⟨hh, by simpa using fun he => hk he.symm⟩
  | closes _ home => exact .inl ⟨home ▸ hh, by simp⟩

/-- What is live stays so until it is finalized. -/
theorem home_after (f : Effect e call answer e') {h : StmtHandle} {db : DbHandle}
    (hh : e.home h = some db) (hm : e.Minted h) (hc : call ≠ .finalize h) :
    e'.home h = some db := by
  cases f with
  | quiet home => rwa [home]
  | opens home => rwa [home]
  | prepares _ _ home =>
    rw [home, if_neg, hh]
    rintro rfl
    exact not_minted_next e hm
  | finalizes home =>
    rw [home, if_neg, hh]
    rintro rfl
    exact hc rfl
  | closes _ home => rwa [home]

theorem mem_databases (f : Effect e call answer e') {db : DbHandle} (hc : db ∉ closed call) :
    db ∈ e'.databases ↔ db ∈ History.databases (minting call answer) ∨ db ∈ e.databases := by
  cases f with
  | quiet _ databases _ brings => simp [databases, brings, History.databases]
  | opens _ databases => simp [databases, minting, History.databases]
  | prepares _ _ _ databases => simp [databases, minting, History.databases]
  | finalizes _ databases => simp [databases, minting, History.databases]
  | @closes db' _ _ _ _ databases =>
    have hne : db ≠ db' := by
      intro he
      exact hc (List.mem_singleton.2 he)
    simp [databases, minting, History.databases, hne]

end Effect

end Interleaving

end ConfinedDb
