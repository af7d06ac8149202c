import ConfinedDb.Proofs.Flags.Mark
import ConfinedDb.Proofs.Interleaving.Drain
import ConfinedDb.Proofs.Lasting
import ConfinedDb.Proofs.Solo.Course
/-!
# Failures of the engine

An `exec`, a binding, a step or a reset that has the open connection to itself makes the calls that
are due, one after the other, until one of them fails. The codes decide how it ends, and they alone:
it succeeds if they all do, and else it ends with the first code that is no success, under the name
of the call that was answered with it (`Relayed`). The message that is asked for then may be missing
or have any text; it can only add to the error. The state of the connection stays as it was.

A statement is told by its flags which clean-ups are due: a reset if it was stepped and not reset
since, a clearing if it was bound and not cleared since (`Announces`). Each exchange changes the
flags by what it has brought about, and a reset that fails halfway keeps those of the half that is
left (`Settles`). So the flags are right from the lending on (**`Life.announces`**).

What the four operations have in common is said once: a call whose code lets the operation go on or
ends it (`call_relays`). From it and from what follows the call, the courses are put together, and
**`failures_relayed`** says that those in all reachable states are like that.
-/
namespace ConfinedDb

namespace EngineCall

/-- The native operation of a call, as errors name it. -/
def operation? : EngineCall → Option String
  | .prepare .. => some "prepare()"
  | .exec .. => some "exec()"
  | .bind .. => some "bind()"
  | .step _ => some "step()"
  | .reset _ => some "reset()"
  | .clearBindings _ => some "clearBindings()"
  | _ => none

/-- The codes with which a call succeeds. -/
def accepts : EngineCall → ResultCode → Bool
  | .step _, rc => rc == .row || rc == .done || rc.isOk
  | _, rc => rc.isOk

end EngineCall

/-- The statement but for its flags. -/
def Statement.unflagged (st : Statement) : Statement :=
  .fresh st.connection st.lending st.handle st.sql

namespace Interleaving

/-! ## The law -/

namespace Exchange

/-- The native code of an answer, if it has one. -/
def code? : Exchange → Option ResultCode
  | ⟨.open .., answer⟩ => some answer.2
  | ⟨.close _, rc⟩ => some rc
  | ⟨.prepare .., answer⟩ => some answer.2
  | ⟨.finalize _, rc⟩ => some rc
  | ⟨.reset _, rc⟩ => some rc
  | ⟨.clearBindings _, rc⟩ => some rc
  | ⟨.exec .., answer⟩ => some answer.1
  | ⟨.step _, rc⟩ => some rc
  | ⟨.bind .., rc⟩ => some rc
  | _ => none

/-- The native code of an answer, if it is no success. -/
def failure? (x : Exchange) : Option ResultCode := x.code?.filter (!x.call.accepts ·)

theorem failure?_of_accepts {x : Exchange} {rc : ResultCode} (coded : x.code? = some rc)
    (accepts : x.call.accepts rc = true) : x.failure? = none := by
  simp [failure?, coded, accepts]

theorem failure?_of_refuses {x : Exchange} {rc : ResultCode} (coded : x.code? = some rc)
    (refuses : x.call.accepts rc = false) : x.failure? = some rc := by
  simp [failure?, coded, refuses]

def Succeeds (call : EngineCall) (x : Exchange) : Prop := x.call = call ∧ x.failure? = none

end Exchange

/-- What an operation that is to make these calls makes of the codes that it receives. -/
structure Relayed {α : Type} (label : String) (due : List EngineCall) (result : Except Error α)
    (exchanges : List Exchange) : Prop where
  ok : result.isOk = true ↔ ∀ x ∈ exchanges, x.failure? = none
  error : ∀ err, result = .error err → ∃ x rc operation detail,
    exchanges.find? (·.failure?.isSome) = some x ∧ x.failure? = some rc ∧
      x.call.operation? = some operation ∧
      err = Error.ofFault (.engine rc (s!"{label} {operation}" ++ detail))
  calls : ∃ left, due = (exchanges.filter (·.code?.isSome)).map Exchange.call ++ left ∧
    (result.isOk = true → left = [])

/-- The flags announce the clean-ups that are due after these exchanges: a reset if the statement was
stepped and not reset since, and a clearing if it was bound and not cleared since. -/
structure Announces (exchanges : List Exchange) (m : Mark) : Prop where
  stepped : m.stepped = true ↔
    ∃ i, Lasts (·.call = .step m.handle) (·.Succeeds (.reset m.handle)) exchanges i
  bound : m.bound = true ↔
    ∃ i, Lasts (fun x => ∃ index value, x.call = .bind m.handle index value)
      (·.Succeeds (.clearBindings m.handle)) exchanges i

/-- Nothing is due on a statement that was not used. -/
theorem announces_nil (h : StmtHandle) : Announces [] (.blank h) where
  stepped := ⟨nofun, fun ⟨_, l⟩ => absurd l not_lasts_nil⟩
  bound := ⟨nofun, fun ⟨_, l⟩ => absurd l not_lasts_nil⟩

/-- One more exchange about the statement: the flags that it leaves announce what is due then. -/
theorem Announces.concat {past : List Exchange} {m : Mark} (h : Announces past m) {x : Exchange}
    (own : ∀ k ∈ x.call.statement?, k = m.handle) :
    Announces (past ++ [x]) (m.after x.call x.answer) where
  stepped := by
    rw [exists_lasts_concat, Mark.after_handle, ← h.stepped]
    obtain ⟨call, answer⟩ := x
    cases call with
    | step k =>
      obtain rfl := own k rfl
      simp [Mark.after]
    | reset k =>
      obtain rfl := own k rfl
      simp [Mark.after, Exchange.Succeeds, Exchange.failure?, Exchange.code?, EngineCall.accepts]
    | _ => simp [Mark.after, Exchange.Succeeds]
  bound := by
    rw [exists_lasts_concat, Mark.after_handle, ← h.bound]
    obtain ⟨call, answer⟩ := x
    cases call with
    | bind k index value =>
      obtain rfl := own k rfl
      simp [Mark.after]
    | clearBindings k =>
      obtain rfl := own k rfl
      simp [Mark.after, Exchange.Succeeds, Exchange.failure?, Exchange.code?, EngineCall.accepts]
    | _ => simp [Mark.after, Exchange.Succeeds]

/-- How a use of a statement goes that is to make these calls. -/
structure Settles {α : Type} (st : Statement) (s : State) (due : List EngineCall)
    (κ : Course (Except Error α × Statement)) : Prop where
  relayed : Relayed st.connection.label due κ.result.1 κ.exchanges
  unchanged : κ.state = s
  same : κ.result.2.unflagged = st.unflagged
  flags : ∀ past, Announces past st.mark → Announces (past ++ κ.exchanges) κ.result.2.mark

/-- The clean-ups that a reset is to make, by what the flags of the statement announce. -/
def cleanups (st : Statement) (clear : Bool) : List EngineCall :=
  (if st.hasStepped then [.reset st.handle] else []) ++
    if clear && st.hasBindings then [.clearBindings st.handle] else []

/-! ## Calls that are due -/

namespace Relayed

variable {α : Type} {label : String} {due : List EngineCall} {result : Except Error α}
  {exchanges : List Exchange} {x : Exchange}

theorem done (a : α) : Relayed label [] (.ok a : Except Error α) [] where
  ok := ⟨fun _ => nofun, fun _ => rfl⟩
  error := nofun
  calls := ⟨[], rfl, fun _ => rfl⟩

theorem goes (coded : x.code?.isSome) (succeeds : x.failure? = none)
    (h : Relayed label due result exchanges) :
    Relayed label (x.call :: due) result (x :: exchanges) where
  ok := by simpa [succeeds] using h.ok
  error := by simpa [succeeds] using h.error
  calls := by
    obtain ⟨left, hdue, hleft⟩ := h.calls
    refine ⟨left, ?_, hleft⟩
    rw [List.filter_cons, if_pos coded, List.map_cons, List.cons_append, ← hdue]

theorem fails {rc : ResultCode} {operation : String} (failed : x.failure? = some rc)
    (named : x.call.operation? = some operation) (detail : String) (db? : Option DbHandle)
    (answer : Except Error String) :
    Relayed label (x.call :: due)
      (.error (Error.ofFault (.engine rc (s!"{label} {operation}" ++ detail))) : Except Error α)
      [x, ⟨.errorMessage db?, answer⟩] where
  ok := ⟨nofun, fun hx => absurd (hx x List.mem_cons_self) (by simp [failed])⟩
  error := by
    rintro err ⟨⟩
    exact ⟨x, rc, operation, detail, by simp [failed], failed, named, rfl⟩
  calls := by
    have coded : x.code?.isSome := (Option.filter_eq_some_iff.1 failed).1 ▸ rfl
    refine ⟨due, ?_, nofun⟩
    rw [List.filter_cons, if_pos coded]
    rfl

theorem of_map {β : Type} {f : α → β} (h : Relayed label due (result.map f) exchanges) :
    Relayed label due result exchanges := by
  cases result with
  | ok a => exact ⟨h.ok, nofun, h.calls⟩
  | error err => exact ⟨h.ok, fun _ herr => h.error _ (congrArg (Except.map f) herr), h.calls⟩

end Relayed

/-- An exchange about the statement, and the statement as it is after it. -/
structure Marks (st : Statement) (x : Exchange) (st' : Statement) : Prop where
  own : x.call.statement? = some st.handle
  same : st'.unflagged = st.unflagged
  mark : st'.mark = st.mark.after x.call x.answer

/-- The flags go on to announce what is due. -/
theorem Marks.announces {st st' : Statement} {x : Exchange} (m : Marks st x st')
    {past : List Exchange} (h : Announces past st.mark) : Announces (past ++ [x]) st'.mark := by
  rw [m.mark]
  exact h.concat fun k hk => Option.some.inj (hk.symm.trans m.own)

namespace Settles

variable {α : Type} {st st' : Statement} {s : State} {due : List EngineCall} {x : Exchange}
  {κ : Course (Except Error α × Statement)}

theorem done (st : Statement) (s : State) (a : α) : Settles st s [] ⟨(.ok a, st), [], s⟩ where
  relayed := .done a
  unchanged := rfl
  same := rfl
  flags past h := by simpa using h

theorem goes (m : Marks st x st') (coded : x.code?.isSome) (succeeds : x.failure? = none)
    (h : Settles st' s due κ) :
    Settles st s (x.call :: due) ⟨κ.result, x :: κ.exchanges, κ.state⟩ where
  relayed := by
    have hconnection : st'.unflagged.connection = st.unflagged.connection := by rw [m.same]
    have hrelayed := h.relayed
    rw [show st'.connection = st.connection from hconnection] at hrelayed
    exact .goes coded succeeds hrelayed
  unchanged := h.unchanged
  same := h.same.trans m.same
  flags past hpast := by simpa using h.flags _ (m.announces hpast)

theorem fails (m : Marks st x st') {rc : ResultCode} {operation : String}
    (failed : x.failure? = some rc) (named : x.call.operation? = some operation)
    (detail : String) (db? : Option DbHandle) (answer : Except Error String) :
    Settles st s (x.call :: due)
      ⟨((.error (Error.ofFault
        (.engine rc (s!"{st.connection.label} {operation}" ++ detail))) : Except Error α), st'),
        [x, ⟨.errorMessage db?, answer⟩], s⟩ where
  relayed := .fails failed named detail db? answer
  unchanged := rfl
  same := m.same
  flags past hpast := by
    have hlast := (m.announces hpast).concat (x := ⟨.errorMessage db?, answer⟩) nofun
    rw [List.append_assoc] at hlast
    exact hlast

end Settles

/-! ## Phase by phase -/

variable {c : Connection} {t : ThreadId} {E : Engine} {db : DbHandle} {s : State}
  {st st' : Statement} {due : List EngineCall}

theorem exists_detail (c : Connection) (rc : ResultCode) (operation : String)
    (about message : Option String) : ∃ detail,
      failure c rc operation about message = .engine rc (s!"{c.label} {operation}" ++ detail) :=
  ⟨_, congrArg (Fault.engine rc) (String.append_assoc ..)⟩

/-- After a failure the message is asked for, and whatever comes of that, the action ends with the
error. -/
theorem fail_asks (opened : s.handle = some db) (onward : Onward) {used : Option Statement}
    (ends : ∀ err, onward.chunk err s = finish ⟨.error err, used⟩ s) (c₁ : Connection)
    (rc : ResultCode) (operation : String) (about : Option String) (e : E.State) :
    ∃ answer detail, Asks c t E e (failChunk c₁ rc operation about onward s)
      [⟨.errorMessage (some db), answer⟩]
      ⟨.error (Error.ofFault (.engine rc (s!"{c₁.label} {operation}" ++ detail))), used⟩ s := by
  obtain ⟨⟨answer : Except Error String, e'⟩, hanswer⟩ :
      ∃ answered, E.answer e (.errorMessage (some db)) = answered := ⟨_, rfl⟩
  obtain ⟨detail, hfault⟩ := exists_detail c₁ rc operation about (heard .failing answer).2
  simp only [failChunk, opened]
  refine ⟨answer, detail, .goes (q := .failing c₁ db rc operation about onward) rfl hanswer ?_⟩
  show Asks c t E e' ((onward.chunk (failure c₁ rc operation about (heard .failing answer).2)
    s).after _) [] _ _
  rw [ends, hfault]
  exact (Asks.ends rfl).after _

/-- A call comes first, and its code decides: the action goes on, or it ends with the error. -/
theorem call_asks (opened : s.handle = some db) {e e' : E.State} {q : Phase}
    {answer : (q.call c).Answer} (answered : E.answer e (q.call c) = (answer, e'))
    {c₁ : Connection} {rc : ResultCode} {operation : String} {about : Option String}
    {onward : Onward} {used : Option Statement} {go : Move}
    (resumes : q.resume c t answer s = if (q.call c).accepts rc then go
      else failChunk c₁ rc operation about onward s)
    (ends : ∀ err, onward.chunk err s = finish ⟨.error err, used⟩ s) :
    ((q.call c).accepts rc = true ∧ ∀ {exchanges o s'}, Asks c t E e' go exchanges o s' →
      Asks c t E e (pause q s) (⟨q.call c, answer⟩ :: exchanges) o s') ∨
    ((q.call c).accepts rc = false ∧ ∃ message detail, Asks c t E e (pause q s)
      [⟨q.call c, answer⟩, ⟨.errorMessage (some db), message⟩]
      ⟨.error (Error.ofFault (.engine rc (s!"{c₁.label} {operation}" ++ detail))), used⟩ s) := by
  cases haccepts : (q.call c).accepts rc with
  | true =>
    rw [if_pos haccepts] at resumes
    exact .inl ⟨rfl, fun h => .goes (q := q) rfl answered (resumes ▸ h)⟩
  | false =>
    rw [if_neg (by simp [haccepts])] at resumes
    obtain ⟨message, detail, h⟩ :=
      fail_asks (c := c) (t := t) (E := E) opened onward ends c₁ rc operation about e'
    exact .inr ⟨rfl, message, detail, .goes (q := q) rfl answered (resumes ▸ h)⟩

/-- A use of a statement goes on with this stretch, and makes the calls that are due. -/
def Relays (c : Connection) (t : ThreadId) (E : Engine) (e : E.State) (m : Move) (st : Statement)
    (s : State) (due : List EngineCall) : Prop :=
  ∃ κ : Course (Except Error Reply × Statement), Settles st s due κ ∧
    Asks c t E e m κ.exchanges ⟨κ.result.1, some κ.result.2⟩ κ.state

theorem finish_relays (e : E.State) (reply : Reply) (st : Statement) (s : State) :
    Relays c t E e (finish ⟨.ok reply, some st⟩ s) st s [] :=
  ⟨_, .done st s reply, .ends rfl⟩

/-- A use makes a call, after which the statement is this one if the call succeeds, and that one if
it fails. -/
theorem call_relays (opened : s.handle = some db) {e e' : E.State} {q : Phase}
    {answer : (q.call c).Answer} (answered : E.answer e (q.call c) = (answer, e'))
    {rc : ResultCode} (coded : Exchange.code? ⟨q.call c, answer⟩ = some rc)
    {operation : String} (named : (q.call c).operation? = some operation) (next left : Statement)
    (accepted : (q.call c).accepts rc = true → Marks st ⟨q.call c, answer⟩ next)
    (refused : (q.call c).accepts rc = false → Marks st ⟨q.call c, answer⟩ left)
    {go : Move} {about : Option String}
    (resumes : q.resume c t answer s = if (q.call c).accepts rc then go
      else failChunk st.connection rc operation about (.use left) s)
    (rest : Relays c t E e' go next s due) :
    Relays c t E e (pause q s) st s (q.call c :: due) := by
  rcases call_asks opened answered resumes fun _ => rfl with
    ⟨haccepts, hgoes⟩ | ⟨hrefuses, message, detail, hfails⟩
  · obtain ⟨κ, hsettles, hasks⟩ := rest
    have hsuccess := Exchange.failure?_of_accepts coded haccepts
    exact ⟨_, hsettles.goes (accepted haccepts) (coded ▸ rfl) hsuccess, hgoes hasks⟩
  · have hfailure := Exchange.failure?_of_refuses coded hrefuses
    exact ⟨_, .fails (refused hrefuses) hfailure named detail (some db) message, hfails⟩

theorem bind_relays (opened : s.handle = some db) (st : Statement) (index : Nat) (value : Value)
    (e : E.State) :
    Relays c t E e (pause (.binding st index value) s) st s [.bind st.handle index value] := by
  obtain ⟨⟨rc : ResultCode, e'⟩, hanswer⟩ :
      ∃ answered, E.answer e (.bind st.handle index value) = answered := ⟨_, rfl⟩
  let next := { st with hasBindings := true }
  exact call_relays (q := .binding st index value) opened hanswer rfl rfl next next
    (fun _ => ⟨rfl, rfl, rfl⟩) (fun _ => ⟨rfl, rfl, rfl⟩) rfl (finish_relays ..)

theorem stepChunk_eq (st : Statement) (rc : ResultCode) (s : State) :
    stepChunk st rc s =
      let st := { st with hasStepped := true, hasRow := rc == ResultCode.row }
      if (EngineCall.step st.handle).accepts rc then
        finish ⟨.ok (.flag (rc == ResultCode.row)), some st⟩ s
      else failChunk st.connection rc "step()" (some st.sql) (.use st) s := by
  cases hrow : rc == ResultCode.row <;> simp [stepChunk, EngineCall.accepts, hrow]

theorem step_relays (opened : s.handle = some db) (st : Statement) (e : E.State) :
    Relays c t E e (pause (.stepping st) s) st s [.step st.handle] := by
  obtain ⟨⟨rc : ResultCode, e'⟩, hanswer⟩ :
      ∃ answered, E.answer e (.step st.handle) = answered := ⟨_, rfl⟩
  let next := { st with hasStepped := true, hasRow := rc == ResultCode.row }
  exact call_relays (q := .stepping st) opened hanswer rfl rfl next next
    (fun _ => ⟨rfl, rfl, rfl⟩) (fun _ => ⟨rfl, rfl, rfl⟩) (stepChunk_eq st rc s) (finish_relays ..)

theorem clear_relays (opened : s.handle = some db) (st : Statement) (clear : Bool) (e : E.State) :
    Relays c t E e
      (if clear && st.hasBindings then pause (.clearing st) s else finish ⟨.ok .done, some st⟩ s) st s
      (if clear && st.hasBindings then [.clearBindings st.handle] else []) := by
  split
  · obtain ⟨⟨rc : ResultCode, e'⟩, hanswer⟩ :
        ∃ answered, E.answer e (.clearBindings st.handle) = answered := ⟨_, rfl⟩
    refine call_relays (q := .clearing st) opened hanswer rfl rfl { st with hasBindings := false } st
      (fun accepted => ⟨rfl, rfl, ?_⟩) (fun refused => ⟨rfl, rfl, ?_⟩) rfl (finish_relays ..)
    · have hok : rc.isOk = true := accepted
      simp [Statement.mark, Phase.call, Mark.after, hok]
    · have hfailed : rc.isOk = false := refused
      simp [Statement.mark, Phase.call, Mark.after, hfailed]
  · exact finish_relays ..

theorem reset_relays (opened : s.handle = some db) (st : Statement) (clear : Bool) (e : E.State) :
    Relays c t E e
      (if st.hasStepped then pause (.resetting st clear) s
      else if clear && st.hasBindings then pause (.clearing st) s
      else finish ⟨.ok .done, some st⟩ s) st s
      (cleanups st clear) := by
  unfold cleanups
  split
  · obtain ⟨⟨rc : ResultCode, e'⟩, hanswer⟩ :
        ∃ answered, E.answer e (.reset st.handle) = answered := ⟨_, rfl⟩
    let next := { st with hasStepped := false, hasRow := false }
    refine call_relays (q := .resetting st clear) opened hanswer rfl rfl next st
      (fun accepted => ⟨rfl, rfl, ?_⟩) (fun refused => ⟨rfl, rfl, ?_⟩) rfl
      (clear_relays opened next clear e')
    · have hok : rc.isOk = true := accepted
      simp [next, Statement.mark, Phase.call, Mark.after, hok]
    · have hfailed : rc.isOk = false := refused
      simp [Statement.mark, Phase.call, Mark.after, hfailed]
  · exact clear_relays opened st clear e

/-! ## Courses -/

theorem exec_relayed (serving : Serving t db s) (sql : String) (e : E.State) :
    let κ := course E (c.exec t sql).run e s
    Relayed c.label [.exec db sql] κ.result κ.exchanges ∧ κ.state = s := by
  obtain ⟨⟨⟨rc, message⟩, e'⟩, hanswer⟩ :
      ∃ answered, E.answer e (.exec db sql) = answered := ⟨_, rfl⟩
  let x : Exchange := ⟨.exec db sql, (rc, message)⟩
  obtain ⟨result, exchanges, hrelayed, hasks⟩ : ∃ (result : Except Error Reply) (exchanges : _),
      Relayed c.label [.exec db sql] result exchanges ∧
        Asks c t E e (phaseStart c t s (.exec sql)) exchanges ⟨result, none⟩ s := by
    simp only [phaseStart, serving.permit, serving.openHandle]
    have hresumes : (Phase.executing db sql).resume c t (rc, message) s
        = if (EngineCall.exec db sql).accepts rc then finish .finished s
          else failChunk c rc "exec()" message .exec s := rfl
    rcases call_asks (q := .executing db sql) serving.handle hanswer hresumes fun _ => rfl with
      ⟨haccepts, hgoes⟩ | ⟨hrefuses, text, detail, hfails⟩
    · have hsuccess := Exchange.failure?_of_accepts (x := x) rfl haccepts
      exact ⟨_, _, .goes (x := x) rfl hsuccess (.done .done), hgoes (.ends rfl)⟩
    · have hfailure := Exchange.failure?_of_refuses (x := x) rfl hrefuses
      exact ⟨_, _, .fails (x := x) hfailure rfl detail (some db) text, hfails⟩
  have hcourse : course E (Outcome.ofResult <$> (c.exec t sql).run) e s = _ := hasks.course
  rw [course_map] at hcourse
  injection hcourse with hresult hexchanges hstate
  injection hresult with hvalue
  rw [← hvalue, ← hexchanges] at hrelayed
  exact ⟨hrelayed.of_map, hstate⟩

/-- The course of a use is what its phases ask. -/
theorem settles_course {α : Type} {reply : α → Reply}
    {operation : Operation (Except Error α × Statement)} {e : E.State} (task : Task)
    (runs : task.operation c t = Outcome.ofUse reply <$> operation)
    (relays : Relays c t E e (phaseStart c t s task) st s due) :
    Settles st s due (course E operation e s) := by
  obtain ⟨κ, hsettles, hasks⟩ := relays
  have hcourse := hasks.course
  rw [runs, course_map] at hcourse
  injection hcourse with hresult hexchanges hstate
  injection hresult with hvalue hstatement
  have hst : (course E operation e s).result.2 = κ.result.2 := Option.some.inj hstatement
  refine ⟨?_, hstate.trans hsettles.unchanged, ?_, fun past hpast => ?_⟩
  · rw [hexchanges]
    exact (hvalue ▸ hsettles.relayed).of_map
  · rw [hst]
    exact hsettles.same
  · rw [hst, hexchanges]
    exact hsettles.flags past hpast

theorem bind_settles (serving : Serving t db s) (st : Statement) (index : Nat) (value : Value)
    (e : E.State) :
    Settles st s [.bind st.handle index value]
      (course E ((Statement.bind t index value).run.run st) e s) := by
  have hrelays := bind_relays (c := st.connection) (t := t) serving.handle st index value e
  rw [← serving.useChunk st (pause _ s)] at hrelays
  exact settles_course (.use 0 st (.bind index value)) rfl hrelays

theorem step_settles (serving : Serving t db s) (st : Statement) (e : E.State) :
    Settles st s [.step st.handle] (course E ((Statement.step t).run.run st) e s) := by
  have hrelays := step_relays (c := st.connection) (t := t) serving.handle st e
  rw [← serving.useChunk st (pause _ s)] at hrelays
  exact settles_course (.use 0 st .step) rfl hrelays

theorem reset_settles (serving : Serving t db s) (st : Statement) (clear : Bool) (e : E.State) :
    Settles st s (cleanups st clear) (course E ((Statement.reset t clear).run.run st) e s) := by
  have hrelays := reset_relays (c := st.connection) (t := t) serving.handle st clear e
  rw [← serving.useChunk st (ite _ _ _)] at hrelays
  exact settles_course (.use 0 st (.reset clear)) rfl hrelays

/-! ## The flags from the lending on -/

/-- What the flags announce is kept up by every use. -/
theorem use_announces (serving : Serving t db s) (st : Statement) {u : Use}
    (lasting : u ≠ .release) (e : E.State) :
    ∃ st', (course E (u.operation t st) e s).result.statement = some st' ∧
      ∀ past, Announces past st.mark →
        Announces (past ++ (course E (u.operation t st) e s).exchanges) st'.mark := by
  cases u with
  | bind index value =>
    rw [Use.operation, course_map]
    exact ⟨_, rfl, (bind_settles serving st index value e).flags⟩
  | step =>
    rw [Use.operation, course_map]
    exact ⟨_, rfl, (step_settles serving st e).flags⟩
  | reset clear =>
    rw [Use.operation, course_map]
    exact ⟨_, rfl, (reset_settles serving st clear e).flags⟩
  | columnCount =>
    let n : Nat := (E.answer e (.columnCount st.handle)).1
    have hasks : Asks st.connection t E e (phaseStart st.connection t s (.use 0 st .columnCount))
        [⟨.columnCount st.handle, n⟩] ⟨.ok (.count n), some st⟩ s := by
      rw [phaseStart, serving.useChunk]
      exact .goes (q := .counting st) rfl rfl (.ends rfl)
    rw [show course E (Use.columnCount.operation t st) e s = _ from hasks.course]
    exact ⟨st, rfl, fun _ => Marks.announces ⟨rfl, rfl, rfl⟩⟩
  | column index =>
    let v : Except Error Value := (E.answer e (.columnValue st.handle index)).1
    cases hrow : st.hasRow with
    | true =>
      have hasks : Asks st.connection t E e
          (phaseStart st.connection t s (.use 0 st (.column index)))
          [⟨.columnValue st.handle index, v⟩] ⟨v.map .value, some st⟩ s := by
        rw [phaseStart, serving.useChunk, if_pos hrow]
        exact .goes (q := .reading st index) rfl rfl (.ends rfl)
      rw [show course E ((Use.column index).operation t st) e s = _ from hasks.course]
      exact ⟨st, rfl, fun _ => Marks.announces ⟨rfl, rfl, rfl⟩⟩
    | false =>
      obtain ⟨err, hasks⟩ : ∃ err, Asks st.connection t E e
          (phaseStart st.connection t s (.use 0 st (.column index))) [] ⟨.error err, some st⟩ s := by
        rw [phaseStart, serving.useChunk, if_neg (by simp [hrow])]
        exact ⟨_, .ends rfl⟩
      rw [show course E ((Use.column index).operation t st) e s = _ from hasks.course]
      exact ⟨st, rfl, fun past h => by rwa [List.append_nil]⟩
  | release => exact absurd rfl lasting

/-- The first statement has become the second by uses that had the open connection to themselves, and
that had these exchanges with the engine. -/
inductive Life (t : ThreadId) : Statement → List Exchange → Statement → Prop
  | lent (st : Statement) : Life t st [] st
  | used {st st' st'' : Statement} {past : List Exchange} (life : Life t st past st')
    {db : DbHandle} {s : State} (serving : Serving t db s) (E : Engine) (e : E.State) {u : Use}
    (lasting : u ≠ .release)
    (back : (course E (u.operation t st') e s).result.statement = some st'') :
    Life t st (past ++ (course E (u.operation t st') e s).exchanges) st''

/-- **From the lending on, the flags of a statement announce the clean-ups that are due.** -/
theorem Life.announces {lending : Lending} {h : StmtHandle} {sql : String}
    {past : List Exchange} (life : Life t (.fresh c lending h sql) past st) :
    Announces past st.mark := by
  generalize hst : Statement.fresh c lending h sql = st₀ at life
  induction life with
  | lent => exact hst ▸ announces_nil h
  | used _ serving E e lasting back ih =>
    subst hst
    obtain ⟨st', hst', hflags⟩ := use_announces serving _ lasting e
    cases hst'.symm.trans back
    exact hflags _ ih

/-! ## Reachable connections -/

theorem serving_of_run {e : E.State} {ls : List (Label E)} {w : World (phases c) E}
    {ok : World (phases c) E → Label E → World (phases c) E → Prop} (run : Run (phases c) E e ok ls w)
    (opened : w.state.handle = some db) (owner : w.state.owner = some t) :
    Serving t db w.state where
  handle := opened
  undisposed := undisposed_of_handle (run_drains run).closed (opened ▸ rfl)
  owner := owner

/-- **Failures of the engine are neither swallowed nor relabelled.** On the thread that owns an open
connection, an `exec`, a binding, a step or a reset that has the connection to itself succeeds if and
only if all codes are successes, and else ends with the first that is none and names its call,
whatever becomes of the message. The state is unchanged, and the flags of the statement, which from
its lending on announce the clean-ups that are due, go on to do so. -/
theorem failures_relayed {e : E.State} {ls : List (Label E)} {w : World (programs c) E}
    (run : Run (programs c) E e AnyStep ls w) (opened : w.state.handle = some db)
    (owner : w.state.owner = some t) (F : Engine) (f : F.State) :
    (∀ sql, let κ := course F (c.exec t sql).run f w.state
      Relayed c.label [.exec db sql] κ.result κ.exchanges ∧ κ.state = w.state) ∧
    (∀ st index value, Settles st w.state [.bind st.handle index value]
      (course F ((Statement.bind t index value).run.run st) f w.state)) ∧
    (∀ st, Settles st w.state [.step st.handle]
      (course F ((Statement.step t).run.run st) f w.state)) ∧
    (∀ st clear, Settles st w.state (cleanups st clear)
      (course F ((Statement.reset t clear).run.run st) f w.state)) ∧
    ∀ lending h sql past st, Life t (.fresh c lending h sql) past st → Announces past st.mark := by
  obtain ⟨v, rfl, hv⟩ := run_programs_iff.1 run
  have serving : Serving t db v.state := serving_of_run hv opened owner
  exact ⟨fun sql => exec_relayed serving sql f,
    fun st index value => bind_settles serving st index value f,
    fun st => step_settles serving st f, fun st clear => reset_settles serving st clear f,
    fun _ _ _ _ _ life => life.announces⟩

/-! ## A reset that fails halfway -/

/-- A thread opens the connection, and prepares, binds and steps a statement. -/
def steppedOnce : List (Label recording) :=
  let t : ThreadId := ⟨0⟩
  [.start t (.open .readWriteCreate), .act 0, .resume 0,
    .start t (.prepare "SELECT 1" .uncached), .act 0, .resume 0,
    .start t (.use 0 (.bind 1 (.integer 7))), .act 0, .resume 0,
    .start t (.use 0 .step), .act 0, .resume 0]

/-- The engine is told to drop no parameters, and to have no message. -/
def secretive (e : RecordingEngine) : RecordingEngine :=
  (e.fail .clearBindings .busy).fail .errorMessage .error

/-- The reset fails, and only the clearing is still announced. -/
theorem steppedOnce_relayed :
    ∃ w st, Run (programs inMemory) recording .initial AnyStep steppedOnce w ∧
      w.state.handle = some ⟨8, by decide⟩ ∧ w.state.owner = some ⟨0⟩ ∧
      w.statements.get? 0 = some st ∧
      let κ := course recording ((Statement.reset ⟨0⟩ true).run.run st) (secretive w.engine) w.state
      Settles st w.state (cleanups st true) κ ∧ κ.result.1.isOk = false ∧
      κ.calls = [.reset st.handle, .clearBindings st.handle,
        .errorMessage (some ⟨8, by decide⟩)] ∧
      κ.result.2.mark = ⟨st.handle, false, true⟩ := by
  let st : Statement := ⟨inMemory, .uncached, ⟨16, by decide⟩, "SELECT 1", true, true, true⟩
  obtain ⟨w, run, hw⟩ := exists_run (M := programs inMemory) (e := RecordingEngine.initial)
    AnyStep steppedOnce
    (fun w =>
      let κ := course recording ((Statement.reset ⟨0⟩ true).run.run st) (secretive w.engine) w.state
      w.state.handle = some ⟨8, by decide⟩ ∧ w.state.owner = some ⟨0⟩ ∧
      w.statements.get? 0 = some st ∧ κ.result.1.isOk = false ∧
      κ.calls = [.reset st.handle, .clearBindings st.handle,
        .errorMessage (some ⟨8, by decide⟩)] ∧
      κ.result.2 = { st with hasStepped := false, hasRow := false }) (by decide +kernel)
  simp only [decide_eq_true_eq] at hw
  obtain ⟨opened, owner, lent, hfails, hcalls, hleft⟩ := hw
  obtain ⟨-, -, -, hreset, -⟩ :=
    failures_relayed run opened owner recording (secretive w.engine)
  exact ⟨w, st, run, opened, owner, lent, hreset st true, hfails, hcalls, hleft ▸ rfl⟩

end Interleaving
end ConfinedDb
