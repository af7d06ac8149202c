import ConfinedDb.Proofs.Recording.Sources
import ConfinedDb.Proofs.Reuse.Alone
/-!
# Statements without handles

A user knows a statement by its text, its three flags, and what the engine has of it: how often it
was stepped and what is bound (`Sheet`). What a use of it comes to depends on nothing else
(`Sheet.use`), and over the recording engine every use comes to that (**`use_alone`**): the handle
only says where the engine looks.

The flags say at least what the engine has: a statement that is not marked as stepped is not under
way, and one that is not marked as bound has no parameters (`Sheet.Honest`). So a released statement
is blank once the calls that its flags ask for are made.
-/
namespace ConfinedDb.Interleaving

/-- What there is to a statement, apart from its handle. -/
structure Sheet where
  sql : String
  hasBindings : Bool
  hasStepped : Bool
  hasRow : Bool
  steps : Nat
  bindings : Table Nat Value

namespace Sheet

def blank (sql : String) : Sheet := ⟨sql, false, false, false, 0, ∅⟩

def of (st : Statement) (live : LiveStatement) : Sheet :=
  ⟨st.sql, st.hasBindings, st.hasStepped, st.hasRow, live.steps, live.bindings⟩

def column (s : Sheet) (index : Nat) : Except Error Value :=
  if s.hasRow then
    if index ≠ 0 then .error (.ofText s!"Column {index} out of range")
    else .ok ((s.bindings.get? 1).getD (.integer (Int64.ofNat s.steps)))
  else .error (.ofText s!"No row available to read column {index} from [{s.sql}]")

def rewound (s : Sheet) : Sheet :=
  if s.hasStepped then { s with hasStepped := false, hasRow := false, steps := 0 } else s

def unbound (s : Sheet) : Sheet :=
  if s.hasBindings then { s with hasBindings := false, bindings := ∅ } else s

/-- What a use comes to; a release leaves the sheet as it is. -/
def use (s : Sheet) : Use → Except Error Reply × Sheet
  | .bind index value =>
    (.ok .done, { s with hasBindings := true, bindings := s.bindings.insert index value })
  | .step =>
    (.ok (.flag (s.steps = 0)),
      { s with hasStepped := true, hasRow := s.steps = 0, steps := s.steps + 1 })
  | .columnCount => (.ok (.count 1), s)
  | .column index => ((s.column index).map .value, s)
  | .reset clear => (.ok .done, if clear then s.rewound.unbound else s.rewound)
  | .release => (.ok .done, s)

/-- The flags say at least what the engine has. -/
structure Honest (s : Sheet) : Prop where
  steps : s.hasStepped = false → s.steps = 0
  bindings : s.hasBindings = false → s.bindings = ∅

theorem honest_blank (sql : String) : (blank sql).Honest := ⟨fun _ => rfl, fun _ => rfl⟩

variable {s : Sheet}

theorem Honest.rewound (h : s.Honest) : s.rewound.Honest := by
  unfold Sheet.rewound
  split
  · exact ⟨fun _ => rfl, h.bindings⟩
  · exact h

theorem Honest.unbound (h : s.Honest) : s.unbound.Honest := by
  unfold Sheet.unbound
  split
  · exact ⟨h.steps, fun _ => rfl⟩
  · exact h

theorem Honest.use (h : s.Honest) (u : Use) : (s.use u).2.Honest := by
  cases u with
  | bind index value => exact ⟨h.steps, nofun⟩
  | step => exact ⟨nofun, h.bindings⟩
  | reset clear =>
    cases clear with
    | true => exact h.rewound.unbound
    | false => exact h.rewound
  | _ => exact h

end Sheet

/-! ## The engine and one statement -/

/-- The databases and the other statements are the same. -/
structure OthersSame (h : StmtHandle) (e e' : RecordingEngine) : Prop where
  databases : e'.databases = e.databases
  others : ∀ k, k ≠ h → e'.statements.get? k = e.statements.get? k

/-- What the engine does for one statement leaves all else as it is. -/
structure Touches (h : StmtHandle) (e e' : RecordingEngine) : Prop extends OthersSame h e e' where
  healthy : e.Healthy → e'.Healthy
  sound : Sound e → Sound e'

section Engine

variable {e e' e'' : RecordingEngine} {h : StmtHandle} {live : LiveStatement}

theorem OthersSame.refl (h : StmtHandle) (e : RecordingEngine) : OthersSame h e e :=
  ⟨rfl, fun _ _ => rfl⟩

theorem OthersSame.insert (h : StmtHandle) (e : RecordingEngine) (live : LiveStatement) :
    OthersSame h e { e with statements := e.statements.insert h live } := by
  refine ⟨rfl, fun k hk => ?_⟩
  exact (Table.get?_insert ..).trans (if_neg hk)

theorem OthersSame.answerChange (h : StmtHandle) (e : RecordingEngine) (p : Primitive)
    (change : LiveStatement → LiveStatement) : OthersSame h e (e.answerChange p h change).2 := by
  unfold RecordingEngine.answerChange
  split
  · split
    · refine ⟨rfl, fun k hk => ?_⟩
      exact (Table.get?_modify ..).trans (if_neg hk)
    · exact .refl h e
  · exact .refl h e

theorem OthersSame.record (h : StmtHandle) (e : RecordingEngine) {call : EngineCall}
    (same : OthersSame h (e.record call) e') : OthersSame h e e' :=
  ⟨same.databases, same.others⟩

theorem answer_othersSame {call : EngineCall} (hc : call.statement? = some h) :
    OthersSame h e (e.answer call).2 := by
  cases call with
  | finalize k =>
    cases hc
    simp only [RecordingEngine.answer, RecordingEngine.answerFinalize]
    split
    · refine ⟨rfl, fun k hk => ?_⟩
      exact (Table.get?_erase ..).trans (if_neg hk)
    · exact .record h e (.refl h _)
  | reset k =>
    cases hc
    exact .record h e (.answerChange h _ .reset _)
  | clearBindings k =>
    cases hc
    exact .record h e (.answerChange h _ .clearBindings _)
  | step k =>
    cases hc
    simp only [RecordingEngine.answer, RecordingEngine.answerStep]
    split
    · exact .record h e (.refl h _)
    · split
      · exact .record h e (.insert h _ _)
      · exact .record h e (.refl h _)
  | bind k index value =>
    cases hc
    simp only [RecordingEngine.answer, RecordingEngine.answerBind]
    split
    · exact .record h e (.refl h _)
    · split
      · exact .record h e (.insert h _ _)
      · exact .record h e (.refl h _)
  | columnCount k => exact .refl h e
  | columnValue k index => exact .refl h e
  | _ => cases hc

theorem touches_answer {call : EngineCall} (hc : call.statement? = some h) :
    Touches h e (e.answer call).2 :=
  ⟨answer_othersSame hc, fun he => he.answer call, (answer_effect e call).sound⟩

theorem Touches.refl (h : StmtHandle) (e : RecordingEngine) : Touches h e e :=
  ⟨.refl h e, id, id⟩

theorem Touches.trans (ht : Touches h e e') (ht' : Touches h e' e'') : Touches h e e'' where
  databases := ht'.databases.trans ht.databases
  others k hk := (ht'.others k hk).trans (ht.others k hk)
  healthy he := ht'.healthy (ht.healthy he)
  sound he := ht'.sound (ht.sound he)

theorem answerChange_live {p : Primitive} (hcode : e.codeOf p = .ok)
    (hl : e.statements.get? h = some live) (change : LiveStatement → LiveStatement) :
    (e.answerChange p h change).1 = .ok ∧
      (e.answerChange p h change).2.statements.get? h = some (change live) := by
  have hlive : e.isLive h = true := by simp [RecordingEngine.isLive, Table.contains_eq, hl]
  simp [RecordingEngine.answerChange, hlive, hcode, ResultCode.isOk, Table.get?_modify, hl]

variable (he : e.Healthy) (hl : e.statements.get? h = some live)
include he hl

theorem answer_step : (e.answer (.step h)).1 = (if live.steps = 0 then .row else .done) ∧
    (e.answer (.step h)).2.statements.get? h = some { live with steps := live.steps + 1 } := by
  have hget : (e.record (.step h)).statements.get? h = some live := hl
  have hok : ((e.record (.step h)).codeOf .step).isOk = true :=
    congrArg ResultCode.isOk (he.codeOf .step)
  simp [RecordingEngine.answer, RecordingEngine.answerStep, hok, hget, Table.get?_insert]

theorem answer_bind (index : Nat) (value : Value) : (e.answer (.bind h index value)).1 = .ok ∧
    (e.answer (.bind h index value)).2.statements.get? h
      = some { live with bindings := live.bindings.insert index value } := by
  have hget : (e.record (.bind h index value)).statements.get? h = some live := hl
  have hok : ((e.record (.bind h index value)).codeOf .bind).isOk = true :=
    congrArg ResultCode.isOk (he.codeOf .bind)
  simp [RecordingEngine.answer, RecordingEngine.answerBind, hok, hget, Table.get?_insert]

theorem answer_reset : (e.answer (.reset h)).1 = .ok ∧
    (e.answer (.reset h)).2.statements.get? h = some { live with steps := 0 } :=
  answerChange_live (e := e.record (.reset h)) (he.codeOf .reset) hl _

theorem answer_clear : (e.answer (.clearBindings h)).1 = .ok ∧
    (e.answer (.clearBindings h)).2.statements.get? h = some { live with bindings := ∅ } :=
  answerChange_live (e := e.record (.clearBindings h)) (he.codeOf .clearBindings) hl _

theorem answer_finalize : (e.answer (.finalize h)).1 = .ok ∧
    (e.answer (.finalize h)).2.statements.get? h = none := by
  have hget : (e.record (.finalize h)).statements.get? h = some live := hl
  have hcode : (e.record (.finalize h)).codeOf .finalize = .ok := he.codeOf .finalize
  have hlive : (e.record (.finalize h)).isLive h = true := by
    simp [RecordingEngine.isLive, Table.contains_eq, hget]
  simp [RecordingEngine.answer, RecordingEngine.answerFinalize, hlive, hcode, Table.get?_erase]

omit he in
theorem answer_columnCount : (e.answer (.columnCount h)).1 = 1 := by
  have hlive : e.isLive h = true := by simp [RecordingEngine.isLive, Table.contains_eq, hl]
  simp [RecordingEngine.answer, hlive]

omit he in
theorem answer_columnValue (index : Nat) : (e.answer (.columnValue h index)).1 =
    if index ≠ 0 then .error (.ofText s!"Column {index} out of range")
    else .ok ((live.bindings.get? 1).getD (.integer (Int64.ofNat live.steps))) := by
  simp only [RecordingEngine.answer, RecordingEngine.columnValue, hl]

end Engine

/-! ## Uses -/

/-- The connection is open, on this thread and with this database. -/
structure Serving (t : ThreadId) (db : DbHandle) (s : State) : Prop where
  handle : s.handle = some db
  undisposed : s.disposed = false
  owner : s.owner = some t

namespace Serving

variable {t : ThreadId} {db : DbHandle} {s : State}

theorem isOpen (hs : Serving t db s) : s.isOpen = true := by
  simp [State.isOpen, hs.handle, hs.undisposed]

theorem permit (hs : Serving t db s) (c : Connection) : permit c t s = .ok () := by
  simp [Interleaving.permit, hs.owner, Connection.checkOwner]

theorem openHandle (hs : Serving t db s) : s.openHandle = .ok db := by
  simp [State.openHandle, hs.handle, hs.undisposed]

theorem abandoned (hs : Serving t db s) (h : StmtHandle) : s.abandoned h = false := by
  simp [State.abandoned, hs.undisposed]

theorem useChunk (hs : Serving t db s) (st : Statement) (go : Move) :
    useChunk t st s go = go := by
  simp [Interleaving.useChunk, hs.permit, hs.openHandle]

end Serving

/-- A use has come to its end: the statement is the same, and there is so much to it. -/
structure Carried (st : Statement) (e : RecordingEngine) (next : Sheet) (st' : Statement)
    (e' : RecordingEngine) : Prop where
  handle : st'.handle = st.handle
  live : ∃ live, e'.statements.get? st.handle = some live ∧ Sheet.of st' live = next
  touches : Touches st.handle e e'

variable {c : Connection} {t : ThreadId} {s : State} {e e' : RecordingEngine} {st : Statement}
  {live : LiveStatement} {m : Move} {q : Phase} {o : Outcome} {s' : State}

theorem Alone.answered (waits : m.next = .inl q) (a : (q.call c).Answer)
    (ha : (e.answer (q.call c)).1 = a)
    (rest : Alone c t recording (e.answer (q.call c)).2 (q.resume c t a m.state) o e' s') :
    Alone c t recording e m o e' s' :=
  .goes waits (by subst ha; exact rest)

theorem Alone.call (a : (q.call c).Answer) (ha : (e.answer (q.call c)).1 = a)
    (rest : Alone c t recording (e.answer (q.call c)).2 (q.resume c t a s) o e' s') :
    Alone c t recording e (pause q s) o e' s' :=
  Alone.answered (m := pause q s) rfl a ha rest

theorem unbind_alone (he : e.Healthy) (hl : e.statements.get? st.handle = some live)
    (c : Connection) (t : ThreadId) (s : State) (clear : Bool) :
    ∃ st' e', Alone c t recording e
        (if clear && st.hasBindings then pause (.clearing st) s else finish ⟨.ok .done, some st⟩ s)
        ⟨.ok .done, some st'⟩ e' s ∧
      Carried st e (if clear then (Sheet.of st live).unbound else Sheet.of st live) st' e' := by
  by_cases hb : clear && st.hasBindings
  · obtain ⟨hc, hbind⟩ := Bool.and_eq_true_iff.1 hb
    obtain ⟨hrc, hlive⟩ := answer_clear he hl
    refine ⟨{ st with hasBindings := false }, _, ?_, rfl, ⟨_, hlive, ?_⟩, touches_answer rfl⟩
    · simp only [hb, if_true]
      exact Alone.call (q := .clearing st) _ hrc (.ends rfl)
    · simp only [hc, if_true, Sheet.unbound, Sheet.of, hbind]
  · refine ⟨st, e, ?_, rfl, ⟨live, hl, ?_⟩, .refl _ _⟩
    · simp only [hb]
      exact .ends rfl
    · cases clear with
      | false => rfl
      | true =>
        have hbind : st.hasBindings = false := by simpa using hb
        simp [Sheet.unbound, Sheet.of, hbind]

/-- **A use over the recording engine comes to what the sheet of the statement says.** -/
theorem use_alone (he : e.Healthy) (hl : e.statements.get? st.handle = some live)
    {db : DbHandle} (hs : Serving t db s) (n : Nat) {u : Use} (hu : u ≠ .release) :
    ∃ st' e', Alone c t recording e (phaseStart c t s (.use n st u))
        ⟨((Sheet.of st live).use u).1, some st'⟩ e' s ∧
      Carried st e ((Sheet.of st live).use u).2 st' e' := by
  cases u with
  | release => exact absurd rfl hu
  | bind index value =>
    obtain ⟨hrc, hlive⟩ := answer_bind he hl index value
    refine ⟨{ st with hasBindings := true }, _, ?_, rfl, ⟨_, hlive, rfl⟩, touches_answer rfl⟩
    simp only [phaseStart, hs.useChunk]
    exact Alone.call (q := .binding st index value) .ok hrc (.ends rfl)
  | step =>
    obtain ⟨hrc, hlive⟩ := answer_step he hl
    refine ⟨{ st with hasStepped := true, hasRow := live.steps = 0 }, _, ?_, rfl,
      ⟨_, hlive, rfl⟩, touches_answer rfl⟩
    simp only [phaseStart, hs.useChunk]
    refine Alone.call (q := .stepping st) _ hrc ?_
    by_cases h0 : live.steps = 0
    · simp only [Phase.resume, stepChunk, h0, if_true, Sheet.use, Sheet.of]
      exact .ends rfl
    · simp only [Phase.resume, stepChunk, h0, if_false, Sheet.use, Sheet.of]
      exact .ends rfl
  | columnCount =>
    have hcall : Alone c t recording e (pause (.counting st) s) ⟨.ok (.count 1), some st⟩ e s :=
      Alone.call (q := .counting st) (1 : Nat) (answer_columnCount hl) (.ends rfl)
    refine ⟨st, e, ?_, rfl, ⟨live, hl, rfl⟩, .refl _ _⟩
    simp only [phaseStart, hs.useChunk]
    exact hcall
  | column index =>
    refine ⟨st, e, ?_, rfl, ⟨live, hl, rfl⟩, .refl _ _⟩
    simp only [phaseStart, hs.useChunk, Sheet.use, Sheet.column, Sheet.of]
    by_cases hr : st.hasRow
    · simp only [hr, if_true]
      exact Alone.call (q := .reading st index) _ (answer_columnValue hl index) (.ends rfl)
    · simp only [hr]
      exact .ends rfl
  | reset clear =>
    simp only [phaseStart, hs.useChunk, Sheet.use]
    by_cases hr : st.hasStepped
    · obtain ⟨hrc, hlive⟩ := answer_reset he hl
      let rewound := { st with hasStepped := false, hasRow := false }
      have hlive' : (e.answer (.reset st.handle)).2.statements.get? rewound.handle
          = some { live with steps := 0 } := hlive
      obtain ⟨st', e', halone, hst⟩ := unbind_alone (he.answer _) hlive' c t s clear
      refine ⟨st', e', ?_, hst.handle, ?_, (touches_answer rfl).trans hst.touches⟩
      · simp only [hr, if_true]
        exact Alone.call (q := .resetting st clear) _ hrc halone
      · simpa only [Sheet.rewound, Sheet.of, hr, if_true] using hst.live
    · obtain ⟨st', e', halone, hst⟩ := unbind_alone he hl c t s clear
      refine ⟨st', e', ?_, ?_⟩
      · simp only [hr, Bool.false_eq_true, if_false]
        exact halone
      · simpa [Sheet.rewound, Sheet.of, hr] using hst

end ConfinedDb.Interleaving
