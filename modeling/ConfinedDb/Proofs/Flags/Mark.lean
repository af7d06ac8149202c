import ConfinedDb.Proofs.Recording.Accounted
import ConfinedDb.Proofs.Reuse.Sheet
/-!
# Marks

What is known of a statement between its calls: whether it may be under way, and whether parameters
may be bound to it (`Mark`). A mark covers a statement if it says no less than what the engine has
(`Mark.Covers`). That needs no engine in good order. A step or a binding that fails may have done
its work or not, so after it the mark says that it has; after a reset or a clearing the mark says
less only if the code is one of success (`Mark.after`).

Nothing but a step or a binding adds to a statement. So a mark goes on to cover its statement while
others are called, and while the statement itself is reset or finalized (`Covers.answer`), and also
while others use the engine or tell it to fail (`Covers.shared`).
-/
namespace ConfinedDb

/-- What is known of a statement. -/
structure Mark where
  handle : StmtHandle
  /-- It may have been stepped. -/
  stepped : Bool
  /-- It may have parameters. -/
  bound : Bool

def Statement.mark (st : Statement) : Mark := ⟨st.handle, st.hasStepped, st.hasBindings⟩

/-- The statement to which a call may add steps or parameters. -/
def EngineCall.adds? : EngineCall → Option StmtHandle
  | .step h | .bind h _ _ => some h
  | _ => none

namespace Mark

def blank (h : StmtHandle) : Mark := ⟨h, false, false⟩

/-- What is known once a call of the statement is answered. -/
def after (m : Mark) : (call : EngineCall) → call.Answer → Mark
  | .step _, _ => { m with stepped := true }
  | .bind .., _ => { m with bound := true }
  | .reset _, rc => { m with stepped := m.stepped && !rc.isOk }
  | .clearBindings _, rc => { m with bound := m.bound && !rc.isOk }
  | _, _ => m

@[simp] theorem after_handle (m : Mark) (call : EngineCall) (answer : call.Answer) :
    (m.after call answer).handle = m.handle := by
  cases call <;> rfl

/-- The mark says no less than what the engine has of the statement, which is of one of the databases
`mine` if it is live at all. -/
structure Covers (m : Mark) (mine : List DbHandle) (e : RecordingEngine) : Prop where
  minted : e.Minted m.handle
  own : ∀ db, e.home m.handle = some db → db ∈ mine
  steps : ∀ live, e.statements.get? m.handle = some live → m.stepped = false → live.steps = 0
  bindings : ∀ live, e.statements.get? m.handle = some live → m.bound = false → live.bindings = ∅

end Mark

/-! ## What an answer does to one statement -/

namespace Interleaving

variable {e : RecordingEngine} {h : StmtHandle} {call : EngineCall}

theorem answer_get?_other (hm : e.Minted h) (hc : call.statement? ≠ some h) :
    (e.answer call).2.statements.get? h = e.statements.get? h := by
  cases hs : call.statement? with
  | some k =>
    have hne : h ≠ k := fun he => hc (he ▸ hs)
    exact (answer_othersSame hs).others h hne
  | none =>
    cases call with
    | «open» location flags =>
      simp only [RecordingEngine.answer, RecordingEngine.answerOpen]
      split <;> rfl
    | close db =>
      simp only [RecordingEngine.answer, RecordingEngine.answerClose]
      split
      · rfl
      · split <;> rfl
    | prepare db sql =>
      simp only [RecordingEngine.answer, RecordingEngine.answerPrepare]
      split
      · rfl
      · split
        · rfl
        · refine (Table.get?_insert ..).trans (if_neg ?_)
          rintro rfl
          exact RecordingEngine.not_minted_next e hm
    | exec db sql => rfl
    | errorMessage db => rfl
    | _ => cases hs

theorem home_of_answer (hc : call.statement? = some h) {db : DbHandle}
    (hh : (e.answer call).2.home h = some db) : e.home h = some db := by
  have f := answer_effect e call
  rcases f.home_before hh with ⟨hh, -⟩ | harr
  · exact hh
  · obtain ⟨-, -, db', sql, rfl, -⟩ := f.compiled harr
    cases hc

theorem answerChange_get? {p : Primitive} {change : LiveStatement → LiveStatement}
    {live' : LiveStatement} (hl : (e.answerChange p h change).2.statements.get? h = some live') :
    ∃ live, e.statements.get? h = some live ∧
      (live' = change live ∨ live' = live ∧ (e.answerChange p h change).1.isOk = false) := by
  unfold RecordingEngine.answerChange at hl ⊢
  by_cases hlive : e.isLive h
  · by_cases hok : (e.codeOf p).isOk
    · simp only [if_pos hlive, if_pos hok, Table.get?_modify] at hl
      obtain ⟨live, hg, rfl⟩ := Option.map_eq_some_iff.1 hl
      exact ⟨live, hg, .inl rfl⟩
    · simp only [if_pos hlive, if_neg hok] at hl ⊢
      exact ⟨live', hl, .inr ⟨rfl, by simpa using hok⟩⟩
  · simp only [if_neg hlive] at hl
    rw [RecordingEngine.isLive, Table.contains_eq, hl] at hlive
    simp at hlive

theorem answerStep_get? {live' : LiveStatement}
    (hl : (e.answerStep h).2.statements.get? h = some live') :
    ∃ live, e.statements.get? h = some live ∧ live'.bindings = live.bindings := by
  unfold RecordingEngine.answerStep at hl
  split at hl
  · exact ⟨live', hl, rfl⟩
  · split at hl
    · next live hg =>
      rw [Table.get?_insert, if_pos rfl] at hl
      cases hl
      exact ⟨live, hg, rfl⟩
    · exact ⟨live', hl, rfl⟩

theorem answerBind_get? {index : Nat} {value : Value} {live' : LiveStatement}
    (hl : (e.answerBind h index value).2.statements.get? h = some live') :
    ∃ live, e.statements.get? h = some live ∧ live'.steps = live.steps := by
  unfold RecordingEngine.answerBind at hl
  split at hl
  · exact ⟨live', hl, rfl⟩
  · split at hl
    · next live hg =>
      rw [Table.get?_insert, if_pos rfl] at hl
      cases hl
      exact ⟨live, hg, rfl⟩
    · exact ⟨live', hl, rfl⟩

theorem answerFinalize_get? :
    (e.answerFinalize h).2.statements.get? h = none := by
  unfold RecordingEngine.answerFinalize
  split
  · exact (Table.get?_erase ..).trans (if_pos rfl)
  · next hlive =>
    rw [RecordingEngine.isLive, Table.contains_eq] at hlive
    simpa using hlive

end Interleaving

/-! ## Marks and answers -/

open Interleaving

namespace Mark.Covers

variable {m m' : Mark} {mine mine' : List DbHandle} {e e' : RecordingEngine} {call : EngineCall}

/-- A mark that says more covers more. -/
theorem mono (k : m.Covers mine e) (hh : m'.handle = m.handle)
    (hs : m'.stepped = false → m.stepped = false) (hb : m'.bound = false → m.bound = false) :
    m'.Covers mine e where
  minted := hh ▸ k.minted
  own db hd := k.own db (hh ▸ hd)
  steps live hl h := k.steps live (hh ▸ hl) (hs h)
  bindings live hl h := k.bindings live (hh ▸ hl) (hb h)

theorem subset (k : m.Covers mine e) (h : mine ⊆ mine') : m.Covers mine' e :=
  { k with own := fun db hd => h (k.own db hd) }

theorem of_dead (hm : e.Minted m.handle) (hd : e.statements.get? m.handle = none) :
    m.Covers mine e where
  minted := hm
  own db hh := by simp [RecordingEngine.home, hd] at hh
  steps live hl := by simp [hd] at hl
  bindings live hl := by simp [hd] at hl

/-- All that matters of the engine is what it has under the handle, and what it has minted. -/
theorem congr (k : m.Covers mine e) (hm : e.minted ≤ e'.minted)
    (hs : e'.statements.get? m.handle = e.statements.get? m.handle) : m.Covers mine e' where
  minted := k.minted.mono hm
  own db hd := k.own db (by simpa only [RecordingEngine.home, hs] using hd)
  steps live hl := k.steps live (hs ▸ hl)
  bindings live hl := k.bindings live (hs ▸ hl)

/-- **A call of the statement is answered.** -/
theorem after (k : m.Covers mine e) (hc : call.statement? = some m.handle) :
    (m.after call (e.answer call).1).Covers mine (e.answer call).2 := by
  have hminted : (e.answer call).2.Minted m.handle := k.minted.mono (answer_effect e call).minted_le
  have hown : ∀ db, (e.answer call).2.home m.handle = some db → db ∈ mine :=
    fun db hh => k.own db (home_of_answer hc hh)
  obtain ⟨h, stepped, bound⟩ := m
  cases call with
  | finalize h' =>
    cases hc
    exact .of_dead hminted answerFinalize_get?
  | reset h' =>
    cases hc
    refine ⟨hminted, hown, fun live' hl hs => ?_, fun live' hl hb => ?_⟩
    · obtain ⟨live, hg, rfl | ⟨rfl, hrc⟩⟩ := answerChange_get? hl
      · rfl
      · refine k.steps _ hg ?_
        simpa [Mark.after, RecordingEngine.answer, hrc] using hs
    · obtain ⟨live, hg, hchange⟩ := answerChange_get? hl
      have hkept : live'.bindings = live.bindings := by rcases hchange with rfl | ⟨rfl, -⟩ <;> rfl
      exact hkept.trans (k.bindings live hg hb)
  | clearBindings h' =>
    cases hc
    refine ⟨hminted, hown, fun live' hl hs => ?_, fun live' hl hb => ?_⟩
    · obtain ⟨live, hg, hchange⟩ := answerChange_get? hl
      have hkept : live'.steps = live.steps := by rcases hchange with rfl | ⟨rfl, -⟩ <;> rfl
      exact hkept.trans (k.steps live hg hs)
    · obtain ⟨live, hg, rfl | ⟨rfl, hrc⟩⟩ := answerChange_get? hl
      · rfl
      · refine k.bindings _ hg ?_
        simpa [Mark.after, RecordingEngine.answer, hrc] using hb
  | step h' =>
    cases hc
    refine ⟨hminted, hown, fun live' hl hs => (by cases hs), fun live' hl hb => ?_⟩
    obtain ⟨live, hg, hbind⟩ := answerStep_get? hl
    exact hbind.trans (k.bindings live hg hb)
  | bind h' index value =>
    cases hc
    refine ⟨hminted, hown, fun live' hl hs => ?_, fun live' hl hb => (by cases hb)⟩
    obtain ⟨live, hg, hsteps⟩ := answerBind_get? hl
    exact hsteps.trans (k.steps live hg hs)
  | columnCount h' => exact ⟨hminted, hown, k.steps, k.bindings⟩
  | columnValue h' index => exact ⟨hminted, hown, k.steps, k.bindings⟩
  | _ => cases hc

/-- **A mark stays as it is unless its statement is stepped or bound.** -/
theorem answer (k : m.Covers mine e) (hc : call.adds? ≠ some m.handle) :
    m.Covers mine (e.answer call).2 := by
  by_cases hs : call.statement? = some m.handle
  · refine (k.after hs).mono (m.after_handle call _).symm ?_ ?_
    · cases call <;> simp_all [Mark.after, EngineCall.adds?, EngineCall.statement?]
    · cases call <;> simp_all [Mark.after, EngineCall.adds?, EngineCall.statement?]
  · exact k.congr (answer_effect e call).minted_le (answer_get?_other k.minted hs)

theorem arriving {h : StmtHandle} (hh : h ∈ Interleaving.arriving call (e.answer call).1)
    (hmine : ∀ db sql, call = .prepare db sql → db ∈ mine) :
    (Mark.blank h).Covers mine (e.answer call).2 := by
  obtain ⟨rfl, hminted, db, sql, rfl, hhome⟩ := (answer_effect e call).compiled hh
  have hget : (e.answer (.prepare db sql)).2.statements.get? e.nextHandle = some ⟨db, 0, ∅⟩ := by
    simp only [RecordingEngine.answer, RecordingEngine.answerPrepare] at hh ⊢
    split at hh
    · cases hh
    · split at hh
      · cases hh
      · next hcode hdb =>
        rw [if_neg hcode, if_neg hdb]
        exact (Table.get?_insert ..).trans (if_pos rfl)
  refine ⟨hminted, fun db' hh' => ?_, fun live hl _ => ?_, fun live hl _ => ?_⟩
  · cases hhome.symm.trans hh'
    exact hmine db sql rfl
  · cases hget.symm.trans hl
    rfl
  · cases hget.symm.trans hl
    rfl

theorem shared (k : m.Covers mine e) (h : Elsewhere mine e e' ∨ Told e e') : m.Covers mine e' := by
  rcases h with h | h
  · cases h with
    | clearCalls => exact k.congr (Nat.le_refl _) rfl
    | @answer call database statement =>
      have hminted := (answer_effect e call).minted_le
      by_cases hs : call.statement? = some m.handle
      · -- Others only use a handle of this connection if nothing is live under it.
        have hdead : (e.answer call).2.home m.handle = none := by
          refine Option.eq_none_iff_forall_ne_some.2 fun db hh => ?_
          have hhome := home_of_answer hs hh
          exact statement _ hs db hhome (k.own db hhome)
        exact .of_dead (k.minted.mono hminted) (Option.map_eq_none_iff.1 hdead)
      · exact k.congr hminted (answer_get?_other k.minted hs)
  · cases h <;> exact k.congr (Nat.le_refl _) rfl

end Mark.Covers

end ConfinedDb
