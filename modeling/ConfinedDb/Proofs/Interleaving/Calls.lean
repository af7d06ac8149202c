import ConfinedDb.Proofs.Interleaving.Written
import Mathlib.Logic.Basic
/-!
# The calls of a run

A law about calls says of each what must have happened, or must not, before it starts. `EachCall`
says so of all calls of a history. A step starts one call at most, and what is written down in the
same step before it are reports and the like (`Event.Quiet`); so if these do not matter, a step
keeps `EachCall` exactly if the call that it starts is right (**`eachCall_step`**).
-/
namespace ConfinedDb.Interleaving

/-- What may be written down in a step before a call starts. -/
def Event.Quiet : Event → Prop
  | .returned .. | .retired .. | .leaked _ | .reported _ => True
  | _ => False

/-- If a call starts, it is right after this past. -/
def Event.Right (right : History → ThreadId → EngineCall → Prop) (past : History) : Event → Prop
  | .called t call => right past t call
  | _ => True

/-- Every call was right when it started. -/
def History.EachCall (right : History → ThreadId → EngineCall → Prop) : History → Prop
  | [] => True
  | e :: past => e.Right right past ∧ EachCall right past

open History

section Decide

variable {right : History → ThreadId → EngineCall → Prop}
  [∀ past t call, Decidable (right past t call)]

instance (past : History) : DecidablePred (Event.Right right past)
  | .called t call => inferInstanceAs (Decidable (right past t call))
  | .opened _ | .minted .. | .returned .. | .installed .. | .retired .. | .disposed | .leaked _
  | .reported _ => .isTrue trivial

instance : DecidablePred (EachCall right) :=
  let rec decide : (past : History) → Decidable (EachCall right past)
    | [] => .isTrue trivial
    | e :: past =>
      have := decide past
      inferInstanceAs (Decidable (e.Right right past ∧ EachCall right past))
  decide

end Decide

/-! ## One step -/

theorem quiet_reported (notices : List Notice) :
    ∀ e ∈ (notices.map Event.reported).reverse, e.Quiet := by
  intro e he
  obtain ⟨notice, -, rfl⟩ := mem_reported.1 he
  trivial

theorem quiet_opening (task : Task) (t : ThreadId) (s : State) :
    ∀ e ∈ task.opening t s, e.Quiet := by
  intro e he
  rcases mem_opening he with rfl | ⟨h, rfl⟩ <;> trivial

variable {right : History → ThreadId → EngineCall → Prop} {M : Machine} {E : Engine}
  {w w' : World M E}

/-- Where no call starts there is nothing to be right. -/
theorem eachCall_append {es : History} (hes : ∀ e ∈ es, ∀ past, e.Right right past)
    (past : History) : EachCall right (es ++ past) ↔ EachCall right past := by
  refine iff_of_eq (view_append (fun e he past => ?_) past)
  exact propext (and_iff_right (hes e he past))

theorem eachCall_closing (task : Task) (t : ThreadId) (own : Bool) (s : State) (o : Outcome)
    (past : History) : EachCall right (task.closing t own s o ++ past) ↔ EachCall right past := by
  refine eachCall_append (fun e he past => ?_) past
  rcases mem_closing he with ⟨db, rfl⟩ | rfl <;> trivial

theorem eachCall_minting (call : EngineCall) (answer : call.Answer) (past : History) :
    EachCall right (minting call answer ++ past) ↔ EachCall right past := by
  refine eachCall_append (fun e he past => ?_) past
  rcases mem_minting he with ⟨db, rfl⟩ | ⟨db, h, rfl⟩ <;> trivial

section Quiet

variable (quiet : ∀ e past t call, e.Quiet → (right (e :: past) t call ↔ right past t call))

include quiet

theorem eachCall_quiet {es : History} (hes : ∀ e ∈ es, e.Quiet) (past : History) :
    (EachCall right (es ++ past) ↔ EachCall right past) ∧
      ∀ t call, right (es ++ past) t call ↔ right past t call := by
  refine ⟨eachCall_append (fun e he past => ?_) past, fun t call => ?_⟩
  · have hquiet := hes e he
    cases e with
    | called t call => exact hquiet.elim
    | _ => trivial
  · have hview := @view_append Prop (fun past => right past t call) es
    exact iff_of_eq (hview (fun e he past => propext (quiet e past t call (hes e he))) past)

theorem eachCall_proceed (w : World M E) (t : ThreadId) (task : Task) (own : Bool)
    (chunk : Chunk M.Point Outcome) :
    EachCall right (w.proceed t task own chunk).history ↔
      EachCall right w.history ∧ ∀ p, chunk.next = .inl p → right w.history t (M.call p) := by
  obtain ⟨hall, hright⟩ := eachCall_quiet quiet (quiet_reported chunk.notices) w.history
  cases hn : chunk.next with
  | inl p =>
    rw [w.proceed_pause t task own hn]
    simp only [EachCall, Event.Right, hall, hright, Sum.inl.injEq, forall_eq']
    exact and_comm
  | inr o =>
    rw [w.proceed_end t task own hn]
    simp [eachCall_closing, hall]

/-- **A step keeps all calls right if the call that it starts is.** -/
theorem eachCall_step {l : Label E} (h : w.step l = some w') :
    EachCall right w'.history ↔
      EachCall right w.history ∧ ∀ t task call, w.Calls l t task call → right w.history t call := by
  cases World.step_cases h with
  | @start t a task ht =>
    obtain ⟨hall, hright⟩ := eachCall_quiet quiet (quiet_opening task t w.state) w.history
    refine (eachCall_proceed quiet _ t task _ _).trans (and_congr hall ?_)
    simp only [World.entered, hright]
    constructor
    · rintro hp t' task' call ⟨rfl, ht', p, hn, rfl⟩
      obtain rfl : task = task' := Option.some.inj (ht.symm.trans ht')
      exact hp p hn
    · exact fun hc p hn => hc t task _ ⟨rfl, ht, p, hn, rfl⟩
  | @act i t task p hf =>
    have hall : EachCall right (w.acted i t task p).history ↔ EachCall right w.history :=
      eachCall_minting _ _ w.history
    exact hall.trans (iff_self_and.2 fun _ _ _ _ hc => hc.elim)
  | @resume i t task p answer hf hn =>
    have hall : EachCall right (.returned t (M.call p) :: w.history) ↔ EachCall right w.history :=
      and_iff_right trivial
    refine (eachCall_proceed quiet _ t task _ _).trans (and_congr hall ?_)
    simp only [World.returned, quiet (.returned t (M.call p)) _ _ _ trivial]
    constructor
    · rintro hq t' task' call ⟨p', answer', hf', q, hn, rfl⟩
      cases hf.symm.trans hf'
      exact hq q hn
    · exact fun hc q hn => hc t task _ ⟨p, answer, hf, q, hn, rfl⟩
  | drift e => exact iff_self_and.2 fun _ _ _ _ hc => hc.elim

end Quiet

end ConfinedDb.Interleaving
