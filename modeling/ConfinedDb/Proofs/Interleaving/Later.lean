import ConfinedDb.Proofs.Interleaving.Realize
import Mathlib.Logic.Relation
/-!
# What comes after

The worlds that a connection can come to from one that it is in (`World.Later`), where all steps on
the way are as a condition says. What each such step keeps holds of all of them (`Later.keeps`), and
those of the programs are those of the phases (**`later_realize_iff`**).
-/
namespace ConfinedDb.Interleaving

section

variable {M : Machine} {E : Engine} {ok : World M E → Label E → World M E → Prop}
  {w w' : World M E}

def World.Goes (ok : World M E → Label E → World M E → Prop) (w w' : World M E) : Prop :=
  ∃ l, w.step l = some w' ∧ ok w l w'

/-- Steps that are as `ok` says lead from the first world to the second. -/
def World.Later (ok : World M E → Label E → World M E → Prop) : World M E → World M E → Prop :=
  Relation.ReflTransGen (World.Goes ok)

def Unstarted (_ : World M E) (l : Label E) (_ : World M E) : Prop := ∀ t a, l ≠ .start t a

theorem unstarted_act (i : Nat) : Unstarted w (.act i) w' := by simp [Unstarted]

theorem unstarted_resume (i : Nat) : Unstarted w (.resume i) w' := by simp [Unstarted]

/-- What every such step keeps holds of all that comes after. -/
theorem World.Later.keeps (prop : World M E → Prop)
    (hstep : ∀ w l w', w.step l = some w' → ok w l w' → prop w → prop w')
    (h : w.Later ok w') (hw : prop w) : prop w' := by
  induction h with
  | refl => exact hw
  | tail _ hgo ih =>
    obtain ⟨l, hs, hok⟩ := hgo
    exact hstep _ l _ hs hok ih

theorem later_follow [∀ w l w', Decidable (ok w l w')] {ls : List (Label E)}
    (h : w.follow ok ls = some w') : w.Later ok w' := by
  induction ls generalizing w with
  | nil =>
    cases h
    exact .refl
  | cons l ls ih =>
    simp only [World.follow] at h
    split at h
    · next v hv =>
      split at h
      · next hok => exact .head ⟨l, hv, hok⟩ (ih h)
      · cases h
    · cases h

theorem World.Leads.cons {v : World M E} {l : Label E} (hs : w.step l = some v)
    (h : v.Leads w') : w.Leads w' := by
  obtain ⟨ls, hls⟩ := h
  exact ⟨l :: ls, by simp [World.follow, AnyStep, hs, hls]⟩

theorem World.Later.leads (h : w.Later ok w') : w.Leads w' := by
  induction h using Relation.ReflTransGen.head_induction_on with
  | refl => exact ⟨[], rfl⟩
  | head hgo _ ih =>
    obtain ⟨l, hs, -⟩ := hgo
    exact .cons hs ih

theorem proceed_suffix (w : World M E) (t : ThreadId) (task : Task) (own : Bool)
    (chunk : Chunk M.Point Outcome) : w.history <:+ (w.proceed t task own chunk).history := by
  cases hn : chunk.next with
  | inl p =>
    rw [w.proceed_pause t task own hn]
    exact (List.suffix_append _ _).trans (List.suffix_cons _ _)
  | inr o =>
    rw [w.proceed_end t task own hn]
    exact (List.suffix_append _ _).trans (List.suffix_append _ _)

theorem step_suffix {l : Label E} (h : w.step l = some w') : w.history <:+ w'.history := by
  cases World.step_cases h with
  | @start t a task _ =>
    have hentered : w.history <:+ (w.entered t task).history := List.suffix_append _ _
    exact hentered.trans (proceed_suffix _ t task _ _)
  | act _ => exact List.suffix_append _ _
  | @resume i t task p answer _ _ =>
    have hreturned : w.history <:+ (w.returned i t (M.call p)).history := List.suffix_cons _ _
    exact hreturned.trans (proceed_suffix _ t task _ _)
  | drift e => exact List.suffix_rfl

end

variable {c : Connection} {E : Engine}
  {ok : World (programs c) E → Label E → World (programs c) E → Prop}
  {ok' : World (phases c) E → Label E → World (phases c) E → Prop}

/-- **What comes after a world by programs is what comes after it by phases.** -/
theorem later_realize_iff (h : ∀ w l w', ok w.realize l w'.realize ↔ ok' w l w')
    {v : World (phases c) E} {z : World (programs c) E} :
    v.realize.Later ok z ↔ ∃ v', v'.realize = z ∧ v.Later ok' v' := by
  constructor
  · intro hl
    induction hl with
    | refl => exact ⟨v, rfl, .refl⟩
    | tail _ hgo ih =>
      obtain ⟨u, rfl, hu⟩ := ih
      obtain ⟨l, hs, hok⟩ := hgo
      rw [step_realize, Option.map_eq_some_iff] at hs
      obtain ⟨u', hu', rfl⟩ := hs
      exact ⟨u', rfl, hu.tail ⟨l, hu', (h u l u').1 hok⟩⟩
  · rintro ⟨v', rfl, hl⟩
    induction hl with
    | refl => exact .refl
    | @tail u u' _ hgo ih =>
      obtain ⟨l, hs, hok⟩ := hgo
      exact ih.tail ⟨l, by rw [step_realize, hs]; rfl, (h u l u').2 hok⟩

end ConfinedDb.Interleaving
