import ConfinedDb.Proofs.Disposal.Sole
import ConfinedDb.Proofs.Interleaving.Passage
/-!
# Who finalizes a statement

A preparation that comes too late finalizes the statement that it has got. On its way others may
finalize statements under the same handle: each that does is another preparation whose call returns
with that handle (`Hop.Rival`, `OnlyRivals`). How often the handle is finalized is the number of the
steps in which somebody starts to (`finalizers_linked`), so it is finalized once exactly if there is
no rival (**`finalizers_once_iff`**).

A rival got the handle while the preparation had it, or the other way round (`Hop.Doubles`). If the
engine never does this, nobody else waits with the handle, and there is no rival (`Unrivalled`).
-/
namespace ConfinedDb.Interleaving

open History

variable {M : Machine} {E : Engine}

def Hop.Finalizes (hop : Hop M E) (h : StmtHandle) : Prop :=
  ∃ t task, hop.before.Calls hop.label t task (.finalize h)

/-- In this step the call of another action returns with a statement under this handle, and that
action starts to finalize it. -/
structure Hop.Rival (hop : Hop M E) (t : ThreadId) (k : Nat) (h : StmtHandle) : Prop where
  other : ¬hop.Own t k
  finalizes : hop.Finalizes h
  arrives : ∃ i f, hop.label = .resume i ∧ hop.before.frames[i]? = some f ∧ h ∈ f.pending

/-- Whoever else starts to finalize the statement in these steps is a rival. -/
def OnlyRivals (t : ThreadId) (k : Nat) (h : StmtHandle) (hops : List (Hop M E)) : Prop :=
  ∀ hop ∈ hops, hop.Finalizes h → hop.Rival t k h

/-- The engine has brought the handle to this action, which waits with it or, having come too late,
is finalizing it. -/
def Frame.Has (f : Frame M) (h : StmtHandle) : Prop :=
  h ∈ f.pending ∨ (∃ sql lending, f.task = .prepare sql lending) ∧ f.call = .finalize h

/-- In this step the engine brings a handle that it has brought to an action which has it still. -/
def Hop.Doubles (hop : Hop M E) : Prop :=
  ∃ db h, hop.after.history = .minted db h :: hop.before.history ∧
    ∃ f ∈ hop.before.frames, f.Has h

variable {w w' v v' : World M E} {l : Label E} {t : ThreadId} {k i : Nat} {h : StmtHandle}
  {task : Task} {p : M.Point} {f : Frame M} {hops since before after : List (Hop M E)}
  {hop back : Hop M E}

theorem Hop.not_finalizes_act : ¬(Hop.mk w (.act i) v).Finalizes h :=
  fun ⟨_, _, hcalls⟩ => hcalls.elim

theorem Hop.Rival.foreign (r : hop.Rival t k h) : hop.Foreign t k := by
  obtain ⟨other, -, i, f, hl, -, -⟩ := r
  unfold Hop.Foreign
  rw [hl]
  exact other

theorem OnlyRivals.snoc (a : OnlyRivals t k h hops) (hhop : hop.Finalizes h → hop.Rival t k h) :
    OnlyRivals t k h (hops ++ [hop]) := by
  intro hop' hm
  rcases List.mem_append.1 hm with hm | hm
  · exact a hop' hm
  · rwa [List.mem_singleton.1 hm]

/-! ## How often -/

/-- Each step in which the statement is finalized adds one to the finalizations. -/
theorem finalizers_linked (linked : w.Linked hops v) :
    ∃ ts, finalizers h v.history = ts ++ finalizers h w.history ∧
      (ts = [] ↔ ∀ hop ∈ hops, ¬hop.Finalizes h) := by
  induction hops generalizing w with
  | nil =>
    cases linked
    exact ⟨[], rfl, by simp⟩
  | cons hop hops ih =>
    obtain ⟨rfl, hs, hrest⟩ := linked
    obtain ⟨ts, hts, hnone⟩ := ih hrest
    by_cases hf : hop.Finalizes h
    · obtain ⟨t, task, hcalls⟩ := hf
      refine ⟨ts ++ [t], ?_, ?_⟩
      · rw [hts, finalizers_calls hs hcalls, List.append_assoc]
        rfl
      · simp only [List.append_eq_nil_iff, List.cons_ne_nil, and_false, false_iff]
        exact fun hnot => hnot hop List.mem_cons_self ⟨t, task, hcalls⟩
    · have hsame := finalizers_step hs fun t task hcalls => hf ⟨t, task, hcalls⟩
      exact ⟨ts, by rw [hts, hsame], by simp [hnone, hf]⟩

/-- There is one finalization exactly if there is none in the other steps. -/
theorem finalizers_once_iff (linked : w.Linked (before ++ back :: after) v)
    (hcalls : back.before.Calls back.label t task (.finalize h)) :
    finalizers h v.history = t :: finalizers h w.history ↔
      ∀ hop ∈ before ++ after, ¬hop.Finalizes h := by
  obtain ⟨_, hbefore, rfl, hs, hafter⟩ := linked_append.1 linked
  obtain ⟨ts, hts, hnone⟩ := finalizers_linked (h := h) hbefore
  obtain ⟨ts', hts', hnone'⟩ := finalizers_linked (h := h) hafter
  rw [List.forall_mem_append, ← hnone, ← hnone', hts', finalizers_calls hs hcalls, hts]
  constructor
  · intro heq
    have hlength := congrArg List.length heq
    simp only [List.length_append, List.length_cons] at hlength
    exact ⟨List.eq_nil_of_length_eq_zero (by omega), List.eq_nil_of_length_eq_zero (by omega)⟩
  · rintro ⟨rfl, rfl⟩
    rfl

/-! ## Nobody else waits with the handle -/

/-- How many actions under way wait with this handle. -/
def World.awaiting (w : World M E) (h : StmtHandle) : Nat :=
  (w.frames.flatMap Frame.pending).count h

theorem awaiting_erase (hf : w.frames[i]? = some f) :
    w.awaiting h = f.pending.count h + ((w.frames.eraseIdx i).flatMap Frame.pending).count h := by
  rw [World.awaiting, (flatMap_perm Frame.pending hf).count_eq, List.count_append]

theorem awaiting_proceed {own : Bool} {chunk : Chunk M.Point Outcome} :
    (w.proceed t task own chunk).awaiting h = w.awaiting h := by
  cases hn : chunk.next with
  | inl p => rw [w.proceed_pause t task own hn]; rfl
  | inr o => rw [w.proceed_end t task own hn]; rfl

theorem awaiting_acted (hf : w.frames[i]? = some ⟨t, task, p, none⟩) :
    (w.acted i t task p).awaiting h
      = (⟨t, task, p, some (E.answer w.engine (M.call p)).1⟩ : Frame M).pending.count h
        + w.awaiting h := by
  have hperm := flatMap_set_perm Frame.pending (List.getElem?_eq_some_iff.1 hf).1
    (⟨t, task, p, some (E.answer w.engine (M.call p)).1⟩ : Frame M)
  rw [awaiting_erase hf]
  refine (hperm.count_eq h).trans ?_
  rw [List.count_append]
  exact congrArg _ (Nat.zero_add _).symm

/-- An action waits with a handle only if the engine has brought it. -/
theorem awaiting_step (hs : w.step l = some w')
    (hmint : ∀ db, w'.history ≠ .minted db h :: w.history) : w'.awaiting h ≤ w.awaiting h := by
  cases World.step_cases hs with
  | start _ => exact Nat.le_of_eq awaiting_proceed
  | @act i t task p hf =>
    rw [awaiting_acted hf]
    have hnone : (⟨t, task, p, some (E.answer w.engine (M.call p)).1⟩ : Frame M).pending.count h
        = 0 := by
      show (arriving (M.call p) _).count h = 0
      rcases minting_cases (M.call p) (E.answer w.engine (M.call p)).1 w.history with
        ⟨db, k, hm, ha⟩ | ⟨ha, -⟩
      · rw [ha, List.count_eq_zero, List.mem_singleton]
        rintro rfl
        exact hmint db (congrArg (· ++ w.history) hm)
      · rw [ha, List.count_nil]
    omega
  | @resume i t task p answer hf _ =>
    rw [awaiting_erase hf]
    exact Nat.le_trans (Nat.le_of_eq awaiting_proceed) (Nat.le_add_left _ _)
  | drift e => exact Nat.le_refl _

theorem awaiting_rival (hat : v.At t k i f) (r : (Hop.mk v l v').Rival t k h) :
    f.pending.count h < v.awaiting h := by
  obtain ⟨other, -, j, g, rfl, hg, hh⟩ := r
  have hne : j ≠ i := by
    rintro rfl
    exact other ⟨f, hat⟩
  have hm : h ∈ (v.frames.eraseIdx i).flatMap Frame.pending :=
    List.mem_flatMap.2 ⟨g, List.mem_eraseIdx_iff_getElem?.2 ⟨j, hne, hg⟩, hh⟩
  have hpos := List.count_pos_iff.2 hm
  rw [awaiting_erase hat.frame]
  omega

/-- If the engine brings no handle twice, nobody but the action waits with the handle, and there was
no rival. -/
def Unrivalled (t : ThreadId) (k : Nat) (h : StmtHandle) (hops since : List (Hop M E))
    (v : World M E) (f : Frame M) : Prop :=
  (∀ hop ∈ hops, ¬hop.Doubles) →
    v.awaiting h ≤ f.pending.count h ∧ ∀ hop ∈ since, ¬hop.Rival t k h

theorem Unrivalled.minted {db : DbHandle} (hf : v.frames[i]? = some ⟨t, task, p, none⟩)
    (hmint : (v.acted i t task p).history = .minted db h :: v.history) :
    Unrivalled t k h (hops ++ [⟨v, .act i, v.acted i t task p⟩]) [] (v.acted i t task p)
      ⟨t, task, p, some (E.answer v.engine (M.call p)).1⟩ := by
  intro hnot
  have hhop := hnot _ (List.mem_append_right _ (List.mem_singleton_self _))
  have hnone : v.awaiting h = 0 := by
    refine List.count_eq_zero.2 fun hm => hhop ?_
    obtain ⟨g, hg, hh⟩ := List.mem_flatMap.1 hm
    exact ⟨db, h, hmint, g, hg, .inl hh⟩
  rw [awaiting_acted hf, hnone]
  exact ⟨Nat.le_refl _, List.forall_mem_nil _⟩

theorem Unrivalled.snoc {g : Frame M} (u : Unrivalled t k h hops since v f)
    (hle : ¬(Hop.mk v l v').Doubles → v.awaiting h ≤ f.pending.count h →
      v'.awaiting h ≤ g.pending.count h ∧ ¬(Hop.mk v l v').Rival t k h) :
    Unrivalled t k h (hops ++ [⟨v, l, v'⟩]) (since ++ [⟨v, l, v'⟩]) v' g := by
  intro hnot
  obtain ⟨hnot, hhop⟩ := List.forall_mem_append.1 hnot
  obtain ⟨hwait, hnone⟩ := u hnot
  obtain ⟨hwait', hrival⟩ := hle (hhop _ List.mem_cons_self) hwait
  exact ⟨hwait', List.forall_mem_append.2 ⟨hnone, List.forall_mem_singleton.2 hrival⟩⟩

theorem Unrivalled.foreign (u : Unrivalled t k h hops since v f) (hs : v.step l = some v')
    (hat : v.At t k i f) (has : f.Has h) :
    Unrivalled t k h (hops ++ [⟨v, l, v'⟩]) (since ++ [⟨v, l, v'⟩]) v' f := by
  refine u.snoc fun hnot hwait => ⟨?_, fun r => ?_⟩
  · refine Nat.le_trans (awaiting_step hs fun db hmint => hnot ?_) hwait
    exact ⟨db, h, hmint, f, List.mem_of_getElem? hat.frame, has⟩
  · exact absurd (awaiting_rival hat r) (Nat.not_lt.2 hwait)

end ConfinedDb.Interleaving
