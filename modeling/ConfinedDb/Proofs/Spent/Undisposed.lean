import ConfinedDb.Proofs.Interleaving.Drain
import ConfinedDb.Proofs.Spent.Clash
/-!
# Until the connection is disposed

A clash takes a disposal. Once a connection is disposed it stays so, and up to then no step is a
clash, so the books of a connection that is not disposed are right whatever its users did
(**`booked_of_undisposed`**).
-/
namespace ConfinedDb.Interleaving

open History

variable {c : Connection} {E : Engine} {w w' : World (phases c) E}

/-- **No step is a clash that leaves the connection undisposed.** -/
theorem not_clash_of_undisposed (tidy : Tidy w) (d : Drains w) (b : w.Booked) {l : Label E}
    (h : w.step l = some w') (hd' : w'.state.disposed = false) : ¬w.Clash l := by
  have hd := undisposed_of_step h hd'
  have hgrips := (b.unretired hd).2
  rintro (@⟨t, task, call, h, hcalls, -, -, hdisposal⟩ | @⟨t, task, call, h, hcalls, -, htask, -⟩ |
      @⟨t, task, h, -, hrewound, hspent⟩)
  · have hg := hgrips _ ((finalizes_disposal_iff tidy).1 hdisposal)
    cases hg
  · cases l with
    | start t' a =>
      obtain ⟨rfl, ht, -⟩ := hcalls
      cases World.step_cases h with
      | start ht' =>
        cases ht.symm.trans ht'
        simp [not_isDisposal_of_start hd'] at htask
    | resume i =>
      obtain ⟨p, answer, hf, -⟩ := hcalls
      have hmem := List.mem_of_getElem? hf
      have hk : p.kind = task.kind := tidy.kinds _ hmem
      have hs := d.effective _ hmem (hk.trans (kind_of_isDisposal htask))
      simp [hd] at hs
    | act i => exact hcalls.elim
    | drift e => exact hcalls.elim
  · obtain ⟨i, ⟨t, task, p, answer⟩, rfl, hf, hcall⟩ := hrewound
    have hmem := List.mem_of_getElem? hf
    have hk : p.kind = task.kind := tidy.kinds _ hmem
    cases p with
    | resetting st clear =>
      cases hcall
      obtain ⟨n, hn⟩ := inUse_of_kind hk.symm
      have he := mem_users (tidy.inHand _ hmem n st.entry hn)
      exact not_spent_of_user b hd he hspent
    | rewinding c' k sql hasBindings =>
      cases hcall
      have b' := b.perm (.refl _) (grips_perm hf)
      exact (Books.user_of_held b').not_spent hd hspent
    | _ => cases hcall

/-- **Up to its disposal the books of a connection are right.** -/
theorem booked_of_undisposed {e : E.State} {ls : List (Label E)}
    (run : Run (phases c) E e MintsFresh ls w) (hd : w.state.disposed = false) : w.Booked := by
  induction run with
  | nil => exact booked_initial e
  | @snoc ls w w' l run hs hfresh ih =>
    have b := ih (undisposed_of_step hs hd)
    have tidy := run_tidy run
    have hspares : w.Spares l := by
      by_contra hn
      exact not_clash_of_undisposed tidy (run_drains run) b hs hd ((clash_iff tidy b l).2 hn)
    exact step_booked tidy b hs hfresh hspares

end ConfinedDb.Interleaving
