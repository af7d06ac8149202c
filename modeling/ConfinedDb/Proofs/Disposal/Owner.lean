import ConfinedDb.Proofs.Recording.Accounted
/-!
# Disposals on the owner

A disposal on the owner closes the database only after it has finalized all statements that were
registered. So the statements that are live while it is under way, and after it, are in the hands of
preparations (**`cover_of_owned`**), and once nothing is under way none is left.
-/
namespace ConfinedDb.Interleaving

open History

/-- Others use the engine, nobody tells it to fail, and the disposal that takes effect is the
owner's. -/
def OwnDisposal {M : Machine} (w : World M recording) (l : Label recording)
    (w' : World M recording) : Prop :=
  (∀ e, l = .drift e → Elsewhere (databases w.history) w.recorder e) ∧
    ∀ t a, l = .start t a → w.state.disposed = false → w'.state.disposed = true →
      w.state.owner = some t

variable {c : Connection} {w w' : World (phases c) recording} {l : Label recording}
  {ls : List (Label recording)}

theorem OwnDisposal.shared (h : OwnDisposal w l w') : Shared w l w' := fun e he => .inl (h.1 e he)

theorem run_shared (run : Run (phases c) recording .initial OwnDisposal ls w) :
    Run (phases c) recording .initial Shared ls w :=
  run_mono (fun _ _ _ h => h.shared) run

/-- Such a disposal closes the database once it has finalized what is registered. -/
theorem drained_of_owned (d : Drains w) (h : w.step l = some w') (ok : OwnDisposal w l w') :
    w.Drained l := by
  cases World.step_cases h with
  | @start t a task ht =>
    intro task' ht' db hq
    cases ht.symm.trans ht'
    have hk : Kind.disposes = task.kind := start_kind hq
    have hstart := dispose_start (c := c) (t := t) (s := w.state) (isDisposal_of_kind hk.symm)
    have hd' : (w.start t task).state.disposed = true :=
      (congrArg State.disposed (proceed_state ..)).trans hstart.disposed
    have howner := ok.2 t a rfl
    generalize phaseStart c t w.state task = m at hstart hq
    cases hstart with
    | again _ ends => cases ends.symm.trans hq
    | unopened _ _ ends => cases ends.symm.trans hq
    | drains _ _ _ next =>
      cases next with
      | takes _ _ waits => cases waits.symm.trans hq
      | closes done =>
        rcases done with hlen | hr
        · exact List.eq_nil_of_length_eq_zero hlen
        · simpa [State.registered] using hr
    | abandons undisposed _ alien => exact absurd (howner undisposed hd') alien
  | act hf => trivial
  | @resume i t task p answer hf hn =>
    intro t' task' p' answer' hf' db hq k hk
    cases hf.symm.trans hf'
    have hpaced := d.paced _ (List.mem_of_getElem? hf)
    obtain ⟨j, sql, rounds, rfl, hnext⟩ := resume_closing hq
    have hleft : w.state.registered.filter (· ≠ j) = [] := by
      cases hnext with
      | takes _ _ waits => cases waits.symm.trans hq
      | closes done =>
        rw [State.registered_forget] at done
        rcases done with rfl | hr
        · exact List.eq_nil_of_length_eq_zero (Nat.le_zero.1 hpaced)
        · exact hr
    have he : k = j := by simpa using List.filter_eq_nil_iff.1 hleft k hk
    exact congrArg EngineCall.finalize he.symm
  | drift e => trivial

theorem cover_of_owned (run : Run (phases c) recording .initial OwnDisposal ls w) : Cover w := by
  induction run with
  | nil => exact .initial
  | @snoc ls w w' l run hstep hok ih =>
    have run' := run_shared run
    exact ih.step (run_tidy run) (run_sources run') (run_mirror run') hstep
      (drained_of_owned (run_drains run) hstep hok)
      (hok.shared.apart (run_sources run'))

/-- **Once nothing is under way, no statement is left.** -/
theorem not_mine_of_disposed (run : Run (phases c) recording .initial OwnDisposal ls w)
    (hf : w.frames = []) (hd : w.state.disposed = true) (h : StmtHandle) : ¬w.Mine h := by
  intro hm
  rcases cover_of_owned run h hm with hr | ⟨f, hin, -⟩
  · rcases (run_drains run).lasts hd with he | ⟨f, hin, -⟩
    · simp [he] at hr
    · simp [hf] at hin
  · simp [hf] at hin

end ConfinedDb.Interleaving
