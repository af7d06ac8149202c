import ConfinedDb.Proofs.Confinement.Ownership
import ConfinedDb.Proofs.Disposal.Rivals
/-!
# The only thread that prepares

A thread owns an open connection, and while no open is under way and no preparation of another
thread, it stays so: the others are refused, until the connection is disposed and refuses every
preparation and every open (`World.Unchallenged`, **`unchallenged_step`**). So when an action of the
thread goes on and finds the connection disposed, no preparation that has a handle goes on after it:
there is none of another thread, those that it is nested in wait for it, and none can be nested in
it any more (`World.Innermost`, **`World.Innermost.not_rival`**).
-/
namespace ConfinedDb.Interleaving

section Worlds

variable {M : Machine} {E : Engine}

/-- No open is under way and no preparation of another thread, and unless the connection is
disposed, it is open and the thread owns it. -/
structure World.Unchallenged (w : World M E) (t : ThreadId) : Prop where
  owned : w.state.disposed = false → w.state.owner = some t ∧ w.state.handle.isSome = true
  opens : ∀ f ∈ w.frames, f.task.kind ≠ .opens
  prepares : ∀ f ∈ w.frames, f.task.kind = .prepares → f.thread = t

/-- The action of thread `t` that is nested in `k` others is under way, and no preparation of the
thread is nested in it. -/
def World.Innermost (w : World M E) (t : ThreadId) (k : Nat) : Prop :=
  ∃ i f, w.At t k i f ∧ ∀ g ∈ w.frames.take i, g.thread = t → g.task.kind ≠ .prepares

theorem innermost_proceed {w : World M E} {t u : ThreadId} {k i : Nat} {f : Frame M} {task : Task}
    {own : Bool} {chunk : Chunk M.Point Outcome} (hat : w.At t k i f)
    (hnone : ∀ g ∈ w.frames.take i, g.thread = t → g.task.kind ≠ .prepares)
    (hnext : ∀ p, chunk.next = .inl p → u = t → task.kind ≠ .prepares) :
    (w.proceed u task own chunk).Innermost t k := by
  cases hn : chunk.next with
  | inl p =>
    rw [w.proceed_pause u task own hn]
    exact ⟨i + 1, f, ⟨hat.frame, hat.thread, hat.below⟩,
      List.forall_mem_cons.2 ⟨hnext p hn, hnone⟩⟩
  | inr o =>
    rw [w.proceed_end u task own hn]
    exact ⟨i, f, ⟨hat.frame, hat.thread, hat.below⟩, hnone⟩

end Worlds

variable {c : Connection} {E : Engine} {v v' : World (phases c) E} {l : Label E} {t u : ThreadId}
  {k : Nat} {task : Task}

theorem ready_of_prepares {s : State} {q : Phase} (hk : task.kind = .prepares)
    (hq : (phaseStart c u s task).next = .inl q) : Ready u s := by
  obtain ⟨sql, lending, rfl⟩ := prepare_of_kind hk
  exact (prepare_next hq).1

theorem step_opened (hs : v.step l = some v') (hh : v.state.handle.isSome = true)
    (hd' : v'.state.disposed = false) : v'.state.handle.isSome = true := by
  cases World.step_cases hs with
  | @start u a task ht =>
    have hstate : (v.start u task).state = (phaseStart c u v.state task).state := proceed_state ..
    rw [hstate] at hd' ⊢
    cases start_cases (c := c) (t := u) (s := v.state) task with
    | opens _ start => rcases start.state_cases with h | h <;> simpa [h] using hh
    | disposes _ start => simp [start.disposed] at hd'
    | other _ _ change => rwa [change.sameDatabase.handle]
  | act hf => exact hh
  | @resume i u task p answer hf hn =>
    have hstate := proceed_state (v.returned i u (p.call c)) u task true
      (p.resume c u answer v.state)
    refine (congrArg (fun s => s.handle.isSome) hstate).trans ?_
    by_cases hp : p.kind = .opens
    · have hrest := open_rest (t := u) (s := v.state) hp answer
      generalize p.resume c u answer v.state = m at hrest
      cases hrest with
      | waits _ _ _ state => rwa [state]
      | late _ _ state => rwa [state]
      | installs _ _ _ state => rw [state]; rfl
      | fails _ _ state =>
        rw [state]
        split
        · rwa [unclaim_handle]
        · exact hh
    · rwa [(resume_change hp answer).sameDatabase.handle]
  | drift e => exact hh

theorem unchallenged_step (tidy : Tidy v) (a : v.Unchallenged t) (hs : v.step l = some v') :
    v'.Unchallenged t := by
  have opened := fun hd' => step_opened hs (a.owned (undisposed_of_step hs hd')).2 hd'
  cases World.step_cases hs with
  | @start u _ task ht =>
    have hstate : (v.start u task).state = (phaseStart c u v.state task).state := proceed_state ..
    refine ⟨fun hd' => ⟨?_, opened hd'⟩, forall_proceed a.opens fun q hq hk => ?_,
      forall_proceed a.prepares fun q hq hk => ?_⟩
    · have owner := (a.owned (undisposed_of_step hs hd')).1
      rw [hstate, start_owner (by simp [owner]), owner]
      intro hk
      simpa [isDisposal_of_kind hk] using not_isDisposal_of_start hd'
    · obtain ⟨mode, rfl⟩ := open_of_kind hk
      cases open_start (c := c) (t := u) (s := v.state) mode with
      | refused ends => cases ends.symm.trans hq
      | opens undisposed closed => simpa [closed] using (a.owned undisposed).2
    · have ready := ready_of_prepares hk hq
      simpa [bars, (a.owned ready.undisposed).1] using ready.admitted
  | act hf => exact ⟨a.owned, forall_acted hf a.opens id, forall_acted hf a.prepares id⟩
  | @resume i u task p answer hf hn =>
    have hmem := List.mem_of_getElem? hf
    have hopens : task.kind ≠ .opens := a.opens _ hmem
    have hprepares : task.kind = .prepares → u = t := a.prepares _ hmem
    have hp : p.kind ≠ .opens := fun hk => hopens ((tidy.kinds _ hmem).symm.trans hk)
    have hstate := proceed_state (v.returned i u (p.call c)) u task true
      (p.resume c u answer v.state)
    refine ⟨fun hd' => ⟨?_, opened hd'⟩,
      forall_proceed (fun g hg => a.opens g (List.mem_of_mem_eraseIdx hg)) fun _ _ => hopens,
      forall_proceed (fun g hg => a.prepares g (List.mem_of_mem_eraseIdx hg)) fun _ _ => hprepares⟩
    have owner := (a.owned (undisposed_of_step hs hd')).1
    have same := (resume_change (t := u) (s := v.state) hp answer).sameDatabase.owner
    exact (congrArg State.owner hstate).trans (same.trans owner)
  | drift e => exact ⟨a.owned, a.opens, a.prepares⟩

theorem unchallenged_linked {w : World (phases c) E} {hops : List (Hop (phases c) E)}
    (tidy : Tidy w) (a : w.Unchallenged t) (linked : w.Linked hops v) : v.Unchallenged t := by
  induction hops generalizing w with
  | nil =>
    cases linked
    exact a
  | cons hop hops ih =>
    obtain ⟨rfl, hs, hrest⟩ := linked
    exact ih (tidy.step hs) (unchallenged_step tidy a hs) hrest

/-- A step of others leaves it so, once the connection is disposed. -/
theorem innermost_step (top : v.Innermost t k) (hd : v.state.disposed = true)
    (hs : v.step l = some v') (hother : ∀ i f, v.At t k i f → l ≠ .resume i) :
    v'.Innermost t k := by
  obtain ⟨i, f, hat, hnone⟩ := top
  cases World.step_cases hs with
  | @start u _ task ht =>
    have hentered : (v.entered u task).At t k i f := ⟨hat.frame, hat.thread, hat.below⟩
    refine innermost_proceed hentered hnone fun q hq _ hk => ?_
    simp [(ready_of_prepares hk hq).undisposed] at hd
  | @act j u task p hf =>
    have hnone : ∀ g ∈ (v.acted j u task p).frames.take i,
        g.thread = t → g.task.kind ≠ .prepares := by
      show ∀ g ∈ (v.frames.set j _).take i, _
      rcases Nat.lt_or_ge j i with hlt | hge
      · have hold : u = t → task.kind ≠ .prepares := hnone _ (mem_take_of_getElem? hf hlt)
        intro g hg
        rw [List.take_set] at hg
        rcases List.mem_or_eq_of_mem_set hg with hg | rfl
        · exact hnone g hg
        · exact hold
      · rwa [List.take_set_of_le hge]
    by_cases hj : j = i
    · subst hj
      obtain rfl : f = ⟨u, task, p, none⟩ := Option.some.inj (hat.frame.symm.trans hf)
      obtain rfl : u = t := hat.thread
      exact ⟨j, _, acted_at hat, hnone⟩
    · exact ⟨i, f, at_acted hat hf hj, hnone⟩
  | @resume j u task p answer hf hn =>
    have hne : j ≠ i := fun hj => hother i f hat (by rw [hj])
    obtain ⟨j', hat', hsub⟩ := at_returned (u := u) hat hf hn hne (p.call c)
    refine innermost_proceed hat' (fun g hg => hnone g (hsub.subset hg)) fun q hq hu => ?_
    subst hu
    have hlt : j < i := Nat.lt_of_le_of_ne (hat.le_of_newest hn) hne
    exact hnone _ (mem_take_of_getElem? hf hlt) rfl
  | drift e => exact ⟨i, f, ⟨hat.frame, hat.thread, hat.below⟩, hnone⟩

/-- Then there is no rival among the actions that go on. -/
theorem World.Innermost.not_rival (top : v.Innermost t k) (tidy : Tidy v) (a : v.Unchallenged t)
    (hs : v.step l = some v') {h : StmtHandle} : ¬(Hop.mk v l v').Rival t k h := by
  rintro ⟨other, -, j, g, rfl, hg, hh⟩
  obtain ⟨i, f, hat, hnone⟩ := top
  have hmem := List.mem_of_getElem? hg
  have hk : g.task.kind = .prepares := (tidy.kinds g hmem).symm.trans (prepares_of_pending hh)
  have ht : g.thread = t := a.prepares g hmem hk
  cases World.step_cases hs with
  | resume hf hn =>
    cases hg.symm.trans hf
    obtain rfl : _ = t := ht
    rcases Nat.eq_or_lt_of_le (hat.le_of_newest hn) with rfl | hlt
    · exact other ⟨f, hat⟩
    · exact hnone _ (mem_take_of_getElem? hf hlt) rfl hk

end ConfinedDb.Interleaving
