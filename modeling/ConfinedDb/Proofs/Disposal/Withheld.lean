import ConfinedDb.Proofs.Disposal.Sole
import ConfinedDb.Proofs.Interleaving.Lend
import ConfinedDb.Proofs.Spent.Undisposed
/-!
# Handles that have not arrived

Where the engine mints no live handle, a handle that has not arrived yet is not registered. One
that has arrived too late is not either, also when the connection is disposed in the meantime
(`Withheld`, **`run_withheld`**). So a finalization starts only of a statement that is registered, or
of one that has just arrived (**`finalize_called`**).

Until the connection is disposed this is what the books say. After that nothing is registered any
more, so what is registered can only get less. And what is not live is not registered, since a
finalization that returns takes its handle out of the registry; so no handle is minted that is
registered still.
-/
namespace ConfinedDb.Interleaving

open History

variable {c : Connection} {E : Engine} {w w' : World (phases c) E} {l : Label E}

/-! ## What is kept apart -/

/-- What is registered is live, and what has not arrived or arrived too late is not registered. -/
structure Withheld (s : State) (frames : List (Frame (phases c))) (past : History) : Prop where
  registered : ∀ h ∈ s.registered, h ∈ live past
  pending : ∀ f ∈ frames, ∀ h ∈ f.pending, h ∉ s.registered
  late : ∀ f ∈ frames, ∀ h sql, f.point = .prepareLate h sql → h ∉ s.registered

namespace Withheld

variable {s s' : State} {frames frames' : List (Frame (phases c))} {past past' : History} {i : Nat}
  {t : ThreadId} {task : Task} {p : Phase} {h : StmtHandle}

theorem shed (a : Withheld s frames past) (hs : s'.registered ⊆ s.registered) :
    Withheld s' frames past where
  registered h hh := a.registered h (hs hh)
  pending f hf h hh hm := a.pending f hf h hh (hs hm)
  late f hf h sql hp hm := a.late f hf h sql hp (hs hm)

theorem congr_live (a : Withheld s frames past) (hl : live past' = live past) :
    Withheld s frames past' where
  registered := by simpa only [hl] using a.registered
  pending := a.pending
  late := a.late

theorem subset (a : Withheld s frames past) (hsub : frames' ⊆ frames) :
    Withheld s frames' past where
  registered := a.registered
  pending f hf := a.pending f (hsub hf)
  late f hf := a.late f (hsub hf)

theorem push (a : Withheld s frames past)
    (hlate : ∀ h sql, p = .prepareLate h sql → h ∉ s.registered) :
    Withheld s (⟨t, task, p, none⟩ :: frames) past where
  registered := a.registered
  pending := List.forall_mem_cons.2 ⟨nofun, a.pending⟩
  late := List.forall_mem_cons.2 ⟨hlate, a.late⟩

theorem finish (a : Withheld s frames past) (hr : h ∉ s.registered) :
    Withheld s frames (.returned t (.finalize h) :: past) where
  registered k hk := by
    refine List.mem_filter.2 ⟨a.registered k hk, ?_⟩
    simpa using fun he : k = h => hr (he ▸ hk)
  pending := a.pending
  late := a.late

theorem answer (a : Withheld s frames past) (hf : frames[i]? = some ⟨t, task, p, none⟩)
    {answer : (p.call c).Answer}
    (hnew : ∀ db h, minting (p.call c) answer = [.minted db h] → h ∉ live past) :
    Withheld s (frames.set i ⟨t, task, p, some answer⟩) (minting (p.call c) answer ++ past) := by
  have hlate : ∀ f ∈ frames.set i ⟨t, task, p, some answer⟩, ∀ h sql,
      f.point = .prepareLate h sql → h ∉ s.registered := by
    intro g hg
    rcases List.mem_or_eq_of_mem_set hg with hg | rfl
    · exact a.late g hg
    · exact a.late ⟨t, task, p, none⟩ (List.mem_of_getElem? hf)
  have hpending : (∀ h ∈ arriving (p.call c) answer, h ∉ s.registered) →
      ∀ f ∈ frames.set i ⟨t, task, p, some answer⟩, ∀ h ∈ f.pending, h ∉ s.registered := by
    intro harrives g hg
    rcases List.mem_or_eq_of_mem_set hg with hg | rfl
    · exact a.pending g hg
    · exact harrives
  rcases minting_cases (p.call c) answer past with ⟨db, h, hm, ha⟩ | ⟨ha, hm⟩
  · have hfresh : h ∉ s.registered := fun hr => hnew db h hm (a.registered h hr)
    rw [hm]
    refine ⟨fun k hk => List.mem_cons_of_mem _ (a.registered k hk), hpending ?_, hlate⟩
    rw [ha]
    exact List.forall_mem_singleton.2 hfresh
  · exact congr_live ⟨a.registered, hpending (by rw [ha]; nofun), hlate⟩ hm.live

end Withheld

/-! ## Runs -/

theorem withheld_of_booked (b : w.Booked) : Withheld w.state w.frames w.history where
  registered h hh := (b.lives.registered h hh).1
  pending f hf h hh := by
    have hgrip : Grip.pending h ∈ w.grips := mem_grips.2 ⟨f, hf, .inr (List.mem_map_of_mem hh)⟩
    have hm : h ∈ pending w.grips := List.mem_filterMap.2 ⟨_, hgrip, rfl⟩
    exact (b.lives.pending h hm).2.2.2
  late f hf h sql hp := b.late h (mem_grips.2 ⟨f, hf, .inl (by rw [hp]; rfl)⟩)

/-- **A finalization starts of a statement that is registered, or of one that has just arrived.** -/
theorem finalize_called (hbooked : w.state.disposed = false → w.Booked) {t : ThreadId} {task : Task}
    {h : StmtHandle} (hcalls : w.Calls l t task (.finalize h)) :
    h ∈ w.state.registered ∨ ∃ i f, l = .resume i ∧ w.frames[i]? = some f ∧ h ∈ f.pending := by
  cases l with
  | start u a =>
    obtain ⟨rfl, ht, q, hq, hc⟩ := hcalls
    have hc : q.call c = .finalize h := hc
    have hstatement : (q.call c).statement? = some h := by rw [hc]; rfl
    have hk := start_kind hq
    have hnames := start_names hq hstatement
    generalize task.kind = k at hk hnames
    cases hnames with
    | use _ _ =>
      cases q with
      | prepareLate | finalizing | draining => cases hk
      | _ => cases hc
    | release _ there => exact .inl there
    | drain _ there => exact .inl there
  | resume i =>
    obtain ⟨p, answer, hf, q, hq, hc⟩ := hcalls
    have hc : q.call c = .finalize h := hc
    have hstatement : (q.call c).statement? = some h := by rw [hc]; rfl
    cases resume_names hq hstatement with
    | reset _ _ => cases hc
    | clear => cases hc
    | @finalize _ _ sql held there =>
      refine .inl ?_
      cases hd : w.state.disposed with
      | false =>
        have b := (hbooked hd).perm (.refl _) (grips_perm hf)
        have hm : (h, sql) ∈ owned w.users ((⟨t, task, p, some answer⟩ : Frame (phases c)).grips ++
            (w.frames.eraseIdx i).flatMap Frame.grips) := by
          refine List.mem_append_right _ (List.mem_filterMap.2 ⟨.held h sql, ?_, rfl⟩)
          exact List.mem_append_left _ (List.mem_append_left _ (Option.mem_toList.2 held))
        exact State.mem_registered (b.named hd _ hm)
      | true =>
        rw [← State.contains_iff]
        simpa [State.abandoned, hd] using there
    | late _ arrives => exact .inr ⟨i, _, rfl, hf, arrives⟩
    | drain there => exact .inl (State.forget_subset _ _ _ there)
  | act i => exact hcalls.elim
  | drift e => exact hcalls.elim

theorem live_returned {t : ThreadId} {call : EngineCall} (hc : ∀ h, call ≠ .finalize h)
    (past : History) : live (.returned t call :: past) = live past := by
  cases call with
  | finalize h => exact absurd rfl (hc h)
  | _ => rfl

/-- A statement that was finalized is not registered any more. -/
theorem resume_forgets {t : ThreadId} {s : State} {p : Phase} {answer : (p.call c).Answer}
    {h : StmtHandle} (hp : p.call c = .finalize h)
    (hlate : ∀ sql, p = .prepareLate h sql → h ∉ s.registered) :
    h ∉ (p.resume c t answer s).state.registered := by
  have hforget : ∀ sql, h ∉ (s.forget h sql).registered := by
    intro sql hm
    rw [State.registered_forget] at hm
    simp at hm
  cases p with
  | prepareLate k sql =>
    cases hp
    exact hlate sql rfl
  | finalizing k sql =>
    cases hp
    exact hforget sql
  | draining k sql rounds db =>
    cases hp
    show h ∉ (drainChunk db rounds (s.forget h sql)).state.registered
    cases drainChunk_next (s := s.forget h sql) db rounds with
    | takes _ _ _ state => rw [state]; exact hforget sql
    | closes _ _ state => rw [state]; exact List.not_mem_nil
  | _ => cases hp

theorem withheld_proceed {m : Move} {t : ThreadId} {task : Task} {own : Bool}
    (a : Withheld m.state w.frames w.history)
    (hlate : ∀ h sql, m.next = .inl (.prepareLate h sql) → h ∉ m.state.registered) :
    Withheld (w.proceed t task own m).state (w.proceed t task own m).frames
      (w.proceed t task own m).history := by
  have a' := a.congr_live (proceed_history w t task own m).2
  cases hn : m.next with
  | inl q =>
    rw [w.proceed_pause t task own hn] at a' ⊢
    exact a'.push fun h sql hq => hlate h sql (hn.trans (congrArg Sum.inl hq))
  | inr o =>
    rw [w.proceed_end t task own hn] at a' ⊢
    exact a'

theorem Sheds.registered {s s' : State} (h : Sheds s s') : s'.registered ⊆ s.registered := by
  intro k hk
  rw [← s'.contains_iff, s'.statements.contains_eq, Option.isSome_iff_exists] at hk
  obtain ⟨sql, hsql⟩ := hk
  exact State.mem_registered (h.texts k sql hsql)

/-- **Every step keeps this up.** -/
theorem step_withheld (a : Withheld w.state w.frames w.history) (closed : Closed w.state)
    (hbooked' : w'.state.disposed = false → w'.Booked) (hs : w.step l = some w')
    (fresh : MintsFresh w l w') : Withheld w'.state w'.frames w'.history := by
  cases hd' : w'.state.disposed with
  | false => exact withheld_of_booked (hbooked' hd')
  | true =>
    have hsub := (step_sheds closed hs hd').registered
    cases World.step_cases hs with
    | @start t a' task ht =>
      have hstate : (w.start t task).state = (phaseStart c t w.state task).state :=
        proceed_state ..
      rw [hstate] at hsub
      have hentered : live (w.entered t task).history = live w.history :=
        (inert_append (inert_opening task t w.state) w.history).2
      refine withheld_proceed (w := w.entered t task) ((a.shed hsub).congr_live hentered)
        fun h sql hq => ?_
      have hk := start_kind hq
      cases task with
      | prepare sql' lending =>
        obtain ⟨-, db, -, hq'⟩ := prepare_next hq
        cases hq'
      | use n st u => cases u <;> cases hk
      | _ => cases hk
    | @act i t task p hf => exact a.answer hf fun db h hm => fresh db h (congrArg (· ++ _) hm)
    | @resume i t task p answer hf hn =>
      have hstate : ((w.returned i t (p.call c)).proceed t task true
          (p.resume c t answer w.state)).state = (p.resume c t answer w.state).state :=
        proceed_state ..
      have hsub : (p.resume c t answer w.state).state.registered ⊆ w.state.registered :=
        hstate ▸ hsub
      have hmem := List.mem_of_getElem? hf
      have hrest : Withheld (p.resume c t answer w.state).state (w.frames.eraseIdx i) w.history :=
        (a.subset List.eraseIdx_subset).shed hsub
      have hreturned : Withheld (p.resume c t answer w.state).state (w.frames.eraseIdx i)
          (.returned t (p.call c) :: w.history) := by
        by_cases hc : ∃ h, p.call c = .finalize h
        · obtain ⟨h, hc⟩ := hc
          rw [hc]
          exact hrest.finish (resume_forgets hc fun sql hp => a.late _ hmem h sql hp)
        · exact hrest.congr_live (live_returned (not_exists.1 hc) w.history)
      refine withheld_proceed (w := w.returned i t (p.call c)) hreturned fun h sql hq hm => ?_
      cases resume_names hq (h := h) rfl with
      | late _ arrives => exact a.pending _ hmem h arrives (hsub hm)
    | drift e => exact a

/-- **In a run in which no live handle is minted, what has not arrived is kept apart.** -/
theorem run_withheld {e : E.State} {ls : List (Label E)}
    (run : Run (phases c) E e MintsFresh ls w) : Withheld w.state w.frames w.history := by
  induction run with
  | nil => exact withheld_of_booked (booked_initial e)
  | @snoc ls w w' l run hs hr ih =>
    exact step_withheld ih (run_drains run).closed (booked_of_undisposed (run.snoc hs hr)) hs hr

end ConfinedDb.Interleaving
