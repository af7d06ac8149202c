import ConfinedDb.Proofs.Interleaving.Effect
/-!
# Disposals under way

A disposal on the owner takes the registered statements one after the other, in at most as many
rounds as there were statements when it took effect. Others may forget statements in the meantime,
but once a connection is disposed it registers none, so the rounds suffice (`Phase.Paced`). The
disposal goes on as long as a statement is registered, and it closes the database when none is left.

This holds of every run (`Drains`, **`run_drains`**), with what it rests on: a connection that is
disposed has no database, one without a database has no statements, and no disposal is under way
before one has taken effect.
-/
namespace ConfinedDb.Interleaving

/-! ## Rounds -/

/-- The rounds that are left suffice for what is registered, and the close comes after the last. -/
def Phase.Paced (s : State) : Phase → Prop
  | .draining h _ rounds _ => (s.registered.filter (· ≠ h)).length ≤ rounds
  | .closing _ => s.registered = []
  | _ => True

def Phase.drains : Phase → Bool
  | .draining .. => true
  | _ => false

section Stretches

variable {c : Connection} {t : ThreadId} {s s' : State}

/-- With fewer statements the rounds still suffice. -/
theorem Phase.Paced.mono {p : Phase} (h : p.Paced s) (hr : s'.registered ⊆ s.registered) :
    p.Paced s' := by
  cases p with
  | draining k sql rounds db =>
    have hsub := List.subperm_of_subset s'.statements.table.distinct hr
    exact Nat.le_trans (hsub.filter (· ≠ k)).length_le h
  | closing db =>
    have h : s.registered = [] := h
    exact List.eq_nil_of_subset_nil (h ▸ hr)
  | _ => trivial

theorem drains_kind {p : Phase} (h : p.drains = true) : p.kind = .disposes := by
  cases p <;> first | rfl | cases h

theorem paced_of_kind {p : Phase} (hk : p.kind ≠ .disposes) : p.Paced s := by
  cases p with
  | draining h sql rounds db => exact absurd rfl hk
  | closing db => exact absurd rfl hk
  | _ => trivial

/-- If the rounds suffice, the next statement is taken or none is left. -/
theorem DrainNext.paced {db : DbHandle} {rounds : Nat} {m : Move} (h : DrainNext s db rounds m)
    (hr : s.registered.length ≤ rounds) {q : Phase} (hq : m.next = .inl q) : q.Paced m.state := by
  cases h with
  | @takes k sql left rounds_eq there waits state =>
    cases waits.symm.trans hq
    have hlt : (s.registered.filter (· ≠ k)).length < s.registered.length :=
      List.length_filter_lt_length_iff_exists.2 ⟨k, there, by simp⟩
    rw [state]
    show (s.registered.filter (· ≠ k)).length ≤ left
    omega
  | closes _ waits state =>
    cases waits.symm.trans hq
    rw [state]
    rfl

theorem DrainNext.lasts {db : DbHandle} {rounds : Nat} {m : Move} (h : DrainNext s db rounds m) :
    m.state.registered = [] ∨ ∃ q, m.next = .inl q ∧ q.drains = true := by
  cases h with
  | takes _ _ waits _ => exact .inr ⟨_, waits, rfl⟩
  | closes _ _ state => exact .inl (by rw [state]; rfl)

theorem start_paced {task : Task} {q : Phase} (hq : (phaseStart c t s task).next = .inl q) :
    q.Paced (phaseStart c t s task).state := by
  by_cases ht : task.isDisposal = true
  · have hstart := dispose_start (c := c) (t := t) (s := s) ht
    generalize phaseStart c t s task = m at hstart hq
    cases hstart with
    | again _ ends => cases ends.symm.trans hq
    | unopened _ _ ends => cases ends.symm.trans hq
    | drains _ _ _ next => exact next.paced (by simp [State.registered]) hq
    | abandons _ _ _ waits state =>
      cases waits.symm.trans hq
      rw [state]
      rfl
  · exact paced_of_kind fun hk => ht (isDisposal_of_kind ((start_kind hq).symm.trans hk))

theorem resume_paced {p : Phase} {answer : (p.call c).Answer} (hp : p.Paced s) {q : Phase}
    (hq : (p.resume c t answer s).next = .inl q) : q.Paced (p.resume c t answer s).state := by
  by_cases hk : p.kind = .disposes
  · cases p with
    | draining h sql rounds db =>
      have hr : (s.forget h sql).registered.length ≤ rounds := by
        rw [State.registered_forget]
        exact hp
      exact (drainChunk_next db rounds).paced hr hq
    | closing db =>
      simp only [Phase.resume] at hq
      split at hq <;> cases hq
      trivial
    | closeFailed db rc => cases hq
    | failing c' db rc operation about onward => cases onward <;> cases hk
    | _ => cases hk
  · exact paced_of_kind fun hk' => hk ((resume_kind hq).symm.trans hk')

abbrev Unstocked (s : State) : Prop := s.disposed = false → s.handle = none → s.registered = []

theorem SameDatabase.unstocked (h : SameDatabase s s') (hs : Unstocked s) : Unstocked s' := by
  intro hd hh
  rw [h.disposed] at hd
  rw [h.handle] at hh
  rcases h.registered with hr | hr
  · exact List.eq_nil_of_subset_nil (hs hd hh ▸ hr)
  · simp [hh] at hr

theorem start_unstocked {task : Task} (hs : Unstocked s) :
    Unstocked (phaseStart c t s task).state := by
  cases start_cases (c := c) (t := t) (s := s) task with
  | opens _ start =>
    rcases start.state_cases with h | h <;> rw [h]
    · exact hs
    · simpa [Unstocked, State.registered] using hs
  | disposes _ start =>
    intro hd
    simp [start.disposed] at hd
  | other _ _ change => exact change.sameDatabase.unstocked hs

theorem resume_unstocked {p : Phase} {answer : (p.call c).Answer} (hs : Unstocked s) :
    Unstocked (p.resume c t answer s).state := by
  by_cases hp : p.kind = .opens
  · have hrest := open_rest (t := t) (s := s) hp answer
    generalize p.resume c t answer s = m at hrest
    cases hrest with
    | waits _ _ _ state => exact state ▸ hs
    | late _ _ state => exact state ▸ hs
    | installs _ _ _ state =>
      rw [state]
      intro _ hh
      cases hh
    | fails _ _ state =>
      rw [state]
      split
      · simpa [Unstocked, State.registered] using hs
      · exact hs
  · exact (resume_same hp answer).unstocked hs

/-- A disposal that takes effect goes on as long as a statement is registered. -/
theorem start_lasts {task : Task} (hd : s.disposed = false)
    (hd' : (phaseStart c t s task).state.disposed = true) (hs : Unstocked s) :
    (phaseStart c t s task).state.registered = [] ∨
      ∃ q, (phaseStart c t s task).next = .inl q ∧ q.drains = true := by
  have ht : task.isDisposal = true := by simpa [start_disposed, hd] using hd'
  have hstart := dispose_start (c := c) (t := t) (s := s) ht
  generalize phaseStart c t s task = m at hstart
  cases hstart with
  | again disposed => simp [hd] at disposed
  | unopened _ closed _ state =>
    refine .inl ?_
    rw [state]
    simpa [State.registered] using hs hd closed
  | drains _ _ _ next => exact next.lasts
  | abandons _ _ _ _ state => exact .inl (by rw [state]; rfl)

theorem resume_lasts {p : Phase} (hp : p.drains = true) (answer : (p.call c).Answer) :
    (p.resume c t answer s).state.registered = [] ∨
      ∃ q, (p.resume c t answer s).next = .inl q ∧ q.drains = true := by
  cases p with
  | draining h sql rounds db => exact (drainChunk_next db rounds).lasts
  | _ => cases hp

/-- The database is closed by a disposal that has finalized a statement. -/
theorem resume_closing {p : Phase} {answer : (p.call c).Answer} {db : DbHandle}
    (hq : (p.resume c t answer s).next = .inl (.closing db)) :
    ∃ h sql rounds, p = .draining h sql rounds db ∧
      DrainNext (s.forget h sql) db rounds (p.resume c t answer s) := by
  have hk := resume_kind hq
  cases p with
  | draining h sql rounds db' =>
    have hnext := drainChunk_next (s := s.forget h sql) db' rounds
    have hdb : db' = db := by
      have hq : (drainChunk db' rounds (s.forget h sql)).next = .inl (.closing db) := hq
      generalize drainChunk db' rounds (s.forget h sql) = m at hnext hq
      cases hnext with
      | takes _ _ waits => cases waits.symm.trans hq
      | closes _ waits =>
        cases waits.symm.trans hq
        rfl
    subst hdb
    exact ⟨h, sql, rounds, rfl, hnext.after _⟩
  | closing db' =>
    simp only [Phase.resume] at hq
    split at hq <;> cases hq
  | closeFailed db' rc => cases hq
  | failing c' db' rc operation about onward => cases onward <;> cases hk
  | _ => cases hk

end Stretches

/-! ## Worlds -/

variable {c : Connection} {E : Engine} {w w' : World (phases c) E} {l : Label E}

theorem step_disposed (h : w.step l = some w') (hd : w.state.disposed = true) :
    w'.state.disposed = true := by
  cases World.step_cases h with
  | @start t a task ht =>
    have hs : (phaseStart c t w.state task).state.disposed = true := by simp [start_disposed, hd]
    exact (congrArg State.disposed (proceed_state ..)).trans hs
  | act _ => exact hd
  | @resume i t task p answer hf hn =>
    exact (congrArg State.disposed (proceed_state ..)).trans ((resume_disposed p answer).trans hd)
  | drift e => exact hd

theorem undisposed_of_step (h : w.step l = some w')
    (hd : w'.state.disposed = false) : w.state.disposed = false := by
  by_contra hd'
  simp [step_disposed h (by simpa using hd')] at hd

theorem not_isDisposal_of_start {t : ThreadId} {task : Task}
    (hd : (w.start t task).state.disposed = false) : task.isDisposal = false := by
  have hs : (phaseStart c t w.state task).state.disposed = false :=
    (congrArg State.disposed (proceed_state ..)).symm.trans hd
  rw [start_disposed, Bool.or_eq_false_iff] at hs
  exact hs.2

structure Drains (w : World (phases c) E) : Prop where
  closed : Closed w.state
  unstocked : Unstocked w.state
  effective : ∀ f ∈ w.frames, f.point.kind = .disposes → w.state.disposed = true
  paced : ∀ f ∈ w.frames, f.point.Paced w.state
  lasts : w.state.disposed = true →
    w.state.registered = [] ∨ ∃ f ∈ w.frames, f.point.drains = true

namespace Drains

theorem initial (e : E.State) : Drains (.initial e : World (phases c) E) where
  closed hd := by cases hd
  unstocked _ _ := rfl
  effective _ hf := by cases hf
  paced _ hf := by cases hf
  lasts hd := by cases hd

theorem proceed {t : ThreadId} {task : Task} {own : Bool} {m : Move} (hc : Closed m.state)
    (hu : Unstocked m.state)
    (hframes : ∀ f ∈ w.frames, (f.point.kind = .disposes → m.state.disposed = true) ∧
      f.point.Paced m.state)
    (hq : ∀ q, m.next = .inl q → (q.kind = .disposes → m.state.disposed = true) ∧ q.Paced m.state)
    (hl : m.state.disposed = true → m.state.registered = [] ∨
      (∃ q, m.next = .inl q ∧ q.drains = true) ∨ ∃ f ∈ w.frames, f.point.drains = true) :
    Drains (w.proceed t task own m) := by
  have hs := proceed_state w t task own m
  have hall : ∀ f ∈ (w.proceed t task own m).frames,
      (f.point.kind = .disposes → m.state.disposed = true) ∧ f.point.Paced m.state :=
    forall_proceed hframes hq
  refine ⟨hs ▸ hc, hs ▸ hu, fun f hm => hs ▸ (hall f hm).1, fun f hm => hs ▸ (hall f hm).2,
    fun hd => ?_⟩
  rw [hs] at hd ⊢
  rcases hl hd with hr | ⟨q, hn, hdrains⟩ | ⟨f, hf, hdrains⟩
  · exact .inl hr
  · exact .inr ⟨_, mem_proceed.2 (.inr ⟨q, hn, rfl⟩), hdrains⟩
  · exact .inr ⟨f, mem_proceed.2 (.inl hf), hdrains⟩

theorem others (d : Drains w) {s' : State} (hmono : w.state.disposed = true → s'.disposed = true)
    (hshut : s'.disposed = true → Shut w.state s') {f : Frame (phases c)} (hf : f ∈ w.frames) :
    (f.point.kind = .disposes → s'.disposed = true) ∧ f.point.Paced s' := by
  refine ⟨fun hk => hmono (d.effective f hf hk), ?_⟩
  cases hd : s'.disposed with
  | false =>
    refine paced_of_kind fun hk => ?_
    simp [hmono (d.effective f hf hk)] at hd
  | true => exact (d.paced f hf).mono (hshut hd).registered

/-- **Every step keeps this up.** -/
theorem step (d : Drains w) (h : w.step l = some w') : Drains w' := by
  cases World.step_cases h with
  | @start t a task ht =>
    have hmono : w.state.disposed = true → (phaseStart c t w.state task).state.disposed = true := by
      intro hd
      simp [start_disposed, hd]
    have hshut : (phaseStart c t w.state task).state.disposed = true →
        Shut w.state (phaseStart c t w.state task).state := start_shut d.closed
    refine proceed (fun hd => (hshut hd).handle) (start_unstocked d.unstocked)
      (fun f hf => d.others hmono hshut hf) (fun q hq => ⟨fun hk => ?_, start_paced hq⟩)
      fun hd' => ?_
    · have ht := isDisposal_of_kind ((start_kind hq).symm.trans hk)
      exact (dispose_start (c := c) (t := t) (s := w.state) ht).disposed
    · cases hd : w.state.disposed with
      | false => exact (start_lasts hd hd' d.unstocked).imp_right .inl
      | true =>
        rcases d.lasts hd with hr | hf
        · exact .inl (List.eq_nil_of_subset_nil (hr ▸ (hshut hd').registered))
        · exact .inr (.inr hf)
  | @act i t task p hf =>
    refine ⟨d.closed, d.unstocked, forall_acted hf d.effective id, forall_acted hf d.paced id,
      fun hd => (d.lasts hd).imp_right fun ⟨f, hm, hdrains⟩ => ?_⟩
    rcases mem_acted hf hm with rfl | hm
    · exact ⟨_, acted_mem hf, hdrains⟩
    · exact ⟨f, hm, hdrains⟩
  | @resume i t task p answer hf hn =>
    have hmem := List.mem_of_getElem? hf
    have hsame : (p.resume c t answer w.state).state.disposed = w.state.disposed :=
      resume_disposed p answer
    have hshut : (p.resume c t answer w.state).state.disposed = true →
        Shut w.state (p.resume c t answer w.state).state := resume_shut d.closed
    refine proceed (fun hd => (hshut hd).handle) (resume_unstocked d.unstocked)
      (fun f hm => d.others hsame.trans hshut (List.mem_of_mem_eraseIdx hm))
      (fun q hq => ⟨fun hk => ?_, resume_paced (d.paced _ hmem) hq⟩) fun hd' => ?_
    · exact hsame.trans (d.effective _ hmem ((resume_kind hq).symm.trans hk))
    · rcases d.lasts (hsame.symm.trans hd') with hr | ⟨f, hm, hdrains⟩
      · exact .inl (List.eq_nil_of_subset_nil (hr ▸ (hshut hd').registered))
      · rcases mem_returned hf hm with rfl | hm
        · exact (resume_lasts hdrains answer).imp_right .inl
        · exact .inr (.inr ⟨f, hm, hdrains⟩)
  | drift e => exact ⟨d.closed, d.unstocked, d.effective, d.paced, d.lasts⟩

end Drains

/-- **Every run keeps this up.** -/
theorem run_drains {e : E.State} {ok : World (phases c) E → Label E → World (phases c) E → Prop}
    {ls : List (Label E)} (run : Run (phases c) E e ok ls w) : Drains w := by
  induction run with
  | nil => exact .initial e
  | snoc _ hs _ ih => exact ih.step hs

end ConfinedDb.Interleaving
