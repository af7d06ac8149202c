import ConfinedDb.Proofs.Interleaving.Calls
import ConfinedDb.Proofs.Interleaving.Later
import ConfinedDb.Proofs.Interleaving.Drain
import ConfinedDb.Proofs.Spent.Names
/-!
# A disposal that nothing overlaps

A thread that owns a connection disposes it while no action is under way, and none starts until the
disposal is done. Then each statement that was registered is finalized once, on that thread
(**`sole_finalizes`**).

As long as the disposal is under way (`Sole`), a statement has either not had its turn, and then it
is registered and not the one that is being finalized, or it has had it, and then it is registered
only as long as its finalization is in progress. When the disposal is done no statement is
registered, so each has had its turn.
-/
namespace ConfinedDb.Interleaving

def Event.finalizer? (h : StmtHandle) : Event → Option ThreadId
  | .called t (.finalize k) => if k = h then some t else none
  | _ => none

/-- The threads that have started to finalize a statement, newest first. -/
def History.finalizers (h : StmtHandle) (past : History) : List ThreadId :=
  past.filterMap (Event.finalizer? h)

open History

section Histories

variable {M : Machine} {E : Engine} {w : World M E} {t : ThreadId} {task : Task} {own : Bool}
  {chunk : Chunk M.Point Outcome} {h : StmtHandle}

theorem finalizer_of_quiet {e : Event} (he : e.Quiet) : e.finalizer? h = none := by
  cases e with
  | called t call => exact he.elim
  | _ => rfl

theorem finalizers_append {es : History} (hes : ∀ e ∈ es, e.finalizer? h = none)
    (past : History) : finalizers h (es ++ past) = finalizers h past := by
  unfold finalizers
  rw [List.filterMap_append, List.filterMap_eq_nil_iff.2 hes, List.nil_append]

theorem finalizers_quiet {es : History} (hes : ∀ e ∈ es, e.Quiet) (past : History) :
    finalizers h (es ++ past) = finalizers h past :=
  finalizers_append (fun e he => finalizer_of_quiet (hes e he)) past

theorem finalizers_minting (call : EngineCall) (answer : call.Answer) (past : History) :
    finalizers h (minting call answer ++ past) = finalizers h past := by
  refine finalizers_append (fun e he => ?_) past
  rcases mem_minting he with ⟨db, rfl⟩ | ⟨db, k, rfl⟩ <;> rfl

theorem finalizers_closing (task : Task) (t : ThreadId) (own : Bool) (s : State) (o : Outcome)
    (past : History) : finalizers h (task.closing t own s o ++ past) = finalizers h past := by
  refine finalizers_append (fun e he => ?_) past
  rcases mem_closing he with ⟨db, rfl⟩ | rfl <;> rfl

theorem finalizers_of_call {p : M.Point} (hn : chunk.next = .inl p) (hp : M.call p = .finalize h) :
    finalizers h (w.proceed t task own chunk).history = t :: finalizers h w.history := by
  have hhistory : (w.proceed t task own chunk).history
      = .called t (M.call p) :: ((chunk.notices.map Event.reported).reverse ++ w.history) :=
    congrArg World.history (w.proceed_pause t task own hn)
  rw [hhistory, hp, ← finalizers_quiet (quiet_reported chunk.notices) w.history]
  exact List.filterMap_cons_some (if_pos rfl)

theorem finalizers_proceed (hn : ∀ p, chunk.next = .inl p → M.call p ≠ .finalize h) :
    finalizers h (w.proceed t task own chunk).history = finalizers h w.history := by
  refine Eq.trans ?_ (finalizers_quiet (quiet_reported chunk.notices) w.history)
  cases hnext : chunk.next with
  | inl p =>
    rw [w.proceed_pause t task own hnext]
    refine List.filterMap_cons_none ?_
    have hp := hn p hnext
    generalize M.call p = call at hp
    cases call with
    | finalize k => exact if_neg fun he => hp (congrArg EngineCall.finalize he)
    | _ => rfl
  | inr o =>
    rw [w.proceed_end t task own hnext]
    exact finalizers_closing ..

/-- A step in which nobody starts to finalize the statement. -/
theorem finalizers_step {w' : World M E} {l : Label E} (hs : w.step l = some w')
    (hn : ∀ t task, ¬w.Calls l t task (.finalize h)) :
    finalizers h w'.history = finalizers h w.history := by
  cases World.step_cases hs with
  | @start t a task ht =>
    refine (finalizers_proceed fun p hp hc => hn t task ⟨rfl, ht, p, hp, hc⟩).trans ?_
    exact finalizers_quiet (quiet_opening task t w.state) w.history
  | act hf => exact finalizers_minting _ _ w.history
  | @resume i t task p answer hf _ =>
    exact finalizers_proceed fun q hq hc => hn t task ⟨p, answer, hf, q, hq, hc⟩
  | drift e => rfl

/-- A step in which somebody starts to finalize it. -/
theorem finalizers_calls {w' : World M E} {l : Label E} (hs : w.step l = some w')
    (hcalls : w.Calls l t task (.finalize h)) :
    finalizers h w'.history = t :: finalizers h w.history := by
  cases l with
  | start u a =>
    obtain ⟨rfl, ht, p, hp, hc⟩ := hcalls
    obtain rfl : w.start u task = w' := by simpa [World.step, ht] using hs
    refine (finalizers_of_call hp hc).trans (congrArg _ ?_)
    exact finalizers_quiet (quiet_opening task u w.state) w.history
  | resume i =>
    obtain ⟨p, answer, hf, q, hq, hc⟩ := hcalls
    cases World.step_cases hs with
    | resume hf' _ =>
      cases hf.symm.trans hf'
      exact finalizers_of_call hq hc
  | act i => exact hcalls.elim
  | drift e => exact hcalls.elim

end Histories

variable {c : Connection} {E : Engine} {w w' : World (phases c) E} {o : ThreadId} {h : StmtHandle}
  {before : List ThreadId}

/-! ## The disposal is under way -/

/-- Whether a statement has had its turn in a disposal: `calls` are the calls in progress. -/
inductive Turn (o : ThreadId) (h : StmtHandle) (before : List ThreadId) (s : State)
    (calls : List EngineCall) (past : History) : Prop
  | waits (there : h ∈ s.registered) (not_now : .finalize h ∉ calls)
    (finalizers : finalizers h past = before)
  | had (there : h ∈ s.registered → .finalize h ∈ calls)
    (finalizers : finalizers h past = o :: before)

/-- A disposal of thread `o` is under way, or done, and nothing else. -/
structure Sole (o : ThreadId) (h : StmtHandle) (before : List ThreadId) (w : World (phases c) E) :
    Prop where
  disposed : w.state.disposed = true
  one : w.frames.length ≤ 1
  frames : ∀ f ∈ w.frames, f.thread = o ∧ f.point.kind = .disposes
  turn : Turn o h before w.state (w.frames.map Frame.call) w.history

theorem proceed_calls {m : Move} {task : Task} {own : Bool} (hw : w.frames = []) {q : Phase}
    (hq : m.next = .inl q) : (w.proceed o task own m).frames.map Frame.call = [q.call c] := by
  rw [w.proceed_pause o task own hq, hw]
  rfl

theorem sole_proceed {m : Move} {task : Task} {own : Bool} (hw : w.frames = [])
    (hd : m.state.disposed = true) (hk : ∀ q, m.next = .inl q → q.kind = .disposes)
    (hturn : Turn o h before m.state ((w.proceed o task own m).frames.map Frame.call)
      (w.proceed o task own m).history) : Sole o h before (w.proceed o task own m) := by
  have hstate := proceed_state w o task own m
  have hframes : (w.proceed o task own m).frames.length ≤ 1 ∧
      ∀ f ∈ (w.proceed o task own m).frames, f.thread = o ∧ f.point.kind = .disposes := by
    cases hn : m.next with
    | inl q =>
      rw [w.proceed_pause o task own hn, hw]
      refine ⟨Nat.le_refl 1, fun f hf => ?_⟩
      obtain rfl := List.mem_singleton.1 hf
      exact ⟨rfl, hk q hn⟩
    | inr out =>
      rw [w.proceed_end o task own hn, hw]
      exact ⟨Nat.zero_le 1, fun f hf => absurd hf List.not_mem_nil⟩
  exact ⟨hstate ▸ hd, hframes.1, hframes.2, hstate ▸ hturn⟩

theorem Turn.idle {s : State} {m : Move} {task : Task} {own : Bool}
    (hw : w.frames = []) (hs : m.state = s)
    (hq : ∀ q, m.next = .inl q → q.call c ≠ .finalize h)
    (hturn : Turn o h before s [] w.history) :
    Turn o h before m.state ((w.proceed o task own m).frames.map Frame.call)
      (w.proceed o task own m).history := by
  have hlist : finalizers h (w.proceed o task own m).history = finalizers h w.history :=
    finalizers_proceed hq
  rw [hs]
  cases hturn with
  | waits there _ hb =>
    refine .waits there (fun hm => ?_) (hlist.trans hb)
    cases hn : m.next with
    | inl q =>
      rw [proceed_calls hw hn] at hm
      exact hq q hn (List.mem_singleton.1 hm).symm
    | inr out =>
      rw [w.proceed_end o task own hn, hw] at hm
      cases hm
  | had gone hb => exact .had (fun there => absurd (gone there) List.not_mem_nil) (hlist.trans hb)

theorem DrainNext.turn {s : State} {db : DbHandle} {rounds : Nat} {m : Move} {task : Task}
    {own : Bool} (hnext : DrainNext s db rounds m) (hr : s.registered.length ≤ rounds)
    (hw : w.frames = [])
    (hturn : Turn o h before s [] w.history) :
    Turn o h before m.state ((w.proceed o task own m).frames.map Frame.call)
      (w.proceed o task own m).history := by
  cases hnext with
  | @takes k sql left _ there waits state =>
    by_cases hk : k = h
    · subst hk
      have hlist : finalizers k (w.proceed o task own m).history = o :: finalizers k w.history :=
        finalizers_of_call waits rfl
      rw [proceed_calls hw waits]
      cases hturn with
      | waits _ _ hb => exact .had (fun _ => List.mem_singleton.2 rfl) (hlist.trans (congrArg _ hb))
      | had gone _ => exact absurd (gone there) List.not_mem_nil
    · refine .idle hw state (fun q hq he => ?_) hturn
      cases waits.symm.trans hq
      exact hk (EngineCall.finalize.inj he)
  | closes done waits state =>
    have hempty : s.registered = [] := by
      rcases done with rfl | hempty
      · exact List.length_eq_zero_iff.1 (Nat.le_zero.1 hr)
      · exact hempty
    have hturn' : Turn o h before s.forgetAll [] w.history := by
      cases hturn with
      | waits there => simp [hempty] at there
      | had _ hb => exact .had (fun hm => absurd hm List.not_mem_nil) hb
    refine .idle hw state (fun q hq he => ?_) hturn'
    cases waits.symm.trans hq
    cases he

theorem sole_start (d : Drains w) (idle : w.frames = []) (undisposed : w.state.disposed = false)
    (owner : w.state.owner = some o) (there : h ∈ w.state.registered) :
    Sole o h (finalizers h w.history) (w.start o .dispose) := by
  have hopened : w.state.handle ≠ none := by
    intro hh
    simp [d.unstocked undisposed hh] at there
  have hstart : DisposeStart o w.state (phaseStart c o w.state .dispose) := dispose_start rfl
  refine sole_proceed (w := w.entered o .dispose) idle hstart.disposed
    (fun q hq => start_kind hq) ?_
  show Turn o h _ (phaseStart c o w.state .dispose).state _ _
  cases hstart with
  | again disposed => simp [undisposed] at disposed
  | unopened _ closed => exact absurd closed hopened
  | abandons _ _ alien => exact absurd owner alien
  | drains _ _ _ next =>
    have hregistered : w.state.retire.registered = w.state.registered := by
      simp [State.registered]
    exact next.turn (w := w.entered o .dispose) (hregistered ▸ Nat.le_refl _) idle
      (.waits (hregistered ▸ there) List.not_mem_nil
        (finalizers_quiet (quiet_opening .dispose o w.state) w.history))

/-- The action of which a call returns is the only one under way. -/
theorem Sole.only (g : Sole o h before w) {i : Nat} {f : Frame (phases c)}
    (hf : w.frames[i]? = some f) : w.frames = [f] ∧ w.frames.eraseIdx i = [] := by
  obtain ⟨hi, rfl⟩ := List.getElem?_eq_some_iff.1 hf
  obtain ⟨f, hw⟩ := List.length_eq_one_iff.1 (Nat.le_antisymm g.one (Nat.zero_lt_of_lt hi))
  obtain rfl : i = 0 := by
    have := g.one
    omega
  simp [hw]

theorem sole_resume (d : Drains w) (g : Sole o h before w) {i : Nat} {t : ThreadId} {task : Task}
    {p : Phase} {answer : (p.call c).Answer} (hf : w.frames[i]? = some ⟨t, task, p, some answer⟩) :
    Sole o h before
      ((w.returned i t (p.call c)).proceed t task true (p.resume c t answer w.state)) := by
  have hmem := List.mem_of_getElem? hf
  obtain ⟨ht, hk⟩ := g.frames _ hmem
  obtain rfl : t = o := ht
  have hk : p.kind = .disposes := hk
  obtain ⟨hone, hidle⟩ := g.only hf
  have hturn := g.turn
  rw [hone] at hturn
  have hdisposed : (p.resume c t answer w.state).state.disposed = true :=
    (resume_disposed p answer).trans g.disposed
  refine sole_proceed hidle hdisposed (fun q hq => (resume_kind hq).trans hk) ?_
  -- what the other calls of a disposal leave of a statement
  have hother : p.call c ≠ .finalize h →
      Turn t h before w.state [] (w.returned i t (p.call c)).history := by
    intro hp
    cases hturn with
    | waits there _ hb => exact .waits there List.not_mem_nil hb
    | had there hb =>
      exact .had (fun hreg => absurd (List.mem_singleton.1 (there hreg)).symm hp) hb
  cases p with
  | draining k sql rounds db =>
    have hpaced : (w.state.forget k sql).registered.length ≤ rounds := by
      rw [State.registered_forget]
      exact d.paced _ hmem
    refine ((drainChunk_next db rounds).after _).turn hpaced hidle ?_
    have hregistered : h ∈ (w.state.forget k sql).registered ↔ h ∈ w.state.registered ∧ h ≠ k := by
      rw [State.registered_forget]
      simp
    by_cases hkh : h = k
    · subst hkh
      cases hturn with
      | waits _ not_now _ => exact absurd (List.mem_singleton.2 rfl) not_now
      | had _ hb => exact .had (fun hm => absurd rfl (hregistered.1 hm).2) hb
    · cases hother fun he => hkh (EngineCall.finalize.inj he).symm with
      | waits there hnil hb => exact .waits (hregistered.2 ⟨there, hkh⟩) hnil hb
      | had gone hb => exact .had (fun hm => gone (hregistered.1 hm).1) hb
  | closing db =>
    have hrest : (Phase.resume c t (.closing db) answer w.state).state = w.state ∧
        ∀ q, (Phase.resume c t (.closing db) answer w.state).next = .inl q →
          q.call c ≠ .finalize h := by
      simp only [Phase.resume]
      split
      · refine ⟨rfl, fun q hq => ?_⟩
        cases hq
      · refine ⟨rfl, fun q hq he => ?_⟩
        cases hq
        cases he
    exact .idle hidle hrest.1 hrest.2 (hother (by simp [Phase.call]))
  | closeFailed db rc =>
    refine .idle hidle rfl (fun q hq => ?_) (hother (by simp [Phase.call]))
    cases hq
  | failing c' db rc operation about onward => cases onward <;> cases hk
  | _ => cases hk

/-- **Every step but a start keeps this up.** -/
theorem sole_step (d : Drains w) (g : Sole o h before w) {l : Label E} (hs : w.step l = some w')
    (hl : Unstarted w l w') : Sole o h before w' := by
  cases World.step_cases hs with
  | start _ => exact absurd rfl (hl _ _)
  | @act i t task p hf =>
    have hcalls : (w.acted i t task p).frames.map Frame.call = w.frames.map Frame.call := by
      obtain ⟨hi, hget⟩ := List.getElem?_eq_some_iff.1 hf
      have hi' : i < (w.frames.map Frame.call).length := by simpa using hi
      show (w.frames.set i _).map Frame.call = _
      rw [List.map_set]
      refine Eq.trans ?_ (List.set_getElem_self hi')
      rw [List.getElem_map, hget]
      rfl
    have hone : (w.acted i t task p).frames.length ≤ 1 :=
      Nat.le_trans (Nat.le_of_eq List.length_set) g.one
    refine ⟨g.disposed, hone, forall_acted hf g.frames id, ?_⟩
    rw [hcalls]
    cases g.turn with
    | waits there not_now hb => exact .waits there not_now ((finalizers_minting ..).trans hb)
    | had there hb => exact .had there ((finalizers_minting ..).trans hb)
  | resume hf hn => exact sole_resume d g hf
  | drift e => exact ⟨g.disposed, g.one, g.frames, g.turn⟩

/-! ## The disposal is done -/

/-- **A disposal of the owner that nothing overlaps finalizes each registered statement once.** -/
theorem sole_finalizes (d : Drains w) (idle : w.frames = []) (undisposed : w.state.disposed = false)
    (owner : w.state.owner = some o) (there : h ∈ w.state.registered)
    (later : (w.start o .dispose).Later Unstarted w') (done : w'.frames = []) :
    finalizers h w'.history = o :: finalizers h w.history := by
  have hstep : w.step (.start o .dispose) = some (w.start o .dispose) := rfl
  obtain ⟨d', g⟩ := later.keeps (fun v => Drains v ∧ Sole o h (finalizers h w.history) v)
    (fun _ _ _ hs hl ⟨d, g⟩ => ⟨d.step hs, sole_step d g hs hl⟩)
    ⟨d.step hstep, sole_start d idle undisposed owner there⟩
  have hempty : w'.state.registered = [] := by
    refine (d'.lasts g.disposed).resolve_right ?_
    rintro ⟨f, hf, -⟩
    simp [done] at hf
  cases g.turn with
  | waits there => simp [hempty] at there
  | had _ hb => exact hb

end ConfinedDb.Interleaving
