import ConfinedDb.Proofs.Interleaving.Beginning
import Mathlib.Data.List.InsertIdx
/-!
# Runs by phases are runs of the programs

A connection whose actions are carried out by phases is seen as one that runs the programs: every
pause is replaced by what is left of the action there, and everything else stays
(`World.realize`). Each step of the one is a step of the other (`step_realize`), so the two have
the same runs (**`run_programs_iff`**): what is proved of the histories that phases bring about
holds of those that the operations bring about.
-/
namespace ConfinedDb.Interleaving

variable {c : Connection} {E : Engine}

/-- An action under way, with what is left of its program. -/
def Frame.realize (f : Frame (phases c)) : Frame (programs c) :=
  ⟨f.thread, f.task, Phase.paused c f.thread f.point, f.answer⟩

def World.realize (w : World (phases c) E) : World (programs c) E :=
  { w with frames := w.frames.map Frame.realize }

@[simp] theorem Frame.realize_thread (f : Frame (phases c)) : f.realize.thread = f.thread := rfl

@[simp] theorem Frame.realize_task (f : Frame (phases c)) : f.realize.task = f.task := rfl

@[simp] theorem Frame.realize_call (f : Frame (phases c)) : f.realize.call = f.call := rfl

@[simp] theorem World.realize_state (w : World (phases c) E) : w.realize.state = w.state := rfl

@[simp] theorem World.realize_history (w : World (phases c) E) : w.realize.history = w.history :=
  rfl

@[simp] theorem World.realize_frames (w : World (phases c) E) :
    w.realize.frames = w.frames.map Frame.realize := rfl

theorem World.realize_task? (w : World (phases c) E) (a : Action) :
    w.realize.task? a = w.task? a := by
  cases a with
  | drop => simp [World.task?, World.realize]
  | use s u => simp [World.task?, World.realize, List.all_map, Function.comp_def, Frame.allows]
  | _ => rfl

theorem World.realize_proceed (w : World (phases c) E) (t : ThreadId) (task : Task) (own : Bool)
    (m : Move) :
    w.realize.proceed t task own (m.paused c t) = (w.proceed t task own m).realize := by
  obtain ⟨notices, state, next⟩ := m
  cases next <;> rfl

theorem World.realize_start (w : World (phases c) E) (t : ThreadId) (task : Task) :
    w.realize.start t task = (w.start t task).realize := by
  have h : (programs c).start t task w.state = Move.paused c t (phaseStart c t w.state task) :=
    advance_operation c t task w.state
  unfold World.start
  rw [World.realize_state, h]
  exact (w.entered t task).realize_proceed t task _ _

theorem World.realize_act (w : World (phases c) E) (i : Nat) :
    w.realize.act i = (w.act i).map World.realize := by
  unfold World.act
  rw [World.realize_frames, List.getElem?_map]
  rcases hf : w.frames[i]? with _ | ⟨t, task, p, _ | answer⟩
  · rfl
  · simp only [Option.map_some, Frame.realize]
    refine congrArg some ?_
    simp only [World.acted, World.realize, List.map_set]
    rfl
  · rfl

theorem World.realize_resume (w : World (phases c) E) (i : Nat) :
    w.realize.resume i = (w.resume i).map World.realize := by
  unfold World.resume
  rw [World.realize_frames, List.getElem?_map]
  rcases hf : w.frames[i]? with _ | ⟨t, task, p, _ | answer⟩
  · rfl
  · rfl
  · have hp : (programs c).resume t (Phase.paused c t p) answer w.state
        = Move.paused c t (p.resume c t answer w.state) := advance_rest c t p answer w.state
    have hw : w.realize.returned i t (p.call c) = (w.returned i t (p.call c)).realize := by
      simp [World.returned, World.realize, List.eraseIdx_map]
    simp only [Option.map_some, Frame.realize, World.realize_state]
    have hthreads : ((w.frames.map Frame.realize).take i).all (·.thread ≠ t)
        = (w.frames.take i).all (·.thread ≠ t) := by
      rw [← List.map_take, List.all_map]
      rfl
    rw [hthreads]
    split
    · refine congrArg some ?_
      rw [hp]
      exact (congrArg (World.proceed · t task true _) hw).trans
        ((w.returned i t (p.call c)).realize_proceed t task true _)
    · rfl

theorem step_realize (w : World (phases c) E) (l : Label E) :
    w.realize.step l = (w.step l).map World.realize := by
  cases l with
  | start t a =>
    simp only [World.step, World.realize_task?, Option.map_map]
    exact congrArg (fun f => Option.map f (w.task? a)) (funext (w.realize_start t))
  | act i => exact w.realize_act i
  | resume i => exact w.realize_resume i
  | drift e => rfl

theorem Move.paused_next (t : ThreadId) (m : Move) (call : EngineCall) :
    (∃ p, (m.paused c t).next = .inl p ∧ p.call = call) ↔
      ∃ q, m.next = .inl q ∧ q.call c = call := by
  obtain ⟨notices, state, next⟩ := m
  cases next with
  | inl q =>
    constructor
    · rintro ⟨_, h, rfl⟩
      cases h
      exact ⟨q, rfl, rfl⟩
    · rintro ⟨_, h, rfl⟩
      cases h
      exact ⟨_, rfl, rfl⟩
  | inr o =>
    constructor
    · rintro ⟨_, h, _⟩
      cases h
    · rintro ⟨_, h, _⟩
      cases h

theorem realize_calls (w : World (phases c) E) (l : Label E) (t : ThreadId) (task : Task)
    (call : EngineCall) : w.realize.Calls l t task call ↔ w.Calls l t task call := by
  cases l with
  | start t' a =>
    have hstart : (programs c).start t task w.state
        = Move.paused c t (phaseStart c t w.state task) := advance_operation c t task w.state
    simp only [World.Calls, World.realize_task?, World.realize_state, hstart]
    exact and_congr_right fun _ => and_congr_right fun _ => Move.paused_next t _ call
  | resume i =>
    have hrest : ∀ (p : Phase) (answer : (p.call c).Answer),
        (∃ q, ((programs c).resume t (Phase.paused c t p) answer w.state).next = .inl q ∧
          (programs c).call q = call) ↔
        ∃ q, (p.resume c t answer w.state).next = .inl q ∧ q.call c = call := by
      intro p answer
      exact (congrArg (fun m : Chunk (Paused Outcome) Outcome =>
        ∃ q, m.next = .inl q ∧ q.call = call) (advance_rest c t p answer w.state)).to_iff.trans
        (Move.paused_next t _ call)
    simp only [World.Calls, World.realize_frames, World.realize_state, List.getElem?_map,
      Option.map_eq_some_iff]
    constructor
    · rintro ⟨_, _, ⟨⟨t, task, p, _ | answer⟩, hf, he⟩, hnext⟩
      · cases he
      · cases he
        exact ⟨p, answer, hf, (hrest p answer).1 hnext⟩
    · rintro ⟨p, answer, hf, hnext⟩
      exact ⟨_, _, ⟨_, hf, rfl⟩, (hrest p answer).2 hnext⟩
  | act i => exact Iff.rfl
  | drift e => exact Iff.rfl

theorem Move.paused_end (t : ThreadId) (m : Move) (o : Outcome) :
    (m.paused c t).next = .inr o ↔ m.next = .inr o := by
  obtain ⟨notices, state, next⟩ := m
  cases next with
  | inl q => exact iff_of_false Sum.inl_ne_inr Sum.inl_ne_inr
  | inr o' =>
    exact ⟨fun h => congrArg Sum.inr (Sum.inr.inj h), fun h => congrArg Sum.inr (Sum.inr.inj h)⟩

theorem realize_ends (w : World (phases c) E) (l : Label E) (t : ThreadId) (task : Task)
    (o : Outcome) : w.realize.Ends l t task o ↔ w.Ends l t task o := by
  cases l with
  | start t' a =>
    have hstart : (programs c).start t task w.state
        = Move.paused c t (phaseStart c t w.state task) := advance_operation c t task w.state
    simp only [World.Ends, World.realize_task?, World.realize_state, hstart]
    exact and_congr_right fun _ => and_congr_right fun _ => Move.paused_end t _ o
  | resume i =>
    have hrest : ∀ (p : Phase) (answer : (p.call c).Answer),
        ((programs c).resume t (Phase.paused c t p) answer w.state).next = .inr o ↔
          (p.resume c t answer w.state).next = .inr o := by
      intro p answer
      exact (congrArg (fun m : Chunk (Paused Outcome) Outcome => m.next = .inr o)
        (advance_rest c t p answer w.state)).to_iff.trans (Move.paused_end t _ o)
    simp only [World.Ends, World.realize_frames, World.realize_state, List.getElem?_map,
      Option.map_eq_some_iff]
    constructor
    · rintro ⟨_, _, ⟨⟨t, task, p, _ | answer⟩, hf, he⟩, hnext⟩
      · cases he
      · cases he
        exact ⟨p, answer, hf, (hrest p answer).1 hnext⟩
    · rintro ⟨p, answer, hf, hnext⟩
      exact ⟨_, _, ⟨_, hf, rfl⟩, (hrest p answer).2 hnext⟩
  | act i => exact Iff.rfl
  | drift e => exact Iff.rfl

/-- **The programs have the runs that the phases have.** -/
theorem run_programs_iff {e : E.State}
    {ok : World (programs c) E → Label E → World (programs c) E → Prop}
    {ls : List (Label E)} {w : World (programs c) E} :
    Run (programs c) E e ok ls w ↔
      ∃ v : World (phases c) E, v.realize = w ∧
        Run (phases c) E e (fun v l v' => ok v.realize l v'.realize) ls v := by
  constructor
  · intro h
    induction h with
    | nil => exact ⟨.initial e, rfl, .nil⟩
    | snoc _ hs hok ih =>
      obtain ⟨v, rfl, hv⟩ := ih
      rw [step_realize, Option.map_eq_some_iff] at hs
      obtain ⟨v', hv', rfl⟩ := hs
      exact ⟨v', rfl, hv.snoc hv' hok⟩
  · rintro ⟨v, rfl, h⟩
    induction h with
    | nil => exact .nil
    | snoc _ hs hok ih => exact ih.snoc (by rw [step_realize, hs]; rfl) hok

theorem run_programs_congr {e : E.State}
    {ok : World (programs c) E → Label E → World (programs c) E → Prop}
    {ok' : World (phases c) E → Label E → World (phases c) E → Prop}
    (h : ∀ w l w', ok w.realize l w'.realize ↔ ok' w l w') {ls : List (Label E)}
    {w : World (programs c) E} :
    Run (programs c) E e ok ls w ↔
      ∃ v : World (phases c) E, v.realize = w ∧ Run (phases c) E e ok' ls v := by
  have hok : (fun v l v' => ok v.realize l v'.realize) = ok' :=
    funext fun w => funext fun l => funext fun w' => propext (h w l w')
  rw [run_programs_iff, hok]

end ConfinedDb.Interleaving
