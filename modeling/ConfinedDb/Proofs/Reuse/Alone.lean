import ConfinedDb.Proofs.Interleaving.Later
/-!
# Operations that nothing interrupts

An operation is carried out alone when the engine answers each of its calls at once and nobody else
touches the connection meanwhile (`carryOut`). This is one of the ways in which it can run
(**`carryOut_later`**). Its phases are then gone through one after the other (`Alone`), and both
come to the same end (**`carryOut_of_alone`**).
-/
namespace ConfinedDb.Interleaving

/-- Answers the questions of an operation that has the engine and the connection to itself. -/
def serve (E : Engine) : (q : Request) → StateM (E.State × State) q.Answer
  | .engine call => fun (e, s) => ((E.answer e call).1, (E.answer e call).2, s)
  | .locked update => fun (e, s) => (s, e, update s)
  | .report _ => fun x => ((), x)

/-- Carries out an operation from start to end. -/
def carryOut (E : Engine) {ω : Type} (operation : Operation ω) (e : E.State) (s : State) :
    ω × E.State × State :=
  (operation.run (serve E)).run (e, s)

section Carry

variable {E : Engine} {ω : Type}

theorem carryOut_advance (operation : Operation ω) (e : E.State) (s : State) :
    carryOut E operation e s =
      match (advance operation s).next with
      | .inl p => carryOut E (p.rest (E.answer e p.call).1) (E.answer e p.call).2
          (advance operation s).state
      | .inr o => (o, e, (advance operation s).state) := by
  induction operation generalizing s with
  | done o => rfl
  | ask q rest ih =>
    cases q with
    | engine call => rfl
    | locked update => exact ih s (update s)
    | report notice => exact ih () s

end Carry

/-! ## As a run -/

section Leads

variable {M : Machine} {E : Engine}

theorem proceed_after (w : World M E) (t : ThreadId) (task : Task) (own : Bool)
    (chunk : Chunk M.Point Outcome) (notice : Notice) :
    w.proceed t task own (chunk.after [notice])
      = { w with history := .reported notice :: w.history }.proceed t task own chunk := by
  simp [World.proceed, Chunk.after]

/-- Where an action ends that has come this far when nothing else is under way. -/
structure Ended (w : World M E) (task : Task) (result : Outcome × E.State × State)
    (w' : World M E) : Prop where
  engine : w'.engine = result.2.1
  state : w'.state = result.2.2
  statements : w'.statements = task.handBack w.lent result.1 w.statements
  lent : w'.lent = w.lent + task.lends result.1
  frames : w'.frames = []

/-- By induction on the operation: every call of it is acted on and returns before anything else
happens. -/
theorem carryOut_later {c : Connection} (operation : Operation Outcome)
    (w : World (programs c) E) (hw : w.frames = []) (t : ThreadId) (task : Task) (own : Bool)
    (s : State) :
    ∃ w', (w.proceed t task own (advance operation s)).Later Unstarted w' ∧
      Ended w task (carryOut E operation w.engine s) w' := by
  induction operation generalizing w own s with
  | done o => exact ⟨_, .refl, ⟨rfl, rfl, rfl, rfl, hw⟩⟩
  | ask q rest ih =>
    cases q with
    | engine call =>
      let p : (programs c).Point := ⟨call, rest⟩
      let v := w.proceed t task own ⟨[], s, .inl p⟩
      let answer := (E.answer w.engine call).1
      have hact : v.step (.act 0) = some (v.acted 0 t task p) := rfl
      have hframe : (v.acted 0 t task p).frames = ⟨t, task, p, some answer⟩ :: w.frames := rfl
      have hback : (v.acted 0 t task p).step (.resume 0)
          = some (((v.acted 0 t task p).returned 0 t call).proceed t task true
              (advance (rest answer) s)) := by
        simp only [World.step, World.resume, hframe]
        rfl
      obtain ⟨w', hlater, hend⟩ := ih answer ((v.acted 0 t task p).returned 0 t call) hw true s
      refine ⟨w', .head ⟨_, hact, unstarted_act 0⟩ (.head ⟨_, hback, unstarted_resume 0⟩ hlater), ?_⟩
      exact ⟨hend.engine, hend.state, hend.statements, hend.lent, hend.frames⟩
    | locked update => exact ih s w hw own (update s)
    | report notice =>
      obtain ⟨w', hlater, hend⟩ :=
        ih () { w with history := .reported notice :: w.history } hw own s
      have hafter := proceed_after (M := programs c) w t task own (advance (rest ()) s) notice
      exact ⟨w', (congrArg (World.Later Unstarted · w') hafter).mpr hlater, hend.engine, hend.state,
        hend.statements, hend.lent, hend.frames⟩

/-- **An action that nothing interrupts comes to its end.** -/
theorem alone_ends {c : Connection} {w : World (programs c) E} (hw : w.frames = []) (t : ThreadId)
    (task : Task) : ∃ w', (w.start t task).Later Unstarted w' ∧ w'.frames = [] := by
  obtain ⟨w', hlater, hend⟩ := carryOut_later (task.operation c t) (w.entered t task) hw t task
    (!w.state.disposed) w.state
  exact ⟨w', hlater, hend.frames⟩

end Leads

/-! ## Phase by phase -/

variable {c : Connection} {t : ThreadId} {E : Engine}

/-- How a stretch and what comes after it are gone through: with the outcome, the engine and the
state at the end. -/
inductive Alone (c : Connection) (t : ThreadId) (E : Engine) :
    E.State → Move → Outcome → E.State → State → Prop
  | ends {e : E.State} {m : Move} {o : Outcome} (ends : m.next = .inr o) :
    Alone c t E e m o e m.state
  | goes {e e' : E.State} {m : Move} {q : Phase} {o : Outcome} {s' : State}
    (waits : m.next = .inl q)
    (rest : Alone c t E (E.answer e (q.call c)).2
      (q.resume c t (E.answer e (q.call c)).1 m.state) o e' s') :
    Alone c t E e m o e' s'

theorem Alone.after {e e' : E.State} {m : Move} {o : Outcome} {s' : State}
    (h : Alone c t E e m o e' s') (notices : List Notice) :
    Alone c t E e (m.after notices) o e' s' := by
  cases h with
  | ends ends => exact .ends (m := m.after notices) ends
  | goes waits rest => exact .goes (m := m.after notices) waits rest

/-- An operation whose stretches are those of the phases ends as they do. -/
theorem Alone.carryOut {e e' : E.State} {m : Move} {o : Outcome} {s' : State}
    (h : Alone c t E e m o e' s') {operation : Operation Outcome} {s : State}
    (hm : advance operation s = m.paused c t) :
    Interleaving.carryOut E operation e s = (o, e', s') := by
  induction h generalizing operation s with
  | @ends e m o ends =>
    rw [carryOut_advance, hm]
    obtain ⟨notices, state, next⟩ := m
    cases ends
    rfl
  | @goes e e' m q o s' waits rest ih =>
    rw [carryOut_advance, hm]
    obtain ⟨notices, state, next⟩ := m
    cases waits
    exact ih (advance_rest c t q _ state)

/-- **An operation that nothing interrupts goes through its phases.** -/
theorem carryOut_of_alone {task : Task} {e e' : E.State} {s s' : State} {o : Outcome}
    (h : Alone c t E e (phaseStart c t s task) o e' s') :
    carryOut E (task.operation c t) e s = (o, e', s') :=
  h.carryOut (advance_operation c t task s)

end ConfinedDb.Interleaving
