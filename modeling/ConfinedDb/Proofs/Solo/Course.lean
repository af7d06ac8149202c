import ConfinedDb.Proofs.Reuse.Alone
/-!
# The course of an operation

What an operation that has the connection to itself asks of the engine, and what it is answered. An
engine may write its exchanges down (`Engine.noting`); the course of an operation is what such an
engine has written down from the start of the operation to its end, with the result and the state
there (`course`). The engine is any engine, so a law about all courses holds whatever is answered,
and since every operation has a course, it holds of operations that end.
-/
namespace ConfinedDb.Interleaving

structure Exchange where
  call : EngineCall
  answer : call.Answer

/-- The engine with a list of its exchanges, oldest first. -/
def Engine.noting (E : Engine) : Engine where
  State := E.State × List Exchange
  answer := fun (e, log) call =>
    let (answer, e) := E.answer e call
    (answer, e, log ++ [⟨call, answer⟩])

/-- How an operation went that had the connection to itself. -/
structure Course (ω : Type) where
  result : ω
  exchanges : List Exchange
  state : State

/-- Carries out an operation from start to end, beginning in these states. -/
def course (E : Engine) {ω : Type} (operation : Operation ω) (e : E.State) (s : State) : Course ω :=
  let final := carryOut E.noting operation (e, []) s
  ⟨final.1, final.2.1.2, final.2.2⟩

namespace Course

variable {ω : Type}

def calls (κ : Course ω) : List EngineCall := κ.exchanges.map Exchange.call

end Course

section Parts

variable {E : Engine} {ω ω' : Type}

theorem carryOut_bind (operation : Operation ω) (next : ω → Operation ω') (e : E.State)
    (s : State) :
    carryOut E (operation >>= next) e s =
      let (o, e', s') := carryOut E operation e s
      carryOut E (next o) e' s' := by
  induction operation generalizing e s with
  | done o => rfl
  | ask q rest ih =>
    cases q with
    | engine call => exact ih _ _ s
    | locked update => exact ih s e (update s)
    | report notice => exact ih () e s

theorem carryOut_map (f : ω → ω') (operation : Operation ω) (e : E.State) (s : State) :
    carryOut E (f <$> operation) e s =
      (f (carryOut E operation e s).1, (carryOut E operation e s).2) :=
  carryOut_bind operation (fun o => .done (f o)) e s

theorem carryOut_noting (operation : Operation ω) (e : E.State) (past : List Exchange) (s : State) :
    carryOut E operation e s =
      ((carryOut E.noting operation (e, past) s).1,
        (carryOut E.noting operation (e, past) s).2.1.1,
        (carryOut E.noting operation (e, past) s).2.2) := by
  induction operation generalizing e past s with
  | done o => rfl
  | ask q rest ih =>
    cases q with
    | engine call => exact ih _ _ _ s
    | locked update => exact ih s e past (update s)
    | report notice => exact ih () e past s

theorem course_map (f : ω → ω') (operation : Operation ω) (e : E.State) (s : State) :
    course E (f <$> operation) e s =
      ⟨f (course E operation e s).result, (course E operation e s).exchanges,
        (course E operation e s).state⟩ := by
  have h := carryOut_map (E := E.noting) f operation (e, []) s
  simp only [course, h]

end Parts

/-! ## Phase by phase -/

/-- What a stretch and all that comes after it ask the engine, and are answered, whatever has been
asked before: they end with this outcome, in this state. -/
def Asks (c : Connection) (t : ThreadId) (E : Engine) (e : E.State) (m : Move)
    (exchanges : List Exchange) (o : Outcome) (s' : State) : Prop :=
  ∀ past, ∃ e', Alone c t E.noting (e, past) m o (e', past ++ exchanges) s'

namespace Asks

variable {c : Connection} {t : ThreadId} {E : Engine} {e : E.State} {m : Move} {q : Phase}
  {o : Outcome} {s s' : State} {exchanges : List Exchange}

theorem ends (ends : m.next = .inr o) : Asks c t E e m [] o m.state := by
  intro past
  rw [List.append_nil]
  exact ⟨e, .ends ends⟩

theorem goes {answer : (q.call c).Answer} {e' : E.State} (waits : m.next = .inl q)
    (answered : E.answer e (q.call c) = (answer, e'))
    (rest : Asks c t E e' (q.resume c t answer m.state) exchanges o s') :
    Asks c t E e m (⟨q.call c, answer⟩ :: exchanges) o s' := by
  intro past
  obtain ⟨e'', h⟩ := rest (past ++ [⟨q.call c, answer⟩])
  have hnoted : E.noting.answer (e, past) (q.call c)
      = (answer, e', past ++ [⟨q.call c, answer⟩]) := by
    simp only [Engine.noting, answered]
  refine ⟨e'', .goes waits ?_⟩
  rw [hnoted]
  rwa [List.append_assoc] at h

theorem after (h : Asks c t E e m exchanges o s') (notices : List Notice) :
    Asks c t E e (m.after notices) exchanges o s' := by
  intro past
  obtain ⟨e', h⟩ := h past
  exact ⟨e', h.after notices⟩

/-- An action asks what its phases ask. -/
theorem carryOut {task : Task} (h : Asks c t E e (phaseStart c t s task) exchanges o s')
    (past : List Exchange) :
    ∃ e', Interleaving.carryOut E.noting (task.operation c t) (e, past) s
      = (o, (e', past ++ exchanges), s') := by
  obtain ⟨e', h⟩ := h past
  exact ⟨e', carryOut_of_alone h⟩

/-- **The course of an action is that of its phases.** -/
theorem course {task : Task} (h : Asks c t E e (phaseStart c t s task) exchanges o s') :
    course E (task.operation c t) e s = ⟨o, exchanges, s'⟩ := by
  obtain ⟨e', hc⟩ := h.carryOut []
  simp only [Interleaving.course, hc, List.nil_append]

end Asks

end ConfinedDb.Interleaving
