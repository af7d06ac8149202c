import ConfinedDb.Native.Engine
import ConfinedDb.Proofs.Solo.Course
/-!
# The native engine at work

A library is any state with an answer to each call, so that a law about all libraries holds whatever
is answered. The native engine on a library is an engine like any other: it answers a primitive by
running its routine, and it writes down what the routine asks of the library (`Library.engine`).
What a routine asks, and comes to, is computed along the routine (`Library.run`), and what a whole
operation asks of the library is what its primitives ask, one after the other
(**`carryOut_served`**).
-/
namespace ConfinedDb.Native

structure Exchange where
  call : LibraryCall
  answer : call.Answer

/-- The number of the parameter or the column that a call names. -/
def LibraryCall.index? : LibraryCall → Option Int32
  | bindNull _ i | bindInteger _ i _ | bindReal _ i _ | bindText _ i _ _ | bindBlob _ i _ _ => some i
  | columnType _ i | columnInteger _ i | columnReal _ i | columnText _ i => some i
  | columnBlob _ i | columnBytes _ i => some i
  | _ => none

/-- The column that a call is about: the statement and the number. -/
def LibraryCall.column? : LibraryCall → Option (StmtHandle × Int32)
  | columnType s i | columnInteger s i | columnReal s i | columnText s i => some (s, i)
  | columnBlob s i | columnBytes s i => some (s, i)
  | _ => none

theorem LibraryCall.index_of_column {call : LibraryCall} {stmt : StmtHandle} {index : Int32}
    (h : call.column? = some (stmt, index)) : call.index? = some index := by
  cases call <;> cases h <;> rfl

/-- A native library: what it answers in each of its states. -/
structure Library where
  State : Type
  answer : State → (call : LibraryCall) → call.Answer × State

/-- What a routine has come to. -/
structure Ran (σ α : Type) where
  result : α
  exchanges : List Exchange
  library : σ

namespace Library

variable (L : Library) {α β : Type}

def run : Routine α → L.State → Ran L.State α
  | .done a, l => ⟨a, [], l⟩
  | .ask (.library call) next, l =>
    let answered := L.answer l call
    let rest := run (next answered.1) answered.2
    ⟨rest.result, ⟨call, answered.1⟩ :: rest.exchanges, rest.library⟩
  | .ask (.report _) next, l => run (next ()) l

theorem run_bind (routine : Routine α) (next : α → Routine β) (l : L.State) :
    L.run (routine >>= next) l =
      let first := L.run routine l
      let rest := L.run (next first.result) first.library
      ⟨rest.result, first.exchanges ++ rest.exchanges, rest.library⟩ := by
  induction routine generalizing l with
  | done a => rfl
  | ask q rest ih =>
    cases q with
    | library call => simp only [Program.ask_bind, run, ih, List.cons_append]
    | report r => exact ih () l

theorem run_call (call : LibraryCall) (l : L.State) :
    L.run (Routine.call call) l =
      ⟨(L.answer l call).1, [⟨call, (L.answer l call).1⟩], (L.answer l call).2⟩ := rfl

/-- Whatever the routine asks, the exchange is as `p` says. -/
def Each (p : Exchange → Prop) (routine : Routine α) : Prop :=
  ∀ l, ∀ x ∈ (L.run routine l).exchanges, p x

namespace Each

variable {L} {p q : Exchange → Prop}

theorem done (a : α) : L.Each p (.done a) := fun _ _ => nofun

theorem call {c : LibraryCall} (h : ∀ answer, p ⟨c, answer⟩) : L.Each p (Routine.call c) := by
  intro l x hx
  cases List.mem_singleton.1 hx
  exact h _

theorem bind {routine : Routine α} {next : α → Routine β} (h : L.Each p routine)
    (hnext : ∀ a, L.Each p (next a)) : L.Each p (routine >>= next) := by
  intro l x hx
  rw [L.run_bind] at hx
  rcases List.mem_append.1 hx with hx | hx
  · exact h l x hx
  · exact hnext _ _ x hx

theorem mono {routine : Routine α} (h : L.Each p routine) (hpq : ∀ x, p x → q x) :
    L.Each q routine := fun l x hx => hpq x (h l x hx)

end Each

theorem readColumn_each (stmt : StmtHandle) (index : Int32) :
    L.Each (fun x => x.call.column? = some (stmt, index)) (readColumn stmt index) := by
  refine .bind (.call fun _ => rfl) fun type => ?_
  split_ifs
  · exact .done _
  · exact .bind (.call fun _ => rfl) fun _ => .done _
  · exact .bind (.call fun _ => rfl) fun _ => .done _
  · exact .bind (.call fun _ => rfl) fun _ => .bind (.call fun _ => rfl) fun _ => .done _
  · exact .bind (.call fun _ => rfl) fun _ => .bind (.call fun _ => rfl) fun _ => .done _
  · exact .done _

/-- Answers the questions of a routine, and writes the exchanges down, oldest first. -/
def serve : (q : Request) → StateM (L.State × List Exchange) q.Answer
  | .library call => fun (l, log) =>
    let (answer, l) := L.answer l call
    (answer, l, log ++ [⟨call, answer⟩])
  | .report _ => fun x => ((), x)

theorem run_serve (routine : Routine α) (l : L.State) (log : List Exchange) :
    (routine.run L.serve).run (l, log) =
      ((L.run routine l).result, (L.run routine l).library,
        log ++ (L.run routine l).exchanges) := by
  induction routine generalizing l log with
  | done a => exact congrArg (fun log => (a, l, log)) (List.append_nil log).symm
  | ask q rest ih =>
    cases q with
    | library call =>
      refine (ih _ (L.answer l call).2 (log ++ [⟨call, (L.answer l call).1⟩])).trans ?_
      rw [List.append_assoc]
      rfl
    | report r => exact ih () l log

/-- The native engine on the library, with what it has asked. -/
def engine : Interleaving.Engine where
  State := L.State × List Exchange
  answer e call := ((routine call).run L.serve).run e

theorem engine_answer (l : L.State) (log : List Exchange) (call : EngineCall) :
    L.engine.answer (l, log) call =
      ((L.run (routine call) l).result, (L.run (routine call) l).library,
        log ++ (L.run (routine call) l).exchanges) :=
  L.run_serve (routine call) l log

/-- For these primitives, one after the other, the library was asked this. -/
inductive Served : List Interleaving.Exchange → List Exchange → Prop
  | nil : Served [] []
  | cons {call : EngineCall} {answer : call.Answer} {xs : List Interleaving.Exchange}
    {log : List Exchange} (l : L.State) (answered : (L.run (routine call) l).result = answer)
    (rest : Served xs log) :
    Served (⟨call, answer⟩ :: xs) ((L.run (routine call) l).exchanges ++ log)

open Interleaving in
/-- **What an operation asks of the library is what its primitives ask.** -/
theorem carryOut_served {ω : Type} (operation : Operation ω) (l : L.State) (log : List Exchange)
    (past : List Interleaving.Exchange) (s : ConfinedDb.State) :
    ∃ (xs : List Interleaving.Exchange) (asked : List Exchange), L.Served xs asked ∧
      (carryOut L.engine.noting operation ((l, log), past) s).2.1.2 = past ++ xs ∧
      (carryOut L.engine.noting operation ((l, log), past) s).2.1.1.2 = log ++ asked := by
  induction operation generalizing l log past s with
  | done o => exact ⟨[], [], .nil, (List.append_nil _).symm, (List.append_nil _).symm⟩
  | ask q rest ih =>
    cases q with
    | engine call =>
      let ran := L.run (routine call) l
      obtain ⟨xs, asked, hserved, hpast, hlog⟩ := ih ran.result ran.library
        (log ++ ran.exchanges) (past ++ [⟨call, ran.result⟩]) s
      have hask : carryOut L.engine.noting (.ask (.engine call) rest) ((l, log), past) s
          = carryOut L.engine.noting (rest ran.result)
            ((ran.library, log ++ ran.exchanges), past ++ [⟨call, ran.result⟩]) s := by
        let answered := L.engine.answer (l, log) call
        show carryOut L.engine.noting (rest answered.1) (answered.2, past ++ [⟨call, answered.1⟩]) s
          = _
        rw [show answered = _ from L.engine_answer l log call]
      refine ⟨⟨call, ran.result⟩ :: xs, ran.exchanges ++ asked, .cons l rfl hserved, ?_, ?_⟩
      · rw [hask, hpast, List.append_assoc, List.singleton_append]
      · rw [hask, hlog, List.append_assoc]
    | locked update => exact ih s l log past (update s)
    | report notice => exact ih () l log past s

end Library

end ConfinedDb.Native
