import ConfinedDb.Connection.Disposal
import ConfinedDb.Connection.Opening
import ConfinedDb.Connection.Preparing
import ConfinedDb.Proofs.Interleaving.Chunk
import ConfinedDb.RecordingEngine
/-!
# Runs of a connection

One connection, used by any threads. A thread starts an action, which goes on to its first native
call; while that call is in progress the same thread or any other may start further actions. The
engine acts on a call at some moment while it is in progress; after that the call may return, and
the action goes on to its next call or to its end. So a step of a run (`Label`) is one of

* `start t a`: thread `t` starts action `a`;
* `act i`: the engine acts on the call of the `i`-th action under way, newest first;
* `resume i`: that call returns. A thread returns from its calls in the reverse order: an action
  cannot go on while a newer one of the same thread is under way;
* `drift e`: the engine comes into another state without a call of this connection, as when it is
  shared with other connections or told to fail.

What the types of a statement's users guarantee is a condition of `start`: a released statement is
gone, a statement is not used by two actions at a time unless both only read it, and a connection is
not dropped while it or a statement of it is in use.

An engine is any state with any answers. `recording` is the engine without a database behind it.
Every step is written down (`Event`), newest first, and what the theorems speak of is read off from
these histories: the statement handles that are live, those that are spent, the thread that opened
the database.

`World` does not say how an action is carried out: that is a `Machine`, and the one that the rest is
about is `programs`, which runs the operations of a connection as the programs they are.
-/
namespace ConfinedDb.Interleaving

/-! ## Actions -/

/-- What a lent statement is used for. -/
inductive Use where
  | bind (index : Nat) (value : Value)
  | step
  | columnCount
  | column (index : Nat)
  | reset (clearBindings : Bool)
  | release
deriving DecidableEq, Repr

/-- Whether the use only reads the statement; such uses may overlap. -/
def Use.shared : Use → Bool
  | .columnCount | .column _ => true
  | _ => false

/-- What a thread asks of a connection. A statement goes by the number under which it was lent. -/
inductive Action where
  | open (mode : OpenMode)
  | exec (sql : String)
  | prepare (sql : String) (lending : Lending)
  | dispose
  | drop
  | use (s : Nat) (u : Use)
deriving DecidableEq, Repr

/-- An action with the statement it is about. -/
inductive Task where
  | open (mode : OpenMode)
  | exec (sql : String)
  | prepare (sql : String) (lending : Lending)
  | dispose
  | drop
  | use (s : Nat) (statement : Statement) (u : Use)
deriving DecidableEq, Repr

inductive Reply where
  | done
  | flag (b : Bool)
  | count (n : Nat)
  | value (v : Value)

/-- What an action ends with: its result, and the statement that was prepared or used. -/
structure Outcome where
  result : Except Error Reply
  statement : Option Statement

namespace Outcome

def finished : Outcome := ⟨.ok .done, none⟩

def ofResult (result : Except Error Unit) : Outcome := ⟨result.map fun _ => .done, none⟩

def ofPrepared : Except Error Statement → Outcome
  | .ok st => ⟨.ok .done, some st⟩
  | .error e => ⟨.error e, none⟩

/-- A statement keeps what a use has changed, also when the use fails. -/
def ofUse {α : Type} (reply : α → Reply) (used : Except Error α × Statement) : Outcome :=
  ⟨used.1.map reply, some used.2⟩

end Outcome

def Use.operation (t : ThreadId) (st : Statement) : Use → Operation Outcome
  | .bind index value =>
    Outcome.ofUse (fun _ => .done) <$> (Statement.bind t index value).run.run st
  | .step => Outcome.ofUse .flag <$> (Statement.step t).run.run st
  | .columnCount => Outcome.ofUse .count <$> (Statement.columnCount t).run.run st
  | .column index => Outcome.ofUse .value <$> (Statement.column t index).run.run st
  | .reset clear => Outcome.ofUse (fun _ => .done) <$> (Statement.reset t clear).run.run st
  | .release => (fun _ => Outcome.finished) <$> st.release t

def Task.operation (c : Connection) (t : ThreadId) : Task → Operation Outcome
  | .open mode => Outcome.ofResult <$> (c.openAs t mode).run
  | .exec sql => Outcome.ofResult <$> (c.exec t sql).run
  | .prepare sql lending => Outcome.ofPrepared <$> (c.prepare t sql lending).run
  | .dispose => (fun _ => Outcome.finished) <$> Connection.dispose t
  | .drop => (fun _ => Outcome.finished) <$> Connection.drop t
  | .use _ st u => u.operation t st

/-! ## Machines and engines -/

/-- A way to carry out actions: where an action can pause, for which call, and how it starts and
goes on. -/
structure Machine where
  Point : Type
  call : Point → EngineCall
  start : ThreadId → Task → State → Chunk Point Outcome
  resume : ThreadId → (p : Point) → (call p).Answer → State → Chunk Point Outcome

/-- The operations of a connection, run as the programs they are. -/
def programs (c : Connection) : Machine where
  Point := Paused Outcome
  call := Paused.call
  start t task s := advance (task.operation c t) s
  resume _ paused answer s := advance (paused.rest answer) s

/-- An engine: what it answers in each of its states. -/
structure Engine where
  State : Type
  answer : State → (call : EngineCall) → call.Answer × State

def recording : Engine := ⟨RecordingEngine, RecordingEngine.answer⟩

/-! ## Histories -/

/-- What is written down of a run. -/
inductive Event where
  /-- A native call has started. -/
  | called (t : ThreadId) (call : EngineCall)
  /-- The engine has opened a database. -/
  | opened (db : DbHandle)
  /-- The engine has compiled a statement. -/
  | minted (db : DbHandle) (h : StmtHandle)
  /-- A native call has returned. -/
  | returned (t : ThreadId) (call : EngineCall)
  /-- An open has succeeded and stored its database. -/
  | installed (t : ThreadId) (db : DbHandle)
  /-- A disposal has taken effect, with these statements registered. -/
  | retired (t : ThreadId) (hs : List StmtHandle)
  /-- The disposal that took effect has returned. -/
  | disposed
  /-- A statement was released on a thread that does not own the connection. -/
  | leaked (h : StmtHandle)
  | reported (notice : Notice)
deriving DecidableEq

/-- What happened, newest first. -/
abbrev History := List Event

namespace History

/-- The handles that were minted and of which no finalization has returned since. -/
def live : History → List StmtHandle
  | [] => []
  | .minted _ h :: past => h :: live past
  | .returned _ (.finalize h) :: past => (live past).filter (· ≠ h)
  | _ :: past => live past

/-- The databases that the engine has opened for the connection. -/
def databases : History → List DbHandle
  | [] => []
  | .opened db :: past => db :: databases past
  | _ :: past => databases past

/-- The handles that were registered when a disposal took effect, if they were not minted again. -/
def retired : History → List StmtHandle
  | [] => []
  | .retired _ hs :: past => hs ++ retired past
  | .minted _ h :: past => (retired past).filter (· ≠ h)
  | _ :: past => retired past

/-- The handles that are not to be used any more, until they are minted again: a finalization of
them has started, or the disposal that had them registered has returned. -/
def spent : History → List StmtHandle
  | [] => []
  | .called _ (.finalize h) :: past => h :: spent past
  | .disposed :: past => retired past ++ spent past
  | .minted _ h :: past => (spent past).filter (· ≠ h)
  | _ :: past => spent past

/-- The handles that were released on a thread that does not own the connection. -/
def leaked : History → List StmtHandle
  | [] => []
  | .leaked h :: past => h :: leaked past
  | _ :: past => leaked past

end History

/-- What the engine's answer to a call brings about. -/
def minting : (call : EngineCall) → call.Answer → History
  | .open .., (some db, _) => [.opened db]
  | .prepare db _, (some h, _) => [.minted db h]
  | _, _ => []

/-- The handle that comes with the answer to a preparation. -/
def arriving : (call : EngineCall) → call.Answer → List StmtHandle
  | .prepare .., (some h, _) => [h]
  | _, _ => []

/-! ## Worlds -/

variable {M : Machine} {E : Engine}

/-- An action under way: it waits for a native call, which the engine may have acted on already. -/
structure Frame (M : Machine) where
  thread : ThreadId
  task : Task
  point : M.Point
  answer : Option (M.call point).Answer

def Frame.call (f : Frame M) : EngineCall := M.call f.point

/-- The statement that the engine has compiled for an action and not yet handed over. -/
def Frame.pending (f : Frame M) : List StmtHandle :=
  match f.answer with
  | some answer => arriving f.call answer
  | none => []

/-- Whether an action under way leaves a statement free for a use. -/
def Frame.allows (f : Frame M) (s : Nat) (u : Use) : Bool :=
  match f.task with
  | .use k _ v => k ≠ s || (u.shared && v.shared)
  | _ => true

/-- A connection, its engine and its users. -/
structure World (M : Machine) (E : Engine) where
  engine : E.State
  state : State
  /-- The statements in the hands of users. -/
  statements : Table Nat Statement
  /-- How many statements have been lent. -/
  lent : Nat
  /-- The actions under way, newest first. -/
  frames : List (Frame M)
  history : History

/-- One step of a run. -/
inductive Label (E : Engine) where
  | start (t : ThreadId) (a : Action)
  | act (i : Nat)
  | resume (i : Nat)
  | drift (e : E.State)

/-- Whether a thread is kept out by the confinement. -/
def bars (s : State) (t : ThreadId) : Bool :=
  match s.owner with
  | some owner => t ≠ owner
  | none => false

namespace Task

def isOpen : Task → Bool
  | .open _ => true
  | _ => false

def isRelease : Task → Bool
  | .use _ _ .release => true
  | _ => false

def isDisposal : Task → Bool
  | .dispose | .drop => true
  | _ => false

/-- What the start of an action brings about: a disposal takes effect unless there was one, and a
release on a thread that is kept out leaks the handle. -/
def opening (t : ThreadId) (s : State) : Task → History
  | .dispose | .drop => if s.disposed then [] else [.retired t s.statements.table.keys]
  | .use _ st .release => if bars s t then [.leaked st.handle] else []
  | _ => []

/-- The statements in the hands of users once an action has started: a released one is gone. -/
def takeOver (statements : Table Nat Statement) : Task → Table Nat Statement
  | .use s _ .release => statements.erase s
  | _ => statements

/-- What the end of an action brings about. `own`: if it is a disposal, it is the one that took
effect. -/
def closing (t : ThreadId) (own : Bool) (s : State) (o : Outcome) : Task → History
  | .open _ =>
    match o.result, s.handle with
    | .ok _, some db => [.installed t db]
    | _, _ => []
  | .dispose | .drop => if own then [.disposed] else []
  | _ => []

/-- The statements in the hands of users once an action has ended: a prepared one gets the next
number, and one that was used comes back as the use has left it. -/
def handBack (lent : Nat) (o : Outcome) (statements : Table Nat Statement) :
    Task → Table Nat Statement
  | .prepare .. => o.statement.elim statements (statements.insert lent)
  | .use s .. => o.statement.elim statements (statements.insert s)
  | _ => statements

/-- How many statements an action has lent. -/
def lends (o : Outcome) : Task → Nat
  | .prepare .. => if o.statement.isSome then 1 else 0
  | _ => 0

end Task

namespace World

def initial (e : E.State) : World M E := ⟨e, .initial, ∅, 0, [], []⟩

/-- The action as a task, if it may start. -/
def task? (w : World M E) : Action → Option Task
  | .open mode => some (.open mode)
  | .exec sql => some (.exec sql)
  | .prepare sql lending => some (.prepare sql lending)
  | .dispose => some .dispose
  | .drop => if w.frames.isEmpty && w.statements.isEmpty then some .drop else none
  | .use s u =>
    match w.statements.get? s with
    | some st => if w.frames.all (·.allows s u) then some (.use s st u) else none
    | none => none

/-- Takes a stretch of an action over: the action pauses at its next call, or ends. -/
def proceed (w : World M E) (t : ThreadId) (task : Task) (own : Bool)
    (chunk : Chunk M.Point Outcome) : World M E :=
  let history := (chunk.notices.map Event.reported).reverse ++ w.history
  match chunk.next with
  | .inl p =>
    { w with
      state := chunk.state
      frames := ⟨t, task, p, none⟩ :: w.frames
      history := .called t (M.call p) :: history }
  | .inr o =>
    { w with
      state := chunk.state
      statements := task.handBack w.lent o w.statements
      lent := w.lent + task.lends o
      history := task.closing t own chunk.state o ++ history }

theorem proceed_pause (w : World M E) (t : ThreadId) (task : Task) (own : Bool)
    {chunk : Chunk M.Point Outcome} {p : M.Point} (h : chunk.next = .inl p) :
    w.proceed t task own chunk
      = { w with
          state := chunk.state
          frames := ⟨t, task, p, none⟩ :: w.frames
          history := .called t (M.call p)
            :: ((chunk.notices.map Event.reported).reverse ++ w.history) } := by
  unfold proceed
  rw [h]

theorem proceed_end (w : World M E) (t : ThreadId) (task : Task) (own : Bool)
    {chunk : Chunk M.Point Outcome} {o : Outcome} (h : chunk.next = .inr o) :
    w.proceed t task own chunk
      = { w with
          state := chunk.state
          statements := task.handBack w.lent o w.statements
          lent := w.lent + task.lends o
          history := task.closing t own chunk.state o
            ++ ((chunk.notices.map Event.reported).reverse ++ w.history) } := by
  unfold proceed
  rw [h]

/-- The world once a task has been taken over, before its first stretch. -/
def entered (w : World M E) (t : ThreadId) (task : Task) : World M E :=
  { w with
    statements := task.takeOver w.statements
    history := task.opening t w.state ++ w.history }

def start (w : World M E) (t : ThreadId) (task : Task) : World M E :=
  (w.entered t task).proceed t task (!w.state.disposed) (M.start t task w.state)

/-- The world once the engine has acted on the call of the `i`-th action. -/
def acted (w : World M E) (i : Nat) (t : ThreadId) (task : Task) (p : M.Point) : World M E :=
  let answered := E.answer w.engine (M.call p)
  { w with
    engine := answered.2
    frames := w.frames.set i ⟨t, task, p, some answered.1⟩
    history := minting (M.call p) answered.1 ++ w.history }

def act (w : World M E) (i : Nat) : Option (World M E) :=
  match w.frames[i]? with
  | some ⟨t, task, p, none⟩ => some (w.acted i t task p)
  | _ => none

/-- The world once a call of the `i`-th action has returned, before the action goes on. -/
def returned (w : World M E) (i : Nat) (t : ThreadId) (call : EngineCall) : World M E :=
  { w with
    frames := w.frames.eraseIdx i
    history := .returned t call :: w.history }

/-- Has a call return, unless a newer action of the same thread is under way. -/
def resume (w : World M E) (i : Nat) : Option (World M E) :=
  match w.frames[i]? with
  | some ⟨t, task, p, some answer⟩ =>
    if (w.frames.take i).all (·.thread ≠ t) then
      some <| (w.returned i t (M.call p)).proceed t task true (M.resume t p answer w.state)
    else none
  | _ => none

def step (w : World M E) : Label E → Option (World M E)
  | .start t a => (w.task? a).map (w.start t)
  | .act i => w.act i
  | .resume i => w.resume i
  | .drift e => some { w with engine := e }

/-- In this step a thread starts a call for a task. -/
def Calls (w : World M E) (l : Label E) (t : ThreadId) (task : Task) (call : EngineCall) : Prop :=
  match l with
  | .start t' a =>
    t' = t ∧ w.task? a = some task ∧ ∃ p, (M.start t task w.state).next = .inl p ∧ M.call p = call
  | .resume i =>
    ∃ p answer, w.frames[i]? = some ⟨t, task, p, some answer⟩ ∧
      ∃ q, (M.resume t p answer w.state).next = .inl q ∧ M.call q = call
  | _ => False

/-- In this step a task that a thread carries out ends. -/
def Ends (w : World M E) (l : Label E) (t : ThreadId) (task : Task) (o : Outcome) : Prop :=
  match l with
  | .start t' a => t' = t ∧ w.task? a = some task ∧ (M.start t task w.state).next = .inr o
  | .resume i =>
    ∃ p answer, w.frames[i]? = some ⟨t, task, p, some answer⟩ ∧
      (M.resume t p answer w.state).next = .inr o
  | _ => False

/-- An action of the kind that `p` picks is finalizing the statement. -/
def Finalizes (w : World M E) (p : Task → Bool) (h : StmtHandle) : Prop :=
  ∃ f ∈ w.frames, p f.task = true ∧ f.call = .finalize h

inductive Step (w : World M E) : Label E → World M E → Prop
  | start {t : ThreadId} {a : Action} {task : Task} (task?_eq : w.task? a = some task) :
    Step w (.start t a) (w.start t task)
  | act {i : Nat} {t : ThreadId} {task : Task} {p : M.Point}
    (frame : w.frames[i]? = some ⟨t, task, p, none⟩) : Step w (.act i) (w.acted i t task p)
  | resume {i : Nat} {t : ThreadId} {task : Task} {p : M.Point} {answer : (M.call p).Answer}
    (frame : w.frames[i]? = some ⟨t, task, p, some answer⟩)
    (newest : (w.frames.take i).all (·.thread ≠ t)) :
    Step w (.resume i)
      ((w.returned i t (M.call p)).proceed t task true (M.resume t p answer w.state))
  | drift (e : E.State) : Step w (.drift e) { w with engine := e }

theorem step_cases {w w' : World M E} {l : Label E} (h : w.step l = some w') : w.Step l w' := by
  cases l with
  | start t a =>
    obtain ⟨task, htask, rfl⟩ := Option.map_eq_some_iff.1 h
    exact .start htask
  | act i =>
    simp only [step, act] at h
    split at h
    · next t task p hf =>
      cases h
      exact .act hf
    · cases h
  | resume i =>
    simp only [step, resume] at h
    split at h
    · next t task p answer hf =>
      split at h
      · next hn =>
        cases h
        exact .resume hf hn
      · cases h
    · cases h
  | drift e =>
    cases h
    exact .drift e

end World

section Frames

variable {w : World M E} {i : Nat} {t : ThreadId} {task : Task} {own : Bool} {p : M.Point}
  {chunk : Chunk M.Point Outcome}

theorem proceed_state (w : World M E) (t : ThreadId) (task : Task) (own : Bool)
    (chunk : Chunk M.Point Outcome) : (w.proceed t task own chunk).state = chunk.state := by
  cases hn : chunk.next with
  | inl p => rw [w.proceed_pause t task own hn]
  | inr o => rw [w.proceed_end t task own hn]

theorem proceed_engine : (w.proceed t task own chunk).engine = w.engine := by
  cases hn : chunk.next with
  | inl p => rw [w.proceed_pause t task own hn]
  | inr o => rw [w.proceed_end t task own hn]

/-- After a stretch the other actions are under way, and this one if it pauses. -/
theorem mem_proceed {f : Frame M} : f ∈ (w.proceed t task own chunk).frames ↔
    f ∈ w.frames ∨ ∃ p, chunk.next = .inl p ∧ f = ⟨t, task, p, none⟩ := by
  cases hn : chunk.next with
  | inl p =>
    rw [w.proceed_pause t task own hn]
    simp [or_comm]
  | inr o =>
    rw [w.proceed_end t task own hn]
    simp

theorem forall_proceed {prop : Frame M → Prop} (h : ∀ f ∈ w.frames, prop f)
    (hnext : ∀ p, chunk.next = .inl p → prop ⟨t, task, p, none⟩) :
    ∀ f ∈ (w.proceed t task own chunk).frames, prop f := by
  intro f hm
  rcases mem_proceed.1 hm with hm | ⟨p, hn, rfl⟩
  · exact h f hm
  · exact hnext p hn

theorem mem_acted (hf : w.frames[i]? = some ⟨t, task, p, none⟩) {f : Frame M}
    (hm : f ∈ w.frames) : f = ⟨t, task, p, none⟩ ∨ f ∈ (w.acted i t task p).frames := by
  obtain ⟨j, hj⟩ := List.mem_iff_getElem?.1 hm
  by_cases hij : i = j
  · subst hij
    exact .inl (Option.some.inj (hj.symm.trans hf))
  · refine .inr (List.mem_iff_getElem?.2 ⟨j, ?_⟩)
    exact (List.getElem?_set_ne hij).trans hj

theorem acted_mem (hf : w.frames[i]? = some ⟨t, task, p, none⟩) :
    ⟨t, task, p, some (E.answer w.engine (M.call p)).1⟩ ∈ (w.acted i t task p).frames :=
  List.mem_set (List.getElem?_eq_some_iff.1 hf).1 _

theorem forall_acted {prop : Frame M → Prop} (hf : w.frames[i]? = some ⟨t, task, p, none⟩)
    (h : ∀ f ∈ w.frames, prop f)
    (hnext : prop ⟨t, task, p, none⟩ →
      prop ⟨t, task, p, some (E.answer w.engine (M.call p)).1⟩) :
    ∀ f ∈ (w.acted i t task p).frames, prop f := by
  intro f hm
  rcases List.mem_or_eq_of_mem_set hm with hm | rfl
  · exact h f hm
  · exact hnext (h _ (List.mem_of_getElem? hf))

theorem mem_returned {answer : (M.call p).Answer}
    (hf : w.frames[i]? = some ⟨t, task, p, some answer⟩) {f : Frame M} (hm : f ∈ w.frames) :
    f = ⟨t, task, p, some answer⟩ ∨ f ∈ w.frames.eraseIdx i := by
  obtain ⟨j, hj⟩ := List.mem_iff_getElem?.1 hm
  by_cases hij : j = i
  · subst hij
    exact .inl (Option.some.inj (hj.symm.trans hf))
  · exact .inr (List.mem_eraseIdx_iff_getElem?.2 ⟨j, hij, hj⟩)

end Frames

/-- The runs from a connection that was never opened, whose steps are all as `ok` says. -/
inductive Run (M : Machine) (E : Engine) (e : E.State)
    (ok : World M E → Label E → World M E → Prop) : List (Label E) → World M E → Prop
  | nil : Run M E e ok [] (.initial e)
  | snoc {ls : List (Label E)} {w w' : World M E} {l : Label E} :
    Run M E e ok ls w → w.step l = some w' → ok w l w' → Run M E e ok (ls ++ [l]) w'

theorem run_mono {e : E.State} {ok ok' : World M E → Label E → World M E → Prop}
    (h : ∀ w l w', ok w l w' → ok' w l w') {ls : List (Label E)} {w : World M E}
    (run : Run M E e ok ls w) : Run M E e ok' ls w := by
  induction run with
  | nil => exact .nil
  | snoc _ hs hok ih => exact ih.snoc hs (h _ _ _ hok)

/-- In this step the engine mints no statement handle that is live. -/
def MintsFresh (w : World M E) (_ : Label E) (w' : World M E) : Prop :=
  ∀ db h, w'.history = .minted db h :: w.history → h ∉ History.live w.history

instance (w : World M E) (l : Label E) (w' : World M E) : Decidable (MintsFresh w l w') :=
  match hw : w'.history with
  | .minted db h :: past =>
    decidable_of_iff (h ∈ History.live w.history → past ≠ w.history) (by
      simp only [MintsFresh, hw, List.cons.injEq, Event.minted.injEq]
      constructor
      · rintro hnew db' h' ⟨⟨-, rfl⟩, hpast⟩ hl
        exact hnew hl hpast
      · intro hnew hl hpast
        exact hnew db h ⟨⟨rfl, rfl⟩, hpast⟩ hl)
  | [] | .called .. :: _ | .opened _ :: _ | .returned .. :: _ | .installed .. :: _
  | .retired .. :: _ | .disposed :: _ | .leaked _ :: _ | .reported _ :: _ =>
    .isTrue (by simp [MintsFresh, hw])

def AnyStep (_ : World M E) (_ : Label E) (_ : World M E) : Prop := True

instance (w : World M E) (l : Label E) (w' : World M E) : Decidable (AnyStep w l w') :=
  .isTrue trivial

/-! ### Conditions on the label -/

instance {prop : ThreadId → Action → Prop} [∀ t a, Decidable (prop t a)] :
    (l : Label E) → Decidable (∀ t a, l = .start t a → prop t a)
  | .start t a => decidable_of_iff (prop t a) (by simp)
  | .act _ | .resume _ | .drift _ => .isTrue (by simp)

instance {prop : Nat → Prop} [∀ i, Decidable (prop i)] :
    (l : Label E) → Decidable (∀ i, l = .act i → prop i)
  | .act i => decidable_of_iff (prop i) (by simp)
  | .start .. | .resume _ | .drift _ => .isTrue (by simp)

instance {prop : E.State → Prop} [∀ e, Decidable (prop e)] :
    (l : Label E) → Decidable (∀ e, l = .drift e → prop e)
  | .drift e => decidable_of_iff (prop e) (by simp)
  | .start .. | .act _ | .resume _ => .isTrue (by simp)

/-! ## Given steps -/

section Given

variable {e : E.State} (ok : World M E → Label E → World M E → Prop)
  [∀ w l w', Decidable (ok w l w')]

/-- Takes the steps of a list one after the other, if each is possible and as `ok` says. -/
def World.follow (w : World M E) : List (Label E) → Option (World M E)
  | [] => some w
  | l :: ls =>
    match w.step l with
    | some w' => if ok w l w' then w'.follow ls else none
    | none => none

variable {ok}

theorem run_follow {ls ls' : List (Label E)} {w w' : World M E} (run : Run M E e ok ls w)
    (h : w.follow ok ls' = some w') : Run M E e ok (ls ++ ls') w' := by
  induction ls' generalizing ls w with
  | nil =>
    cases h
    simpa using run
  | cons l ls' ih =>
    simp only [World.follow] at h
    split at h
    · next v hv =>
      split at h
      · next hok =>
        rw [List.append_cons]
        exact ih (run.snoc hv hok) h
      · cases h
    · cases h

variable (ok) in
/-- A run that can be computed, with what can be computed of where it ends. -/
theorem exists_run (ls : List (Label E)) (p : World M E → Bool)
    (h : ((World.initial e : World M E).follow ok ls).any p = true) :
    ∃ w, Run M E e ok ls w ∧ p w = true := by
  obtain ⟨w, hw, hp⟩ := (Option.any_eq_true p _).1 h
  exact ⟨w, run_follow .nil hw, hp⟩

end Given

/-- The second world is the first or comes after it. -/
def World.Leads (w w' : World M E) : Prop := ∃ ls, w.follow AnyStep ls = some w'

/-- What every step keeps holds of all that comes after. -/
theorem World.Leads.keeps {prop : World M E → Prop}
    (hstep : ∀ w l w', w.step l = some w' → prop w → prop w') {w w' : World M E}
    (h : w.Leads w') (hw : prop w) : prop w' := by
  obtain ⟨ls, h⟩ := h
  induction ls generalizing w with
  | nil =>
    cases h
    exact hw
  | cons l ls ih =>
    simp only [World.follow] at h
    split at h
    · next v hv => exact ih (hstep w l v hv hw) (by simpa [AnyStep] using h)
    · cases h

theorem run_leads {e : E.State} {ls : List (Label E)} {w w' : World M E}
    (run : Run M E e AnyStep ls w) (h : w.Leads w') : ∃ ls', Run M E e AnyStep ls' w' := by
  obtain ⟨ls', h⟩ := h
  exact ⟨ls ++ ls', run_follow run h⟩

def inMemory : Connection := ⟨1, none, ⟨[]⟩⟩

end ConfinedDb.Interleaving
