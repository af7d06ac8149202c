import ConfinedDb.Proofs.Interleaving.Phase
/-!
# What an action under way is about

The phase in which an action pauses goes with the task that it carries out: an open pauses in
phases of an open, a release in phases of a release of the same statement, and so on. `Kind` is
what the two have in common, and `resume_of` and `start_of` say that a stretch never leaves its
kind and that an action that ends hands back what its kind says.
-/
namespace ConfinedDb

/-- A statement as the registry has it. -/
abbrev Entry := StmtHandle × String

def Statement.entry (st : Statement) : Entry := (st.handle, st.sql)

namespace Interleaving

/-- What an action is about. -/
inductive Kind where
  | opens
  | runs
  | prepares
  | uses (e : Entry)
  | releases (e : Entry)
  | disposes

def Task.kind : Task → Kind
  | .open _ => .opens
  | .exec _ => .runs
  | .prepare .. => .prepares
  | .dispose | .drop => .disposes
  | .use _ st .release => .releases st.entry
  | .use _ st _ => .uses st.entry

def Onward.kind : Onward → Kind
  | .exec => .runs
  | .prepare => .prepares
  | .use st => .uses st.entry
  | .discard h sql => .releases (h, sql)

def Phase.kind : Phase → Kind
  | .opening .. | .openFailed .. | .openCleanup .. | .openLate _ => .opens
  | .executing .. => .runs
  | .preparing .. | .prepareLate .. => .prepares
  | .binding st _ _ | .stepping st | .counting st | .reading st _ => .uses st.entry
  | .resetting st _ | .clearing st => .uses st.entry
  | .failing _ _ _ _ _ onward => onward.kind
  | .rewinding _ h sql _ | .unbinding _ h sql | .finalizing h sql => .releases (h, sql)
  | .draining .. | .closing _ | .closeFailed .. => .disposes

theorem isRelease_of_kind {task : Task} {e : Entry} (hk : task.kind = .releases e) :
    task.isRelease = true := by
  cases task with
  | use n st u => cases u <;> first | rfl | cases hk
  | _ => cases hk

theorem isDisposal_of_kind {task : Task} (hk : task.kind = .disposes) :
    task.isDisposal = true := by
  cases task with
  | use n st u => cases u <;> cases hk
  | dispose => rfl
  | drop => rfl
  | _ => cases hk

theorem kind_of_isDisposal {task : Task} (ht : task.isDisposal = true) :
    task.kind = .disposes := by
  cases task with
  | dispose => rfl
  | drop => rfl
  | _ => cases ht

theorem not_isDisposal_of_kind {task : Task} (hk : task.kind ≠ .disposes) :
    task.isDisposal = false := by
  cases ht : task.isDisposal with
  | true => exact absurd (kind_of_isDisposal ht) hk
  | false => rfl

theorem open_of_kind {task : Task} (hk : task.kind = .opens) : ∃ mode, task = .open mode := by
  cases task with
  | «open» mode => exact ⟨mode, rfl⟩
  | use n st u => cases u <;> cases hk
  | _ => cases hk

theorem prepare_of_kind {task : Task} (hk : task.kind = .prepares) :
    ∃ sql lending, task = .prepare sql lending := by
  cases task with
  | prepare sql lending => exact ⟨sql, lending, rfl⟩
  | use n st u => cases u <;> cases hk
  | _ => cases hk

theorem isOpen_iff {task : Task} : task.isOpen = true ↔ task.kind = .opens := by
  cases task with
  | use n st u => cases u <;> simp [Task.isOpen, Task.kind]
  | _ => simp [Task.isOpen, Task.kind]

/-- Apart from a disposal and a release no action brings anything about when it starts. -/
theorem opening_eq_nil {task : Task} (hd : task.isDisposal = false) (hr : task.isRelease = false)
    (t : ThreadId) (s : State) : task.opening t s = [] := by
  cases task with
  | dispose => cases hd
  | drop => cases hd
  | use n st u => cases u <;> first | rfl | cases hr
  | _ => rfl

/-- Apart from a disposal no action that fails brings anything about when it ends. -/
theorem closing_eq_nil {task : Task} (hd : task.isDisposal = false) (t : ThreadId) (own : Bool)
    (s : State) (e : Error) (st? : Option Statement) :
    task.closing t own s ⟨.error e, st?⟩ = [] := by
  cases task with
  | dispose => cases hd
  | drop => cases hd
  | _ => rfl

/-- What an action of a kind hands back. -/
def Outcome.Of (o : Outcome) : Kind → Prop
  | .prepares => True
  | .uses e => ∃ st, o.statement = some st ∧ st.entry = e
  | _ => o.statement = none

/-- A stretch of an action of a kind. -/
def Move.Of (m : Move) (k : Kind) : Prop :=
  match m.next with
  | .inl q => q.kind = k
  | .inr o => o.Of k

/-! ## A stretch keeps to its kind -/

variable {c : Connection} {t : ThreadId} {s : State}

theorem finalizeChunk_of (h : StmtHandle) (sql : String) :
    (finalizeChunk h sql s).Of (.releases (h, sql)) := by
  unfold finalizeChunk
  split <;> rfl

theorem shelveChunk_of (h : StmtHandle) (sql : String) :
    (shelveChunk h sql s).Of (.releases (h, sql)) := by
  unfold shelveChunk
  split
  · split
    · rfl
    · rfl
    · exact finalizeChunk_of h sql
  · rfl

theorem unbindChunk_of (h : StmtHandle) (sql : String) (hasBindings : Bool) :
    (unbindChunk c h sql hasBindings s).Of (.releases (h, sql)) := by
  unfold unbindChunk
  split
  · rfl
  · exact shelveChunk_of h sql

theorem Onward.chunk_of (e : Error) (onward : Onward) : (onward.chunk e s).Of onward.kind := by
  cases onward with
  | exec => rfl
  | prepare => trivial
  | use st => exact ⟨st, rfl, rfl⟩
  | discard h sql => exact finalizeChunk_of h sql

theorem failChunk_of (rc : ResultCode) (operation : String) (about : Option String)
    (onward : Onward) : (failChunk c rc operation about onward s).Of onward.kind := by
  unfold failChunk
  split
  · rfl
  · exact Onward.chunk_of _ onward

theorem drainChunk_of (db : DbHandle) (rounds : Nat) : (drainChunk db rounds s).Of .disposes := by
  unfold drainChunk
  split <;> rfl

theorem registerChunk_of (lending : Lending) (h : StmtHandle) (sql : String) (new : Bool) :
    (registerChunk c lending h sql new s).Of .prepares := by
  unfold registerChunk
  split
  · trivial
  · rfl

theorem stepChunk_of (st : Statement) (rc : ResultCode) :
    (stepChunk st rc s).Of (.uses st.entry) := by
  unfold stepChunk
  split
  · exact ⟨_, rfl, rfl⟩
  · split
    · exact ⟨_, rfl, rfl⟩
    · exact failChunk_of rc _ _ (.use _)

/-- **An action goes on as its kind says.** -/
theorem resume_of (p : Phase) (answer : (p.call c).Answer) :
    (p.resume c t answer s).Of p.kind := by
  cases p with
  | opening flags claimed =>
    obtain ⟨db?, rc⟩ := answer
    simp only [Phase.resume]
    split
    · split
      · split <;> rfl
      · rfl
    · rfl
  | openFailed flags rc db? claimed => cases db? <;> rfl
  | openCleanup flags rc db message claimed => rfl
  | openLate db => rfl
  | executing db sql =>
    obtain ⟨rc, message⟩ := answer
    simp only [Phase.resume]
    split
    · rfl
    · exact failChunk_of rc _ _ .exec
  | preparing db sql lending =>
    obtain ⟨h?, rc⟩ := answer
    simp only [Phase.resume]
    split
    · split
      · exact registerChunk_of lending _ sql true
      · trivial
    · exact failChunk_of rc _ _ .prepare
  | prepareLate h sql => trivial
  | binding st index value =>
    simp only [Phase.resume]
    split
    · exact ⟨_, rfl, rfl⟩
    · exact failChunk_of _ _ _ (.use _)
  | stepping st => exact stepChunk_of st answer
  | counting st => exact ⟨st, rfl, rfl⟩
  | reading st index => exact ⟨st, rfl, rfl⟩
  | resetting st clear =>
    simp only [Phase.resume]
    split
    · split
      · rfl
      · exact ⟨_, rfl, rfl⟩
    · exact failChunk_of _ _ _ (.use _)
  | clearing st =>
    simp only [Phase.resume]
    split
    · exact ⟨_, rfl, rfl⟩
    · exact failChunk_of _ _ _ (.use _)
  | failing c' db rc operation about onward => exact Onward.chunk_of _ onward
  | rewinding c' h sql hasBindings =>
    simp only [Phase.resume]
    split
    · exact unbindChunk_of h sql hasBindings
    · exact failChunk_of _ _ _ (.discard h sql)
  | unbinding c' h sql =>
    simp only [Phase.resume]
    split
    · exact shelveChunk_of h sql
    · exact failChunk_of _ _ _ (.discard h sql)
  | finalizing h sql => rfl
  | draining h sql rounds db => exact drainChunk_of db rounds
  | closing db =>
    simp only [Phase.resume]
    split <;> rfl
  | closeFailed db rc => rfl

theorem useChunk_of (st : Statement) {go : Move} (hgo : go.Of (.uses st.entry)) :
    (useChunk t st s go).Of (.uses st.entry) := by
  unfold useChunk
  split
  · exact ⟨st, rfl, rfl⟩
  · split
    · exact ⟨st, rfl, rfl⟩
    · exact hgo

theorem openChunk_of (flags : OpenFlags) : (openChunk c t flags s).Of .opens := by
  unfold openChunk
  split
  · rfl
  · split
    · rfl
    · split
      · split <;> rfl
      · split <;> rfl

theorem releaseChunk_of (st : Statement) : (releaseChunk t st s).Of (.releases st.entry) := by
  unfold releaseChunk
  split
  · rfl
  · split
    · split
      · split
        · rfl
        · exact unbindChunk_of _ _ _
      · exact finalizeChunk_of _ _
    · rfl

theorem disposeChunk_of : (disposeChunk t s).Of .disposes := by
  unfold disposeChunk
  split
  · rfl
  · split
    · rfl
    · split
      · exact drainChunk_of _ _
      · rfl

/-- **An action begins as its kind says.** -/
theorem start_of (task : Task) : (phaseStart c t s task).Of task.kind := by
  cases task with
  | «open» mode =>
    cases mode with
    | readOnly =>
      simp only [phaseStart]
      split
      · rfl
      · exact openChunk_of _
    | readWrite =>
      simp only [phaseStart]
      split
      · rfl
      · exact openChunk_of _
    | readWriteCreate => exact openChunk_of _
  | exec sql =>
    simp only [phaseStart]
    split
    · rfl
    · split <;> rfl
  | prepare sql lending =>
    simp only [phaseStart]
    split
    · trivial
    · split
      · trivial
      · split
        · exact registerChunk_of lending _ sql false
        · rfl
  | dispose => exact disposeChunk_of
  | drop => exact disposeChunk_of
  | use n st u =>
    cases u with
    | bind index value => exact useChunk_of st rfl
    | step => exact useChunk_of st rfl
    | columnCount => exact useChunk_of st rfl
    | column index =>
      refine useChunk_of st ?_
      split
      · rfl
      · exact ⟨st, rfl, rfl⟩
    | reset clear =>
      refine useChunk_of st ?_
      split
      · rfl
      · split
        · rfl
        · exact ⟨st, rfl, rfl⟩
    | release => exact releaseChunk_of st

theorem start_kind {task : Task} {q : Phase} (hq : (phaseStart c t s task).next = .inl q) :
    q.kind = task.kind := by
  have hm := start_of (c := c) (t := t) (s := s) task
  simpa [Move.Of, hq] using hm

theorem resume_kind {p q : Phase} {answer : (p.call c).Answer}
    (hq : (p.resume c t answer s).next = .inl q) : q.kind = p.kind := by
  have hm := resume_of (c := c) (t := t) (s := s) p answer
  simpa [Move.Of, hq] using hm

/-- Whether a phase is the first of an open or of a preparation. -/
def Phase.begins : Phase → Bool
  | .opening .. | .preparing .. => true
  | _ => false

/-- An open or a preparation comes to its first phase only when it starts. -/
theorem resume_begins {p q : Phase} {answer : (p.call c).Answer}
    (hq : (p.resume c t answer s).next = .inl q) : q.begins = false := by
  have hk := resume_kind hq
  cases p with
  | opening flags claimed =>
    obtain ⟨db?, rc⟩ := answer
    simp only [Phase.resume] at hq
    split at hq
    · split at hq
      · split at hq <;> cases hq
        rfl
      · cases hq
    · cases hq
      rfl
  | openFailed flags rc db? claimed =>
    cases db? <;> cases hq
    rfl
  | openCleanup flags rc db message claimed => cases hq
  | openLate db => cases hq
  | preparing db sql lending =>
    obtain ⟨h?, rc⟩ := answer
    simp only [Phase.resume, registerChunk, failChunk] at hq
    split at hq
    · split at hq
      · split at hq <;> cases hq
        rfl
      · cases hq
    · split at hq <;> cases hq
      rfl
  | prepareLate h sql => cases hq
  | failing c' db rc operation about onward =>
    cases onward <;> first | cases hq | (cases q <;> first | rfl | cases hk)
  | _ => cases q <;> first | rfl | cases hk

end Interleaving

end ConfinedDb
