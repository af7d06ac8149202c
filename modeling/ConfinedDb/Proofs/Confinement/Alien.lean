import ConfinedDb.Proofs.Confinement.Ownership
/-!
# Actions on other threads than the owner's

Every action looks at the owner before it does anything else, the modes that a database in memory
does not have apart. So on another thread an action ends where it has begun: it is refused and the
world is the same as before (**`start_alien`**), or it was a release, and all that happens is that
the statement is gone from the hands of its user and two things are written down
(**`release_alien`**).
-/
namespace ConfinedDb

theorem Table.insert_of_get? {κ ν : Type} [DecidableEq κ] {t : Table κ ν} {k : κ} {v : ν}
    (h : t.get? k = some v) : t.insert k v = t := by
  obtain ⟨l, hd⟩ := t
  have hput : put k v l = l := by
    have hm : (k, v) ∈ l := (Table.mem_entries_iff ⟨l, hd⟩ k v).2 h
    clear h
    induction l with
    | nil => cases hm
    | cons e rest ih =>
      obtain ⟨hnot, hrest⟩ := List.nodup_cons.1 hd
      by_cases he : e.1 = k
      · rcases List.mem_cons.1 hm with rfl | hm
        · simp [put]
        · exact absurd (he ▸ List.mem_map_of_mem (f := Prod.fst) hm) hnot
      · rcases List.mem_cons.1 hm with rfl | hm
        · exact absurd rfl he
        · rw [put, if_neg he, ih hrest hm]
  simp [insert, hput]

namespace Interleaving

def Task.unfit (c : Connection) : Task → Bool
  | .open .readOnly | .open .readWrite => c.isMemory
  | _ => false

def Task.statement? : Task → Option Statement
  | .use _ st _ => some st
  | _ => none

variable {c : Connection} {E : Engine} {s : State} {o t : ThreadId}

theorem permit_alien (ho : s.owner = some o) (ht : t ≠ o) (asked : Connection) :
    ∃ text, permit asked t s = .error (Error.ofFault (.confinementViolated text)) := by
  refine ⟨s!"{asked.label} confined({o.display}) used({t.display})", ?_⟩
  simp [permit, ho, Connection.checkOwner, ht]

theorem openChunk_alien (ho : s.owner = some o) (ht : t ≠ o) (hd : s.disposed = false)
    (flags : OpenFlags) :
    ∃ text, openChunk c t flags s =
      finish ⟨.error (Error.ofFault (.confinementViolated text)), none⟩ s := by
  obtain ⟨text, hpermit⟩ := permit_alien ho ht c
  have hclaim : s.claim t = s := claim_owned (by simp [ho]) t
  exact ⟨text, by simp [openChunk, hd, hpermit, hclaim]⟩

/-- **An action that is no release and no disposal is refused, and the state is as before.** -/
theorem phaseStart_alien (ho : s.owner = some o) (ht : t ≠ o) (hd : s.disposed = false)
    {task : Task} (hdisposal : task.isDisposal = false) (hrelease : task.isRelease = false) :
    ∃ text, phaseStart c t s task = finish ⟨.error (Error.ofFault
      (if task.unfit c then .misuse text else .confinementViolated text)), task.statement?⟩ s := by
  have huse : ∀ (st : Statement) (go : Move), ∃ text, useChunk t st s go =
      finish ⟨.error (Error.ofFault (.confinementViolated text)), some st⟩ s := by
    intro st go
    obtain ⟨text, hpermit⟩ := permit_alien ho ht st.connection
    exact ⟨text, by simp [useChunk, hpermit]⟩
  cases task with
  | «open» mode =>
    obtain ⟨text, hopen⟩ := openChunk_alien (c := c) ho ht hd mode.flags
    cases hm : c.isMemory with
    | false => cases mode <;> exact ⟨text, by
      simpa [phaseStart, Task.unfit, Task.statement?, hm] using hopen⟩
    | true =>
      cases mode with
      | readOnly =>
        exact ⟨"cannot open memory database in read-only mode", by
          simp [phaseStart, Task.unfit, hm, Task.statement?]⟩
      | readWrite =>
        exact ⟨"cannot open memory database without creation", by
          simp [phaseStart, Task.unfit, hm, Task.statement?]⟩
      | readWriteCreate => exact ⟨text, by
        simpa [phaseStart, Task.unfit, Task.statement?] using hopen⟩
  | exec sql =>
    obtain ⟨text, hpermit⟩ := permit_alien ho ht c
    exact ⟨text, by simp only [phaseStart, hpermit]; rfl⟩
  | prepare sql lending =>
    obtain ⟨text, hpermit⟩ := permit_alien ho ht c
    exact ⟨text, by simp only [phaseStart, hpermit]; rfl⟩
  | dispose => cases hdisposal
  | drop => cases hdisposal
  | use n st u =>
    cases u with
    | release => cases hrelease
    | _ => exact huse st _

/-- An action that hands its statement back as it was hands nothing back. -/
theorem handBack_same {w : World (phases c) E} {a : Action} {task : Task}
    (htask : w.task? a = some task) (lent : Nat) (result : Except Error Reply) :
    task.handBack lent ⟨result, task.statement?⟩ w.statements = w.statements := by
  cases task with
  | use n st u => exact Table.insert_of_get? (Tidy.task?_use htask).1
  | _ => rfl

variable {w : World (phases c) E} {a : Action} {task : Task}

/-- **The world is the same as before.** -/
theorem start_alien (ho : w.state.owner = some o) (ht : t ≠ o) (hd : w.state.disposed = false)
    (htask : w.task? a = some task) (hdisposal : task.isDisposal = false)
    (hrelease : task.isRelease = false) :
    w.start t task = w ∧ ∃ out text, w.Ends (.start t a) t task out ∧
      out.result = .error (Error.ofFault
        (if task.unfit c then .misuse text else .confinementViolated text)) := by
  obtain ⟨text, hstart⟩ := phaseStart_alien (c := c) ho ht hd hdisposal hrelease
  refine ⟨?_, _, text, ⟨rfl, htask, congrArg Chunk.next hstart⟩, rfl⟩
  have hentered : w.entered t task = w := by
    have htake : task.takeOver w.statements = w.statements := by
      cases task with
      | use n st u => cases u <;> first | rfl | cases hrelease
      | _ => rfl
    simp [World.entered, htake, opening_eq_nil hdisposal hrelease]
  have hlends : ∀ e, task.lends ⟨.error e, task.statement?⟩ = 0 := by
    intro e
    cases task <;> rfl
  show (w.entered t task).proceed t task _ (phaseStart c t w.state task) = w
  rw [hentered, hstart]
  refine (w.proceed_end t task _ rfl).trans ?_
  simp [finish, handBack_same htask, hlends, closing_eq_nil hdisposal]

/-- **A release only leaks its statement.** -/
theorem release_alien (ho : w.state.owner = some o) (ht : t ≠ o) (n : Nat) (st : Statement) :
    w.start t (.use n st .release) =
      { w with
        statements := w.statements.erase n
        history := .reported (.releasedByAlien st.lending st.sql) :: .leaked st.handle
          :: w.history } := by
  obtain ⟨text, hpermit⟩ := permit_alien ho ht st.connection
  have hstart : phaseStart c t w.state (.use n st .release) =
      (finish .finished w.state).after [.releasedByAlien st.lending st.sql] := by
    simp only [phaseStart, releaseChunk, hpermit]
  have hbars : bars w.state t = true := by simp [bars, ho, ht]
  show (w.entered t _).proceed t _ _ (phaseStart c t w.state (.use n st .release)) = _
  rw [hstart]
  refine ((w.entered t _).proceed_end t _ _ rfl).trans ?_
  simp [World.entered, Task.takeOver, Task.opening, hbars, finish, Chunk.after, Task.handBack,
    Task.lends, Task.closing, Outcome.finished]

end Interleaving

end ConfinedDb
