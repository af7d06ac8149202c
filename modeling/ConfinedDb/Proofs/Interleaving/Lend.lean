import ConfinedDb.Proofs.Interleaving.Effect
/-!
# How statements come and go

A preparation that succeeds lends a statement that nobody has used: the idle one of its text
(`start_lends`) or one that has just been compiled (`resume_lends`), and only while the database is
there. So once the connection is disposed statements only go: nothing is registered or idle that was
not before (`start_sheds`, `resume_sheds`), and users only give back what they have
(`entryOf_of_disposed`).
-/
namespace ConfinedDb.Interleaving

variable {c : Connection} {t : ThreadId} {s s' : State}

/-! ## What a preparation lends -/

/-- A preparation that ends at once with a statement has found it idle. -/
theorem start_lends {sql : String} {lending : Lending} {o : Outcome} {st : Statement}
    (hn : (phaseStart c t s (.prepare sql lending)).next = .inr o) (ho : o.statement = some st) :
    Ready t s ∧ lending = .cached ∧ ∃ h, s.cache.get? sql = some h ∧
      st = .fresh c lending h sql ∧
      (phaseStart c t s (.prepare sql lending)).state = (s.lend sql).register h sql := by
  simp only [phaseStart] at hn ⊢
  cases ha : permit c t s with
  | error e =>
    simp only [ha] at hn
    cases hn
    cases ho
  | ok _ =>
    cases hopen : s.openHandle with
    | error e =>
      simp only [ha, hopen] at hn
      cases hn
      cases ho
    | ok db =>
      have hready := ready_of_ok ha hopen
      cases lending with
      | uncached =>
        simp only [ha, hopen, reduceCtorEq, if_false] at hn
        cases hn
      | cached =>
        cases hg : s.cache.get? sql with
        | none =>
          simp only [ha, hopen, if_true, hg] at hn
          cases hn
        | some h =>
          have hh : (s.lend sql).handle.isSome = true :=
            (SameDatabase.lend s sql).handle ▸ hready.opened
          simp only [ha, hopen, if_true, hg, registerChunk, if_pos hh] at hn ⊢
          cases hn
          cases ho
          exact ⟨hready, trivial, h, rfl, rfl, rfl⟩

/-- A preparation that goes on to end with a statement has got it from the engine. -/
theorem resume_lends {p : Phase} (hp : p.kind = .prepares) {answer : (p.call c).Answer}
    {o : Outcome} {st : Statement} (hn : (p.resume c t answer s).next = .inr o)
    (ho : o.statement = some st) :
    ∃ db sql lending h, p = .preparing db sql lending ∧ h ∈ arriving (p.call c) answer ∧
      s.handle.isSome = true ∧ st = .fresh c lending h sql ∧
      (p.resume c t answer s).state = s.register h sql := by
  cases p with
  | preparing db sql lending =>
    obtain ⟨h?, rc⟩ := answer
    simp only [Phase.resume] at hn ⊢
    by_cases hok : rc.isOk
    · simp only [if_pos hok] at hn ⊢
      cases h? with
      | none =>
        cases hn
        cases ho
      | some h =>
        by_cases hh : s.handle.isSome
        · simp only [registerChunk, if_pos hh] at hn ⊢
          cases hn
          cases ho
          exact ⟨db, sql, lending, h, rfl, List.mem_cons_self, hh, rfl, rfl⟩
        · simp only [registerChunk, if_neg hh] at hn
          cases hn
    · simp only [if_neg hok, failChunk] at hn
      split at hn <;> cases hn
      cases ho
  | prepareLate h sql =>
    cases hn
    cases ho
  | failing c' db rc operation about onward =>
    cases onward with
    | prepare =>
      cases hn
      cases ho
    | _ => cases hp
  | _ => cases hp

/-! ## Once the connection is disposed -/

structure Sheds (s s' : State) : Prop where
  texts : ∀ h sql, s'.statements.get? h = some sql → s.statements.get? h = some sql
  idle : ∀ sql h, s'.cache.get? sql = some h → s.cache.get? sql = some h

namespace Sheds

theorem of_eq (hst : s'.statements = s.statements) (hc : s'.cache = s.cache) : Sheds s s' :=
  ⟨fun _ _ h => hst ▸ h, fun _ _ h => hc ▸ h⟩

theorem refl (s : State) : Sheds s s := of_eq rfl rfl

theorem forgetAll (s s' : State) : Sheds s s'.forgetAll := ⟨nofun, nofun⟩

theorem forget (s : State) (h : StmtHandle) (sql : String) : Sheds s (s.forget h sql) := by
  unfold State.forget
  split
  · exact refl s
  · refine ⟨fun k text hk => ?_, fun text k hk => ?_⟩
    · have hk : (s.statements.remove h).get? k = some text := hk
      rw [Registry.get?_remove] at hk
      split at hk
      · cases hk
      · exact hk
    · have hk : (s.cache.removeIf sql h).get? text = some k := hk
      rw [Cache.get?_removeIf] at hk
      split at hk
      · cases hk
      · exact hk

theorem claim (s : State) (t : ThreadId) : Sheds s (s.claim t) := by
  unfold State.claim
  split <;> exact of_eq rfl rfl

theorem unclaim (s : State) (t : ThreadId) : Sheds s (s.unclaim t) := by
  unfold State.unclaim
  split <;> exact of_eq rfl rfl

theorem retire (s : State) : Sheds s s.retire := by
  unfold State.retire
  split <;> exact of_eq rfl rfl

end Sheds

theorem Change.sheds {returned : Option EngineCall} {m : Move} (h : Change returned s m)
    (hh : s.handle = none) : Sheds s m.state := by
  have hopen : ¬s.isOpen = true := by simp [State.isOpen, hh]
  have hlend : ∀ sql, s.lend sql = s := fun sql => if_neg hopen
  have hshelve : ∀ h sql, s.shelve h sql = s := fun h sql => if_neg hopen
  have hregister : ∀ h sql, s.register h sql = s := fun h sql => if_neg (by simp [hh])
  cases h with
  | same state => exact state ▸ .refl s
  | shelves state =>
    rw [state, hshelve]
    exact .refl s
  | lends state =>
    rw [state, hlend]
    exact .refl s
  | registers state =>
    rw [state, hregister]
    exact .refl s
  | reuses state =>
    rw [state, hlend, hregister]
    exact .refl s
  | forgets _ state => exact state ▸ .forget s _ _
  | sweeps _ _ state => exact state ▸ .forgetAll s _

/-- An action starts and the connection is disposed, now or before. -/
theorem start_sheds {task : Task} (hc : Closed s)
    (hd : (phaseStart c t s task).state.disposed = true) :
    Sheds s (phaseStart c t s task).state := by
  cases start_cases (c := c) (t := t) (s := s) task with
  | opens _ start =>
    rcases start.state_cases with h | h <;> rw [h]
    · exact .refl s
    · exact .claim s t
  | disposes _ start =>
    rcases start.state_cases with ⟨h, -⟩ | ⟨-, h | h⟩ <;> rw [h]
    · exact .refl s
    · exact .retire s
    · exact .forgetAll s _
  | other _ _ change =>
    exact change.sheds (hc (change.sameDatabase.disposed.symm.trans hd))

theorem resume_sheds {p : Phase} {answer : (p.call c).Answer} (hc : Closed s)
    (hd : s.disposed = true) : Sheds s (p.resume c t answer s).state := by
  by_cases hp : p.kind = .opens
  · have hrest := open_rest (t := t) (s := s) hp answer
    generalize p.resume c t answer s = m at hrest
    cases hrest with
    | waits _ _ _ state => exact state ▸ .refl s
    | late _ _ state => exact state ▸ .refl s
    | installs _ _ _ state => exact .of_eq (by rw [state]) (by rw [state])
    | fails _ _ state =>
      rw [state]
      split
      · exact .unclaim s t
      · exact .refl s
  · exact (resume_change hp answer).sheds (hc hd)

/-- **Once the connection is disposed nothing comes.** -/
theorem step_sheds {E : Engine} {w w' : World (phases c) E} {l : Label E} (hc : Closed w.state)
    (h : w.step l = some w') (hd' : w'.state.disposed = true) : Sheds w.state w'.state := by
  cases World.step_cases h with
  | @start t a task ht =>
    have hstate : (w.start t task).state = (phaseStart c t w.state task).state := proceed_state ..
    rw [hstate] at hd' ⊢
    exact start_sheds hc hd'
  | act _ => exact .refl w.state
  | @resume i t task p answer hf hn =>
    have hstate := proceed_state (w.returned i t (p.call c)) t task true
      (p.resume c t answer w.state)
    have hd : w.state.disposed = true :=
      (resume_disposed p answer).symm.trans ((congrArg State.disposed hstate).symm.trans hd')
    exact (congrArg (Sheds w.state) hstate).mpr (resume_sheds hc hd)
  | drift e => exact .refl w.state

/-- An action that ends on a disposed connection has lent no statement. -/
theorem start_brings {task : Task} {o : Outcome}
    (hd : (phaseStart c t s task).state.disposed = true)
    (ho : (phaseStart c t s task).next = .inr o) : task.brings o = [] := by
  cases task with
  | prepare sql lending =>
    cases hst : o.statement with
    | none => simp [Task.brings, hst]
    | some st =>
      have hready := (start_lends ho hst).1
      simp [start_disposed, hready.undisposed, Task.isDisposal] at hd
  | _ => rfl

theorem resume_brings {p : Phase} {answer : (p.call c).Answer} {task : Task} {o : Outcome}
    (hc : Closed s) (hd : s.disposed = true) (hk : p.kind = task.kind)
    (ho : (p.resume c t answer s).next = .inr o) : task.brings o = [] := by
  cases task with
  | prepare sql lending =>
    cases hst : o.statement with
    | none => simp [Task.brings, hst]
    | some st =>
      obtain ⟨-, -, -, -, -, -, hh, -⟩ := resume_lends hk ho hst
      simp [hc hd] at hh
  | _ => rfl

section Users

variable {E : Engine} {w w' : World (phases c) E} {l : Label E}

/-- A release takes a statement away, and no start brings one. -/
theorem get?_takeOver {task : Task} {statements : Table Nat Statement} {n : Nat} {st : Statement}
    (h : (task.takeOver statements).get? n = some st) : statements.get? n = some st := by
  rcases Tidy.takeOver_cases task statements with ⟨k, st', rfl⟩ | ⟨-, htake⟩
  · have h : (statements.erase k).get? n = some st := h
    rw [Table.get?_erase] at h
    split at h
    · cases h
    · exact h
  · rwa [htake] at h

theorem entryOf_entered (task : Task) {n : Nat} {e : Entry}
    (h : (w.entered t task).entryOf n = some e) : w.entryOf n = some e := by
  obtain ⟨st, hg, rfl⟩ := Option.map_eq_some_iff.1 h
  exact congrArg (Option.map Statement.entry) (get?_takeOver hg)

theorem users_entered (task : Task) : (w.entered t task).users ⊆ w.users := by
  intro e he
  obtain ⟨n, hn⟩ := (World.mem_users_iff _).1 he
  exact w.mem_users_iff.2 ⟨n, entryOf_entered task hn⟩

theorem entryOf_proceed {task : Task} {own : Bool} {m : Move} (hm : m.Of task.kind)
    (huse : ∀ n e, task.inUse = some (n, e) → w.entryOf n = some e)
    (hbrings : ∀ o, m.next = .inr o → task.brings o = []) {n : Nat} {e : Entry}
    (h : (w.proceed t task own m).entryOf n = some e) : w.entryOf n = some e := by
  cases hn : m.next with
  | inl q =>
    rw [w.proceed_pause t task own hn] at h
    exact h
  | inr o =>
    have ho : o.Of task.kind := by simpa [Move.Of, hn] using hm
    rw [w.proceed_end t task own hn] at h
    have h : ((task.handBack w.lent o w.statements).get? n).map Statement.entry = some e := h
    rcases handBack_cases ho w.lent w.statements with
      ⟨hs, -⟩ | ⟨st, -, -, hb⟩ | ⟨k, st, hu, hs, -⟩
    · rwa [hs] at h
    · simp [hbrings o hn] at hb
    · rw [hs, Table.get?_insert] at h
      split at h
      · next hk =>
        cases h
        exact hk ▸ huse k st.entry hu
      · exact h

/-- **Users of a disposed connection only give back what they have.** -/
theorem entryOf_of_disposed (tidy : Tidy w) (hc : Closed w.state) (h : w.step l = some w')
    (hd' : w'.state.disposed = true) {n : Nat} {e : Entry} (he : w'.entryOf n = some e) :
    w.entryOf n = some e := by
  cases World.step_cases h with
  | @start t a task ht =>
    have hd : (phaseStart c t w.state task).state.disposed = true :=
      (congrArg State.disposed (proceed_state ..)).symm.trans hd'
    exact entryOf_entered task (entryOf_proceed (start_of task)
      (fun n e hu => Tidy.entryOf_inUse ht hu) (fun o ho => start_brings hd ho) he)
  | act _ => exact he
  | @resume i t task p answer hf hn =>
    have hmem := List.mem_of_getElem? hf
    have hk : p.kind = task.kind := tidy.kinds _ hmem
    have hd : w.state.disposed = true := (resume_disposed p answer).symm.trans
      ((congrArg State.disposed (proceed_state ..)).symm.trans hd')
    exact entryOf_proceed (w := w.returned i t (p.call c)) (hk ▸ resume_of p answer)
      (tidy.inHand _ hmem) (fun o ho => resume_brings hc hd hk ho) he
  | drift e => exact he

theorem users_of_disposed (tidy : Tidy w) (hc : Closed w.state) (h : w.step l = some w')
    (hd' : w'.state.disposed = true) : w'.users ⊆ w.users := by
  intro e he
  obtain ⟨n, hn⟩ := w'.mem_users_iff.1 he
  exact w.mem_users_iff.2 ⟨n, entryOf_of_disposed tidy hc h hd' hn⟩

end Users

end ConfinedDb.Interleaving
