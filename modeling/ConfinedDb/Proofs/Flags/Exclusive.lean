import ConfinedDb.Proofs.Flags.Mark
import ConfinedDb.Proofs.Interleaving.Lend
import ConfinedDb.Proofs.Spent.Undisposed
import Mathlib.Data.List.Nodup
/-!
# One user at a time

What keeps a statement from being stepped or bound behind the back of its user. Two uses of it only
overlap if both read it, and all that adds to it is called by a use that does not (`Exclusive`). No
two statements in the hands of users have the same handle (`Distinct`): until the connection is
disposed that is in its books, and from then on users get no more statements.
-/
namespace ConfinedDb.Interleaving

variable {c : Connection} {E : Engine} {w w' : World (phases c) E} {t : ThreadId} {task : Task}
  {own : Bool} {m : Move} {l : Label E}

/-! ## Uses that change a statement -/

/-- The statement that a use may change. -/
def Task.changes : Task → Option (Nat × Entry)
  | .use _ _ .columnCount | .use _ _ (.column _) | .use _ _ .release => none
  | .use n st _ => some (n, st.entry)
  | _ => none

theorem kind_of_inUse {n : Nat} {e : Entry} (hu : task.inUse = some (n, e)) :
    task.kind = .uses e := by
  cases task with
  | use k st u => cases u <;> cases hu <;> rfl
  | _ => cases hu

theorem inUse_of_changes {x : Nat × Entry} (h : task.changes = some x) :
    task.inUse = some x := by
  cases task with
  | use n st u => cases u <;> first | exact h | cases h
  | _ => cases h

theorem use_of_changes {n : Nat} {e : Entry} (h : task.changes = some (n, e)) :
    ∃ st u, task = .use n st u := by
  cases task with
  | use k st u => cases u <;> cases h <;> exact ⟨_, _, rfl⟩
  | _ => cases h

/-- No use changes a statement that the other one uses. -/
def Task.Compatible (a b : Task) : Prop :=
  ∀ n e e', (a.changes = some (n, e) → b.inUse ≠ some (n, e')) ∧
    (b.changes = some (n, e) → a.inUse ≠ some (n, e'))

theorem Task.Compatible.symm {a b : Task} (h : a.Compatible b) : b.Compatible a :=
  fun n e e' => ⟨(h n e e').2, (h n e e').1⟩

/-- Where a use may start beside one that is under way, both only read the statement. -/
theorem reads_of_allows {f : Frame (phases c)} {n : Nat} {u : Use} {e : Entry}
    (h : f.allows n u = true) (hu : f.task.inUse = some (n, e)) :
    u.shared = true ∧ f.task.changes = none := by
  obtain ⟨t, task, p, answer⟩ := f
  cases task with
  | use k st v => cases v <;> cases hu <;> simp_all [Frame.allows, Use.shared, Task.changes]
  | _ => cases hu

theorem compatible_of_task? {a : Action} (ht : w.task? a = some task) {f : Frame (phases c)}
    (hf : f ∈ w.frames) : task.Compatible f.task := by
  intro n e e'
  cases task with
  | use k st u =>
    have hallows := (Tidy.task?_use ht).2 f hf
    refine ⟨fun hc hu => ?_, fun hc hu => ?_⟩
    · have hk : k = n ∧ u.shared = false := by
        cases u <;> cases hc <;> exact ⟨rfl, rfl⟩
      have hshared := (reads_of_allows (hk.1 ▸ hallows) hu).1
      simp [hk.2] at hshared
    · have hk : k = n := by
        cases u <;> cases hu <;> rfl
      have hnone := (reads_of_allows (hk ▸ hallows) (inUse_of_changes hc)).2
      cases hnone.symm.trans hc
  | _ => exact ⟨by simp [Task.changes], by simp [Task.inUse]⟩

theorem adds_statement {call : EngineCall} {h : StmtHandle} (hc : call.adds? = some h) :
    call.statement? = some h := by
  cases call <;> first | exact hc | cases hc

theorem kind_of_adds {q : Phase} {h : StmtHandle} (hc : (q.call c).adds? = some h) :
    ∃ sql, q.kind = .uses (h, sql) := by
  cases q with
  | binding st _ _ | stepping st =>
    cases hc
    exact ⟨st.sql, rfl⟩
  | _ => cases hc

/-- Only a step and a binding begin with a call that adds to a statement. -/
theorem start_adds {s : State} {q : Phase} (hq : (phaseStart c t s task).next = .inl q)
    {h : StmtHandle} (hc : (q.call c).adds? = some h) :
    ∃ n sql, task.changes = some (n, (h, sql)) := by
  obtain ⟨sql, hk⟩ := kind_of_adds hc
  rw [start_kind hq] at hk
  cases task with
  | use n st u =>
    cases use_next hq with
    | binding | stepping =>
      cases hc
      exact ⟨n, st.sql, rfl⟩
    | _ => cases hc
  | _ => cases hk

theorem resume_adds {s : State} {p q : Phase} {answer : (p.call c).Answer}
    (hq : (p.resume c t answer s).next = .inl q) : (q.call c).adds? = none := by
  cases hc : (q.call c).adds? with
  | none => rfl
  | some h => cases resume_names hq (adds_statement hc) <;> cases hc

/-- A statement that a use may change is used by no other action, and no other calls add to it. -/
structure Exclusive (w : World (phases c) E) : Prop where
  tasks : (w.frames.map Frame.task).Pairwise Task.Compatible
  adding : ∀ f ∈ w.frames, ∀ h, f.call.adds? = some h →
    ∃ n sql, f.task.changes = some (n, (h, sql))

namespace Exclusive

theorem initial (e : E.State) : Exclusive (.initial e : World (phases c) E) where
  tasks := .nil
  adding _ hf := by cases hf

theorem proceed (x : Exclusive w) (hc : ∀ f ∈ w.frames, task.Compatible f.task)
    (hq : ∀ q, m.next = .inl q → ∀ h, (q.call c).adds? = some h →
      ∃ n sql, task.changes = some (n, (h, sql))) : Exclusive (w.proceed t task own m) := by
  refine ⟨?_, forall_proceed x.adding hq⟩
  cases hn : m.next with
  | inl q =>
    rw [w.proceed_pause t task own hn]
    refine List.Pairwise.cons (fun b hb => ?_) x.tasks
    obtain ⟨f, hf, rfl⟩ := List.mem_map.1 hb
    exact hc f hf
  | inr o =>
    rw [w.proceed_end t task own hn]
    exact x.tasks

theorem others (x : Exclusive w) {i : Nat} {f : Frame (phases c)} (hf : w.frames[i]? = some f) :
    ∀ g ∈ w.frames.eraseIdx i, f.task.Compatible g.task := by
  obtain ⟨hi, rfl⟩ := List.getElem?_eq_some_iff.1 hf
  have hperm := (List.getElem_cons_eraseIdx_perm hi).map Frame.task
  have hpair := (hperm.pairwise_iff Task.Compatible.symm).2 x.tasks
  exact fun g hg => (List.pairwise_cons.1 hpair).1 g.task (List.mem_map_of_mem hg)

theorem step (x : Exclusive w) (h : w.step l = some w') : Exclusive w' := by
  cases World.step_cases h with
  | @start t a task ht =>
    have hentered : Exclusive (w.entered t task) := ⟨x.tasks, x.adding⟩
    exact hentered.proceed (fun f hf => compatible_of_task? ht hf) fun q hq h hc =>
      start_adds hq hc
  | @act i t task p hf =>
    refine ⟨?_, forall_acted hf x.adding id⟩
    have htasks : (w.acted i t task p).frames.map Frame.task = w.frames.map Frame.task := by
      refine List.ext_getElem? fun j => ?_
      simp only [World.acted, List.map_set, List.getElem?_set, List.getElem?_map]
      split
      · next hij =>
        subst hij
        obtain ⟨hi, hget⟩ := List.getElem?_eq_some_iff.1 hf
        simp [hi, hget]
      · rfl
    exact htasks ▸ x.tasks
  | @resume i t task p answer hf hn =>
    have hreturned : Exclusive (w.returned i t (p.call c)) :=
      ⟨x.tasks.sublist ((List.eraseIdx_sublist ..).map _),
        fun f hm => x.adding f (List.mem_of_mem_eraseIdx hm)⟩
    refine hreturned.proceed (x.others hf) fun q hq h hc => ?_
    simp [resume_adds hq] at hc
  | drift e => exact ⟨x.tasks, x.adding⟩

end Exclusive

theorem run_exclusive {e : E.State}
    {ok : World (phases c) E → Label E → World (phases c) E → Prop} {ls : List (Label E)}
    (run : Run (phases c) E e ok ls w) : Exclusive w := by
  induction run with
  | nil => exact .initial e
  | snoc _ hs _ ih => exact ih.step hs

/-! ## Handles of users -/

def World.Distinct (w : World (phases c) E) : Prop :=
  ∀ n n' e e', w.entryOf n = some e → w.entryOf n' = some e' → e.1 = e'.1 → n = n'

theorem distinct_of_booked (b : w.Booked) : w.Distinct := by
  intro n n' e e' h h' he
  obtain ⟨st, hg, rfl⟩ := Option.map_eq_some_iff.1 h
  obtain ⟨st', hg', rfl⟩ := Option.map_eq_some_iff.1 h'
  have hnodup : (w.statements.entries.map fun entry => entry.2.handle).Nodup := by
    have husers := b.distinct.sublist ((List.sublist_append_left _ _).map _)
    simpa [World.users, Table.values, Function.comp_def, Statement.entry] using husers
  have hinj := List.inj_on_of_nodup_map hnodup ((w.statements.mem_entries_iff n st).2 hg)
    ((w.statements.mem_entries_iff n' st').2 hg') he
  exact congrArg Prod.fst hinj

/-- **Users never share a handle.** -/
theorem run_distinct {e : E.State} {ls : List (Label E)}
    (run : Run (phases c) E e MintsFresh ls w) : w.Distinct := by
  induction run with
  | nil => exact fun n n' e e' h => by cases h
  | @snoc ls w w' l run hs hfresh ih =>
    cases hd : w'.state.disposed with
    | false => exact distinct_of_booked (booked_of_undisposed (run.snoc hs hfresh) hd)
    | true =>
      have hback := fun n e => entryOf_of_disposed (n := n) (e := e) (run_tidy run)
        (run_drains run).closed hs hd
      exact fun n n' e e' h h' => ih n n' e e' (hback n e h) (hback n' e' h')

end ConfinedDb.Interleaving
