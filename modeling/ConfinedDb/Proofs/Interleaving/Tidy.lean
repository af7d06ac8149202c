import ConfinedDb.Proofs.Interleaving.Kind
/-!
# Statements in the hands of users

While a use of a statement is under way, the statement stays where it was, with its handle and its
text: it may be used by others that only read, and it is not released (`Tidy`). So an action that
ends hands back the statement that it was given, and the statements in the hands of users only
change when one is prepared or released (`users_handBack`).
-/
namespace ConfinedDb.Interleaving

variable {c : Connection} {E : Engine}

/-- The statement that a use is about. -/
def Task.inUse : Task → Option (Nat × Entry)
  | .use _ _ .release => none
  | .use n st _ => some (n, st.entry)
  | _ => none

theorem inUse_of_kind {task : Task} {e : Entry} (hk : task.kind = .uses e) :
    ∃ n, task.inUse = some (n, e) := by
  cases task with
  | use n st u =>
    cases u with
    | release => cases hk
    | _ => exact ⟨n, congrArg (fun e => some (n, e)) (Kind.uses.inj hk)⟩
  | _ => cases hk

def World.users {M : Machine} (w : World M E) : List Entry :=
  w.statements.values.map Statement.entry

def World.entryOf {M : Machine} (w : World M E) (n : Nat) : Option Entry :=
  (w.statements.get? n).map Statement.entry

theorem World.mem_keys {M : Machine} (w : World M E) {n : Nat} {e : Entry}
    (h : w.entryOf n = some e) : n ∈ w.statements.keys := by
  rw [← w.statements.contains_iff, w.statements.contains_eq]
  cases hg : w.statements.get? n with
  | none => simp [World.entryOf, hg] at h
  | some _ => rfl

theorem World.mem_users_iff {M : Machine} (w : World M E) {e : Entry} :
    e ∈ w.users ↔ ∃ n, w.entryOf n = some e := by
  simp only [World.users, World.entryOf, Table.values, List.map_map, List.mem_map,
    Option.map_eq_some_iff]
  constructor
  · rintro ⟨⟨n, st⟩, hm, rfl⟩
    exact ⟨n, st, (w.statements.mem_entries_iff n st).1 hm, rfl⟩
  · rintro ⟨n, st, hg, rfl⟩
    exact ⟨(n, st), (w.statements.mem_entries_iff n st).2 hg, rfl⟩

/-- Actions go with their phases, and statements in use stay where they are. -/
structure Tidy (w : World (phases c) E) : Prop where
  kinds : ∀ f ∈ w.frames, f.point.kind = f.task.kind
  inHand : ∀ f ∈ w.frames, ∀ n e, f.task.inUse = some (n, e) → w.entryOf n = some e
  numbered : ∀ n ∈ w.statements.keys, n < w.lent

/-- What an action that ends adds to the statements in the hands of users. -/
def Task.brings (o : Outcome) : Task → List Entry
  | .prepare .. => (o.statement.map Statement.entry).toList
  | _ => []

/-- An action hands nothing back, or a new statement, or the one that it has used. -/
theorem handBack_cases {task : Task} {o : Outcome} (ho : o.Of task.kind) (lent : Nat)
    (statements : Table Nat Statement) :
    (task.handBack lent o statements = statements ∧ task.lends o = 0 ∧ task.brings o = []) ∨
    (∃ st : Statement, task.handBack lent o statements = statements.insert lent st ∧
      task.lends o = 1 ∧ task.brings o = [st.entry]) ∨
    ∃ n, ∃ st : Statement, task.inUse = some (n, st.entry) ∧
      task.handBack lent o statements = statements.insert n st ∧
      task.lends o = 0 ∧ task.brings o = [] := by
  have huse : ∀ (n : Nat) (st : Statement) (u : Use), u ≠ .release → o.Of (.uses st.entry) →
      ∃ k, ∃ st' : Statement, (Task.use n st u).inUse = some (k, st'.entry) ∧
        (Task.use n st u).handBack lent o statements = statements.insert k st' ∧
        (Task.use n st u).lends o = 0 ∧ (Task.use n st u).brings o = [] := by
    rintro n st u hu ⟨st', hs, he⟩
    refine ⟨n, st', ?_, by simp [Task.handBack, hs], rfl, rfl⟩
    cases u <;> simp_all [Task.inUse]
  cases task with
  | «open» mode => exact .inl ⟨rfl, rfl, rfl⟩
  | exec sql => exact .inl ⟨rfl, rfl, rfl⟩
  | dispose => exact .inl ⟨rfl, rfl, rfl⟩
  | drop => exact .inl ⟨rfl, rfl, rfl⟩
  | prepare sql lending =>
    cases hs : o.statement with
    | none => exact .inl (by simp [Task.handBack, Task.lends, Task.brings, hs])
    | some st => exact .inr (.inl ⟨st, by simp [Task.handBack, Task.lends, Task.brings, hs]⟩)
  | use n st u =>
    cases u with
    | release =>
      have hs : o.statement = none := ho
      exact .inl (by simp [Task.handBack, Task.lends, Task.brings, hs])
    | bind index value => exact .inr (.inr (huse n st _ (by simp) ho))
    | step => exact .inr (.inr (huse n st _ (by simp) ho))
    | columnCount => exact .inr (.inr (huse n st _ (by simp) ho))
    | column index => exact .inr (.inr (huse n st _ (by simp) ho))
    | reset clear => exact .inr (.inr (huse n st _ (by simp) ho))

theorem prepares_of_pending {f : Frame (phases c)} {h : StmtHandle} (hp : h ∈ f.pending) :
    f.point.kind = .prepares := by
  obtain ⟨t, task, p, _ | answer⟩ := f
  · cases hp
  · cases p <;> first | rfl | cases hp

namespace Tidy

variable {w w' : World (phases c) E} {t : ThreadId} {task : Task} {own : Bool} {m : Move}

theorem initial (e : E.State) : Tidy (.initial e : World (phases c) E) where
  kinds _ hf := by cases hf
  inHand _ hf := by cases hf
  numbered _ hn := by cases hn

theorem entry_handBack (tidy : Tidy w) {o : Outcome} (ho : o.Of task.kind)
    (huse : ∀ n e, task.inUse = some (n, e) → w.entryOf n = some e) {n : Nat} {e : Entry}
    (hn : w.entryOf n = some e) :
    ((task.handBack w.lent o w.statements).get? n).map Statement.entry = some e := by
  rcases handBack_cases ho w.lent w.statements with ⟨h, -⟩ | ⟨st, h, -⟩ | ⟨k, st, hu, h, -⟩ <;>
    rw [h]
  · exact hn
  · have hlt : n < w.lent := tidy.numbered n (w.mem_keys hn)
    rw [Table.get?_insert, if_neg (Nat.ne_of_lt hlt)]
    exact hn
  · rw [Table.get?_insert]
    split
    · next hk =>
      have := huse k st.entry hu
      rw [← hk, hn] at this
      exact this.symm
    · exact hn

theorem numbered_handBack (tidy : Tidy w) {o : Outcome} (ho : o.Of task.kind)
    (huse : ∀ n e, task.inUse = some (n, e) → w.entryOf n = some e) {n : Nat}
    (hn : n ∈ (task.handBack w.lent o w.statements).keys) : n < w.lent + task.lends o := by
  rcases handBack_cases ho w.lent w.statements with
      ⟨h, hl, -⟩ | ⟨st, h, hl, -⟩ | ⟨k, st, hu, h, hl, -⟩ <;> rw [h] at hn <;> rw [hl]
  · exact tidy.numbered n hn
  · rw [Table.keys_insert] at hn
    split at hn
    · exact Nat.lt_succ_of_lt (tidy.numbered n hn)
    · rcases List.mem_append.1 hn with hn | hn
      · exact Nat.lt_succ_of_lt (tidy.numbered n hn)
      · rw [List.mem_singleton.1 hn]
        exact Nat.lt_succ_self _
  · rw [Table.keys_insert, if_pos (w.mem_keys (huse k st.entry hu))] at hn
    exact tidy.numbered n hn

/-- **The statements in the hands of users change by those that are prepared.** -/
theorem users_handBack (tidy : Tidy w) {o : Outcome} (ho : o.Of task.kind)
    (huse : ∀ n e, task.inUse = some (n, e) → w.entryOf n = some e) :
    ((task.handBack w.lent o w.statements).values.map Statement.entry).Perm
      (task.brings o ++ w.users) := by
  rcases handBack_cases ho w.lent w.statements with
      ⟨h, -, hb⟩ | ⟨st, h, -, hb⟩ | ⟨k, st, hu, h, -, hb⟩ <;> rw [h, hb]
  · exact .refl _
  · have hnot : w.lent ∉ w.statements.keys := fun hk => Nat.lt_irrefl _ (tidy.numbered _ hk)
    have hp := w.statements.entries_insert_perm w.lent st
    rw [Table.erase_of_not_mem hnot] at hp
    exact (hp.map Prod.snd).map Statement.entry
  · obtain ⟨st', hg, he⟩ := Option.map_eq_some_iff.1 (huse k st.entry hu)
    have hp := ((w.statements.entries_insert_perm k st).map Prod.snd).map Statement.entry
    have hq := ((Table.entries_perm hg).map Prod.snd).map Statement.entry
    simp only [List.map_cons, he] at hp hq
    exact hp.trans hq.symm

theorem proceed (tidy : Tidy w) (hm : m.Of task.kind)
    (huse : ∀ n e, task.inUse = some (n, e) → w.entryOf n = some e) :
    Tidy (w.proceed t task own m) := by
  have hkinds : ∀ f ∈ (w.proceed t task own m).frames, f.point.kind = f.task.kind :=
    forall_proceed tidy.kinds fun q hq => by simpa [Move.Of, hq] using hm
  cases hn : m.next with
  | inl p =>
    rw [w.proceed_pause t task own hn] at hkinds ⊢
    refine ⟨hkinds, fun f hf => ?_, tidy.numbered⟩
    rcases List.mem_cons.1 hf with rfl | hf
    · exact huse
    · exact tidy.inHand f hf
  | inr o =>
    have ho : o.Of task.kind := by simpa [Move.Of, hn] using hm
    rw [w.proceed_end t task own hn] at hkinds ⊢
    exact ⟨hkinds, fun f hf n e hu => tidy.entry_handBack ho huse (tidy.inHand f hf n e hu),
      fun n hk => tidy.numbered_handBack ho huse hk⟩

theorem task?_use {M : Machine} {w : World M E} {a : Action} {n : Nat} {st : Statement} {u : Use}
    (h : w.task? a = some (.use n st u)) :
    w.statements.get? n = some st ∧ ∀ f ∈ w.frames, f.allows n u = true := by
  cases a with
  | use k v =>
    simp only [World.task?] at h
    split at h
    · next st' hg =>
      split at h
      · next hall =>
        cases h
        exact ⟨hg, by simpa using hall⟩
      · cases h
    · cases h
  | drop =>
    simp only [World.task?] at h
    split at h <;> cases h
  | _ => cases h

theorem ne_of_allows {f : Frame (phases c)} {n k : Nat} {e : Entry}
    (h : f.allows n .release = true) (hu : f.task.inUse = some (k, e)) : k ≠ n := by
  obtain ⟨t, task, p, answer⟩ := f
  cases task with
  | use j st u =>
    have hk : j = k := by cases u <;> simp_all [Task.inUse]
    rw [← hk]
    simpa [Frame.allows, Use.shared] using h
  | _ => cases hu

theorem takeOver_cases (task : Task) (statements : Table Nat Statement) :
    (∃ n, ∃ st : Statement, task = .use n st .release) ∨
      (∀ e, task.kind ≠ .releases e) ∧ task.takeOver statements = statements := by
  cases task with
  | use n st u =>
    cases u with
    | release => exact .inl ⟨n, st, rfl⟩
    | _ => exact .inr ⟨fun _ h => (by cases h), rfl⟩
  | _ => exact .inr ⟨fun _ h => (by cases h), rfl⟩

theorem entryOf_inUse {a : Action} (ht : w.task? a = some task) {n : Nat} {e : Entry}
    (hu : task.inUse = some (n, e)) : (w.entered t task).entryOf n = some e := by
  cases task with
  | use k st u =>
    cases u with
    | release => cases hu
    | _ =>
      cases hu
      exact congrArg (Option.map Statement.entry) (task?_use ht).1
  | _ => cases hu

theorem entered (tidy : Tidy w) {a : Action} (ht : w.task? a = some task) :
    Tidy (w.entered t task) := by
  rcases takeOver_cases task w.statements with ⟨n, st, rfl⟩ | ⟨-, hs⟩
  · obtain ⟨-, hall⟩ := task?_use ht
    refine ⟨tidy.kinds, fun f hf k e hu => ?_, fun k hk => tidy.numbered k ?_⟩
    · show ((w.statements.erase n).get? k).map Statement.entry = some e
      rw [Table.get?_erase, if_neg (ne_of_allows (hall f hf) hu)]
      exact tidy.inHand f hf k e hu
    · have hk : k ∈ (w.statements.erase n).keys := hk
      rw [Table.keys_erase] at hk
      exact (List.mem_filter.1 hk).1
  · refine ⟨tidy.kinds, fun f hf k e hu => ?_, fun k hk => tidy.numbered k ?_⟩
    · show ((task.takeOver w.statements).get? k).map Statement.entry = some e
      rw [hs]
      exact tidy.inHand f hf k e hu
    · exact hs ▸ hk

theorem returned (tidy : Tidy w) {i : Nat} {call : EngineCall} : Tidy (w.returned i t call) where
  kinds f hm := tidy.kinds f (List.mem_of_mem_eraseIdx hm)
  inHand f hm := tidy.inHand f (List.mem_of_mem_eraseIdx hm)
  numbered := tidy.numbered

/-- **Every step keeps things tidy.** -/
theorem step (tidy : Tidy w) {l : Label E} (h : w.step l = some w') : Tidy w' := by
  cases World.step_cases h with
  | start ht => exact (tidy.entered ht).proceed (start_of _) fun n e hu => entryOf_inUse ht hu
  | act hf =>
    exact ⟨forall_acted hf tidy.kinds id, forall_acted hf tidy.inHand id, tidy.numbered⟩
  | @resume i t task p answer hf hn =>
    have hmem : (⟨t, task, p, some answer⟩ : Frame (phases c)) ∈ w.frames := List.mem_of_getElem? hf
    have hk : p.kind = task.kind := tidy.kinds _ hmem
    exact tidy.returned.proceed (hk ▸ resume_of p answer) (tidy.inHand _ hmem)
  | drift e => exact ⟨tidy.kinds, tidy.inHand, tidy.numbered⟩

end Tidy

theorem run_tidy {w : World (phases c) E} {e : E.State}
    {ok : World (phases c) E → Label E → World (phases c) E → Prop} {ls : List (Label E)}
    (run : Run (phases c) E e ok ls w) : Tidy w := by
  induction run with
  | nil => exact .initial e
  | snoc _ hs _ ih => exact ih.step hs

end ConfinedDb.Interleaving
