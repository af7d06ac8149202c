import ConfinedDb.Proofs.Lasting
import ConfinedDb.Registry
import Mathlib.Data.List.Induction
/-!
# The history of a registry

A registry that was empty at first, and the changes that were made to it since, oldest first. What it
holds can be told from these changes alone. A change `Stands` for a handle if it registers it and no
later one takes it out; the handle has its place `Since` the first change that stands, and the text
of the last registration is the one that is `Held`.

`Recorded` says this of the registry: which handles it has, in which order and with which texts. A
change keeps it (`Recorded.change`), for each kind of change by what it does to `Stands`, `Since` and
`Held`. How a drain goes is settled by what the registry holds (`drain_take`), so that every history
settles it: **`drained_by_history`**.
-/
namespace ConfinedDb.Registry

/-! ## Changes -/

namespace Change

/-- The change takes the handle out, if it is there. -/
def Drops (h : StmtHandle) : Change → Prop
  | .remove k => k = h
  | .clear => True
  | .insert .. => False

def handle? : Change → Option StmtHandle
  | .insert h _ | .remove h => some h
  | .clear => none

end Change

/-- A registry that was empty at first, after these changes. -/
def replay (history : List Change) : Registry :=
  history.foldl (fun r c => (r.change c).2) .empty

/-- The `i`-th change registers the handle, and no later one takes it out. -/
def Stands (history : List Change) (h : StmtHandle) (i : Nat) : Prop :=
  Lasts (fun c => ∃ sql, c = .insert h sql) (Change.Drops h) history i

/-- The `i`-th change is the earliest one that registers the handle after it was last taken out. -/
structure Since (history : List Change) (h : StmtHandle) (i : Nat) : Prop where
  stands : Stands history h i
  earliest : ∀ j, Stands history h j → i ≤ j

/-- The latest change about the handle registers it with this text. -/
def Held (history : List Change) (h : StmtHandle) (sql : String) : Prop :=
  ∃ i, Lasts (· = .insert h sql) (fun c => c.Drops h ∨ c.handle? = some h) history i

variable {history : List Change} {h k : StmtHandle} {sql : String} {i : Nat}

/-! ## One more change -/

theorem stands_concat {c : Change} : Stands (history ++ [c]) h i ↔
    (Stands history h i ∧ ¬c.Drops h) ∨ (i = history.length ∧ ∃ sql, c = .insert h sql) :=
  lasts_concat

theorem held_concat {c : Change} : Held (history ++ [c]) h sql ↔
    (Held history h sql ∧ ¬c.Drops h ∧ c.handle? ≠ some h) ∨ c = .insert h sql := by
  rw [Held, exists_lasts_concat, not_or, Held]

/-! ## The place of a handle -/

/-- A handle that was registered and not taken out since has its place since some change. -/
theorem exists_since (s : Stands history h i) : ∃ i, Since history h i := by
  induction i using Nat.strongRecOn with
  | ind i ih =>
    by_cases hearlier : ∃ j, j < i ∧ Stands history h j
    · obtain ⟨j, hj, s'⟩ := hearlier
      exact ih j hj s'
    · exact ⟨i, s, fun j s' => Nat.le_of_not_lt fun hj => hearlier ⟨j, hj, s'⟩⟩

/-- A handle keeps its place while it stays in, also when it is registered again. -/
theorem since_concat_of_stands {c : Change} (s : Stands history h i) (stays : ¬c.Drops h) {j : Nat} :
    Since (history ++ [c]) h j ↔ Since history h j := by
  constructor
  · rintro ⟨s', hearliest⟩
    have hj : j ≤ i := hearliest i (stands_concat.2 (.inl ⟨s, stays⟩))
    refine ⟨?_, fun k s'' => hearliest k (stands_concat.2 (.inl ⟨s'', stays⟩))⟩
    rcases stands_concat.1 s' with ⟨s', -⟩ | ⟨rfl, -⟩
    · exact s'
    · exact absurd s.lt (Nat.not_lt.2 hj)
  · rintro ⟨s', hearliest⟩
    refine ⟨stands_concat.2 (.inl ⟨s', stays⟩), fun k s'' => ?_⟩
    rcases stands_concat.1 s'' with ⟨s'', -⟩ | ⟨rfl, -⟩
    · exact hearliest k s''
    · exact Nat.le_of_lt s'.lt

theorem since_concat_of_new (new : ∀ i, ¬Stands history h i) {j : Nat}
    (s : Since (history ++ [.insert h sql]) h j) : j = history.length := by
  rcases stands_concat.1 s.stands with ⟨s', -⟩ | ⟨rfl, -⟩
  · exact absurd s' (new j)
  · rfl

/-- The first handle has its place since an earlier change than the second. -/
def Before (history : List Change) (h k : StmtHandle) : Prop :=
  ∀ i j, Since history h i → Since history k j → i < j

/-! ## The registry after a history -/

/-- The registry holds what the history says, in the order that it says. -/
structure Recorded (history : List Change) (r : Registry) : Prop where
  handles : ∀ h, h ∈ r.table.keys ↔ ∃ i, Stands history h i
  texts : ∀ h sql, r.get? h = some sql ↔ Held history h sql
  ordered : r.table.keys.Pairwise (Before history)

namespace Recorded

variable {r : Registry}

theorem initial : Recorded [] .empty where
  handles _ := ⟨nofun, fun ⟨_, s⟩ => absurd s not_lasts_nil⟩
  texts _ _ := ⟨nofun, fun ⟨_, hheld⟩ => absurd hheld not_lasts_nil⟩
  ordered := .nil

/-- The order stays as it is for handles that are there before and after a change. -/
theorem ordered_concat (rec : Recorded history r) {c : Change} {hs : List StmtHandle}
    (sub : hs.Sublist r.table.keys) (stay : ∀ h ∈ hs, ¬c.Drops h) :
    hs.Pairwise (Before (history ++ [c])) := by
  refine (rec.ordered.sublist sub).imp_of_mem fun {a b} ha hb hbefore i j hi hj => ?_
  obtain ⟨_, sa⟩ := (rec.handles a).1 (sub.subset ha)
  obtain ⟨_, sb⟩ := (rec.handles b).1 (sub.subset hb)
  exact hbefore i j ((since_concat_of_stands sa (stay a ha)).1 hi)
    ((since_concat_of_stands sb (stay b hb)).1 hj)

theorem insert (rec : Recorded history r) (h : StmtHandle) (sql : String) :
    Recorded (history ++ [.insert h sql]) (r.insert h sql) where
  handles k := by
    show k ∈ (r.table.insert h sql).keys ↔ _
    have hkeys : k ∈ (r.table.insert h sql).keys ↔ k ∈ r.table.keys ∨ k = h := by
      rw [Table.keys_insert]
      split
      · next hm => exact ⟨.inl, fun hk => hk.elim id fun he => he ▸ hm⟩
      · simp
    rw [hkeys, rec.handles]
    constructor
    · rintro (⟨i, s⟩ | rfl)
      · exact ⟨i, stands_concat.2 (.inl ⟨s, id⟩)⟩
      · exact ⟨_, stands_concat.2 (.inr ⟨rfl, sql, rfl⟩)⟩
    · rintro ⟨i, s⟩
      rcases stands_concat.1 s with ⟨s, -⟩ | ⟨-, sql', hc⟩
      · exact .inl ⟨i, s⟩
      · cases hc
        exact .inr rfl
  texts k sql' := by
    rw [get?_insert, held_concat, ← rec.texts]
    by_cases hk : k = h
    · subst hk
      simp [Change.handle?]
    · simp [hk, Change.handle?, Change.Drops, Ne.symm hk]
  ordered := by
    show (r.table.insert h sql).keys.Pairwise _
    have hold : r.table.keys.Pairwise (Before (history ++ [.insert h sql])) :=
      rec.ordered_concat (.refl _) fun _ _ => id
    rw [Table.keys_insert]
    split
    · exact hold
    · next hnew =>
      refine List.pairwise_append.2 ⟨hold, List.pairwise_singleton _ _, ?_⟩
      intro k hk k' hk' i j hi hj
      cases List.mem_singleton.1 hk'
      have hj : j = history.length :=
        since_concat_of_new (fun i s => hnew ((rec.handles h).2 ⟨i, s⟩)) hj
      obtain ⟨_, s⟩ := (rec.handles k).1 hk
      rw [hj]
      exact ((since_concat_of_stands s id).1 hi).stands.lt

theorem remove (rec : Recorded history r) (h : StmtHandle) :
    Recorded (history ++ [.remove h]) (r.remove h) where
  handles k := by
    show k ∈ (r.table.erase h).keys ↔ _
    rw [Table.keys_erase, List.mem_filter, rec.handles]
    simp [stands_concat, Change.Drops, exists_and_right, ne_comm]
  texts k sql := by
    rw [get?_remove, held_concat, ← rec.texts]
    by_cases hk : k = h
    · simp [hk, Change.Drops]
    · simp [hk, Change.handle?, Change.Drops, Ne.symm hk]
  ordered := by
    show (r.table.erase h).keys.Pairwise _
    rw [Table.keys_erase]
    refine rec.ordered_concat List.filter_sublist fun k hk hdrops => ?_
    have hne := (List.mem_filter.1 hk).2
    simp [show h = k from hdrops] at hne

theorem clear (history : List Change) : Recorded (history ++ [.clear]) .empty where
  handles h := by
    refine ⟨nofun, ?_⟩
    rintro ⟨i, s⟩
    rcases stands_concat.1 s with ⟨-, hstays⟩ | ⟨-, sql, hc⟩
    · exact absurd trivial hstays
    · cases hc
  texts h sql := by
    refine ⟨nofun, fun hheld => ?_⟩
    rcases held_concat.1 hheld with ⟨-, hstays, -⟩ | hc
    · exact absurd trivial hstays
    · cases hc
  ordered := .nil

theorem change (rec : Recorded history r) (c : Change) :
    Recorded (history ++ [c]) (r.change c).2 := by
  cases c with
  | insert h sql => exact rec.insert h sql
  | remove h => exact rec.remove h
  | clear => exact .clear history

theorem told (rec : Recorded history r) (c : Change) (sql : String) :
    (r.change c).1 = some sql ↔ ∃ h, c.handle? = some h ∧ Held history h sql := by
  cases c with
  | insert h text => simpa [Registry.change, Change.handle?] using rec.texts h sql
  | remove h => simpa [Registry.change, Change.handle?] using rec.texts h sql
  | clear => simp [Registry.change, Change.handle?]

end Recorded

/-- The registry holds what its history says. -/
theorem recorded_replay (history : List Change) : Recorded history (replay history) := by
  induction history using List.reverseRecOn with
  | nil => exact .initial
  | append_singleton history c ih =>
    rw [replay, List.foldl_append]
    exact ih.change c

/-! ## Draining -/

/-- A drain is through after as many rounds as there are statements. -/
theorem drain_isEmpty_iff (r : Registry) (rounds : Nat) :
    (r.drain rounds).2.isEmpty = true ↔ r.size ≤ rounds := by
  have hleft := (drain_take rounds r).2
  show (r.drain rounds).2.toList.isEmpty = true ↔ r.toList.length ≤ rounds
  rw [hleft, List.isEmpty_iff, List.drop_eq_nil_iff]

/-- **A drain takes out what the history says, once and in the order of the history.** After exactly
as many rounds as there are statements nothing is left. What comes out is every handle that was
registered and not taken out since, with its latest text, one before the other as they have their
places since. A change tells the text that is held for its handle. -/
theorem drained_by_history (history : List Change) :
    let r := replay history
    let drained := (r.drain r.size).1
    (∀ rounds, (r.drain rounds).2.isEmpty = true ↔ r.size ≤ rounds) ∧
    drained.length = r.size ∧ (drained.map Prod.fst).Nodup ∧
    (∀ h, h ∈ drained.map Prod.fst ↔ ∃ i, Stands history h i) ∧
    (∀ h, h ∈ drained.map Prod.fst ↔ ∃ i, Since history h i) ∧
    drained.Pairwise (fun e e' => Before history e.1 e'.1) ∧
    (∀ h sql, (h, sql) ∈ drained ↔ Held history h sql) ∧
    ∀ c sql, (r.change c).1 = some sql ↔ ∃ h, c.handle? = some h ∧ Held history h sql := by
  intro r drained
  have hrec : Recorded history r := recorded_replay history
  have hdrained : drained = r.table.entries := drain_eq r.size r (Nat.le_refl _)
  have hkeys : drained.map Prod.fst = r.table.keys := congrArg (List.map Prod.fst) hdrained
  refine ⟨r.drain_isEmpty_iff, congrArg List.length hdrained, hkeys ▸ r.table.distinct,
    fun h => hkeys ▸ hrec.handles h, fun h => ?_, ?_, fun h sql => ?_, hrec.told⟩
  · rw [hkeys, hrec.handles]
    exact ⟨fun ⟨_, s⟩ => exists_since s, fun ⟨i, s⟩ => ⟨i, s.stands⟩⟩
  · have hordered := hrec.ordered
    rw [← hkeys] at hordered
    exact List.pairwise_map.1 hordered
  · rw [hdrained, ← hrec.texts]
    exact r.table.mem_entries_iff h sql

/-- A statement that was registered twice keeps its place, and one that was taken out loses it. -/
example :
    let (a, b, c) : StmtHandle × StmtHandle × StmtHandle :=
      (⟨8, by decide⟩, ⟨16, by decide⟩, ⟨24, by decide⟩)
    ((replay [.insert a "1", .insert b "2", .insert c "3", .insert b "4", .remove a,
      .insert a "5"]).drain 3).1 = [(b, "4"), (c, "3"), (a, "5")] := by
  decide

end ConfinedDb.Registry
