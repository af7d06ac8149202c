/-!
# Tables

A finite map that keeps its entries in the order in which their keys came in. A key that is entered
again keeps its place; a removed key leaves the order of the others as it was.
-/
namespace ConfinedDb

/-- Entries with pairwise distinct keys, oldest first. -/
structure Table (κ ν : Type) where
  entries : List (κ × ν)
  distinct : (entries.map Prod.fst).Nodup

namespace Table

variable {κ ν : Type}

instance [DecidableEq κ] [DecidableEq ν] : DecidableEq (Table κ ν) := fun a b =>
  decidable_of_iff (a.entries = b.entries) <| by cases a; cases b; simp

instance [Repr κ] [Repr ν] : Repr (Table κ ν) := ⟨fun t n => reprPrec t.entries n⟩

def empty : Table κ ν := ⟨[], List.nodup_nil⟩

instance : Inhabited (Table κ ν) := ⟨empty⟩
instance : EmptyCollection (Table κ ν) := ⟨empty⟩

def keys (t : Table κ ν) : List κ := t.entries.map Prod.fst

/-- The values, in the order of their keys. -/
def values (t : Table κ ν) : List ν := t.entries.map Prod.snd

def size (t : Table κ ν) : Nat := t.entries.length

def isEmpty (t : Table κ ν) : Bool := t.entries.isEmpty

def first? (t : Table κ ν) : Option (κ × ν) := t.entries.head?

section Keyed

variable [DecidableEq κ]

def get? (t : Table κ ν) (k : κ) : Option ν := (t.entries.find? (·.1 = k)).map Prod.snd

def contains (t : Table κ ν) (k : κ) : Bool := t.entries.any (·.1 = k)

/-- Replaces the value of a key in its place, or appends an entry for a new key. -/
def put (k : κ) (v : ν) : List (κ × ν) → List (κ × ν)
  | [] => [(k, v)]
  | e :: rest => if e.1 = k then (k, v) :: rest else e :: put k v rest

theorem keys_put (k : κ) (v : ν) (l : List (κ × ν)) :
    (put k v l).map Prod.fst
      = if k ∈ l.map Prod.fst then l.map Prod.fst else l.map Prod.fst ++ [k] := by
  induction l with
  | nil => rfl
  | cons e rest ih =>
    by_cases h : e.1 = k
    · simp [put, h]
    · simp only [put, h, if_false, List.map_cons, ih, List.mem_cons, Ne.symm h, false_or]
      split <;> simp

def insert (t : Table κ ν) (k : κ) (v : ν) : Table κ ν :=
  ⟨put k v t.entries, by
    rw [keys_put]
    split
    · exact t.distinct
    · next h =>
      refine List.nodup_append.2 ⟨t.distinct, by simp, ?_⟩
      intro a ha b hb
      simp only [List.mem_singleton] at hb
      subst hb
      exact fun e => h (e ▸ ha)⟩

def erase (t : Table κ ν) (k : κ) : Table κ ν :=
  ⟨t.entries.filter (·.1 ≠ k), t.distinct.sublist (List.filter_sublist.map Prod.fst)⟩

/-- Changes the value of a key, if it has one. -/
def modify (t : Table κ ν) (k : κ) (f : ν → ν) : Table κ ν :=
  match t.get? k with
  | some v => t.insert k (f v)
  | none => t

/-! ## The table as a map -/

theorem mem_entries_iff (t : Table κ ν) (k : κ) (v : ν) :
    (k, v) ∈ t.entries ↔ t.get? k = some v := by
  obtain ⟨l, hd⟩ := t
  unfold get?
  induction l with
  | nil => simp
  | cons e rest ih =>
    simp only [List.map_cons, List.nodup_cons] at hd
    by_cases h : e.1 = k
    · subst h
      simp only [List.mem_cons, List.find?_cons, decide_true, Option.map_some, Option.some.injEq]
      refine ⟨fun hm => ?_, fun hv => .inl (by rw [← hv])⟩
      rcases hm with he | hm
      · rw [← he]
      · exact absurd (List.mem_map_of_mem (f := Prod.fst) hm) hd.1
    · have hne : (k, v) ≠ e := fun he => h (by rw [← he])
      simp only [List.mem_cons, hne, false_or, List.find?_cons, h, decide_false]
      exact ih hd.2

@[simp] theorem get?_empty (k : κ) : (∅ : Table κ ν).get? k = none := rfl

theorem find?_put (k j : κ) (v : ν) (l : List (κ × ν)) :
    ((put k v l).find? (·.1 = j)).map Prod.snd
      = if j = k then some v else (l.find? (·.1 = j)).map Prod.snd := by
  induction l with
  | nil => by_cases h : k = j <;> simp [put, h, eq_comm]
  | cons e rest ih =>
    by_cases hk : e.1 = k
    · by_cases hj : j = k
      · simp [put, hk, hj]
      · simp [put, hk, hj, Ne.symm hj]
    · by_cases he : e.1 = j
      · have hj : j ≠ k := fun h => hk (he.trans h)
        simp [put, he, hj]
      · simpa [put, hk, he] using ih

theorem find?_filter_ne (k j : κ) (l : List (κ × ν)) :
    ((l.filter (·.1 ≠ k)).find? (·.1 = j)).map Prod.snd
      = if j = k then none else (l.find? (·.1 = j)).map Prod.snd := by
  induction l with
  | nil => simp
  | cons e rest ih =>
    by_cases hk : e.1 = k
    · by_cases hj : j = k
      · simp [hj]
      · simpa [hk, hj, Ne.symm hj] using ih
    · by_cases he : e.1 = j
      · have hj : j ≠ k := fun h => hk (he.trans h)
        simp [he, hj]
      · simpa [hk, he] using ih

theorem get?_insert (t : Table κ ν) (k j : κ) (v : ν) :
    (t.insert k v).get? j = if j = k then some v else t.get? j :=
  find?_put k j v t.entries

theorem get?_erase (t : Table κ ν) (k j : κ) :
    (t.erase k).get? j = if j = k then none else t.get? j :=
  find?_filter_ne k j t.entries

theorem get?_modify (t : Table κ ν) (k j : κ) (f : ν → ν) :
    (t.modify k f).get? j = if j = k then (t.get? j).map f else t.get? j := by
  unfold modify
  split
  · next v hk =>
    rw [get?_insert]
    split
    · next h => simp [h, hk]
    · rfl
  · next hk =>
    split
    · next h => simp [h, hk]
    · rfl

theorem contains_eq (t : Table κ ν) (k : κ) : t.contains k = (t.get? k).isSome := by
  rw [Bool.eq_iff_iff]
  simp [contains, get?, List.find?_isSome]

/-! ## The order of the keys -/

theorem keys_insert (t : Table κ ν) (k : κ) (v : ν) :
    (t.insert k v).keys = if k ∈ t.keys then t.keys else t.keys ++ [k] :=
  keys_put k v t.entries

theorem keys_erase (t : Table κ ν) (k : κ) : (t.erase k).keys = t.keys.filter (· ≠ k) := by
  simp only [keys, erase, List.filter_map]
  rfl

theorem contains_iff (t : Table κ ν) (k : κ) : t.contains k = true ↔ k ∈ t.keys := by
  simp [contains, keys]

/-! ## The entries up to their order -/

theorem perm_filter_ne {k : κ} {v : ν} {l : List (κ × ν)} (hd : (l.map Prod.fst).Nodup)
    (hm : (k, v) ∈ l) : l.Perm ((k, v) :: l.filter (·.1 ≠ k)) := by
  induction l with
  | nil => cases hm
  | cons e rest ih =>
    obtain ⟨hnot, hd⟩ := List.nodup_cons.1 hd
    rcases List.mem_cons.1 hm with rfl | hm
    · have hrest : rest.filter (·.1 ≠ k) = rest := by
        refine List.filter_eq_self.2 fun e he => ?_
        have hk : e.1 ∈ rest.map Prod.fst := List.mem_map_of_mem he
        have hne : e.1 ≠ k := fun h => hnot (h ▸ hk)
        simpa using hne
      rw [List.filter_cons_of_neg (by simp), hrest]
    · have hk : k ∈ rest.map Prod.fst := List.mem_map_of_mem (f := Prod.fst) hm
      have hne : e.1 ≠ k := fun h => hnot (h ▸ hk)
      rw [List.filter_cons_of_pos (by simpa using hne)]
      exact ((ih hd hm).cons e).trans (.swap _ _ _)

theorem entries_perm {t : Table κ ν} {k : κ} {v : ν} (hg : t.get? k = some v) :
    t.entries.Perm ((k, v) :: (t.erase k).entries) :=
  perm_filter_ne t.distinct ((t.mem_entries_iff k v).2 hg)

theorem filter_put (k : κ) (v : ν) (l : List (κ × ν)) :
    (put k v l).filter (·.1 ≠ k) = l.filter (·.1 ≠ k) := by
  induction l with
  | nil => simp [put]
  | cons e rest ih =>
    by_cases hk : e.1 = k
    · simp [put, hk]
    · simp only [put, hk, if_false, ne_eq, not_false_eq_true, decide_true, List.filter_cons_of_pos]
      rw [ih]

theorem entries_insert_perm (t : Table κ ν) (k : κ) (v : ν) :
    (t.insert k v).entries.Perm ((k, v) :: (t.erase k).entries) := by
  have hg : (t.insert k v).get? k = some v := by simp [get?_insert]
  have he : ((t.insert k v).erase k).entries = (t.erase k).entries := filter_put k v t.entries
  exact he ▸ entries_perm hg

theorem erase_of_not_mem {t : Table κ ν} {k : κ} (hk : k ∉ t.keys) :
    (t.erase k).entries = t.entries := by
  refine List.filter_eq_self.2 fun e he => ?_
  have hm : e.1 ∈ t.keys := List.mem_map_of_mem he
  have hne : e.1 ≠ k := fun h => hk (h ▸ hm)
  simpa using hne

end Keyed

end Table

end ConfinedDb
