/-!
# What lasts

Things that happened one after the other, oldest first. One of them lasts if it does something and
nothing later undoes that (`Lasts`). Whether it lasts is told from what lasted before the newest one
and from the newest one alone (**`lasts_concat`**).
-/
namespace ConfinedDb

variable {α : Type} {does undoes : α → Prop} {xs : List α} {x y : α} {i j : Nat}

/-- The `i`-th does something, and no later one undoes it. -/
structure Lasts (does undoes : α → Prop) (xs : List α) (i : Nat) : Prop where
  done : ∃ x, xs[i]? = some x ∧ does x
  stays : ∀ j y, i < j → xs[j]? = some y → ¬undoes y

theorem Lasts.lt (h : Lasts does undoes xs i) : i < xs.length := by
  obtain ⟨x, hx, -⟩ := h.done
  exact (List.getElem?_eq_some_iff.1 hx).1

/-- A place in a longer list is in the old one, or it is the last. -/
theorem getElem?_concat : (xs ++ [y])[i]? = some x ↔
    xs[i]? = some x ∨ (i = xs.length ∧ y = x) := by
  rcases Nat.lt_trichotomy i xs.length with hi | rfl | hi
  · simp [List.getElem?_append_left hi, Nat.ne_of_lt hi]
  · simp
  · have hpast : xs.length ≤ i := Nat.le_of_lt hi
    simp [List.getElem?_append_right hpast, List.getElem?_eq_none hpast, Nat.ne_of_gt hi,
      Nat.sub_ne_zero_of_lt hi]

/-- **What lasts once one more has happened.** -/
theorem lasts_concat : Lasts does undoes (xs ++ [y]) i ↔
    (Lasts does undoes xs i ∧ ¬undoes y) ∨ (i = xs.length ∧ does y) := by
  constructor
  · rintro ⟨⟨x, hx, hdoes⟩, hstays⟩
    rcases getElem?_concat.1 hx with hx | ⟨rfl, rfl⟩
    · have hi := (List.getElem?_eq_some_iff.1 hx).1
      refine .inl ⟨⟨⟨x, hx, hdoes⟩, fun j z hj hz => ?_⟩, ?_⟩
      · exact hstays j z hj (getElem?_concat.2 (.inl hz))
      · exact hstays xs.length y hi (getElem?_concat.2 (.inr ⟨rfl, rfl⟩))
    · exact .inr ⟨rfl, hdoes⟩
  · rintro (⟨h, hy⟩ | ⟨rfl, hdoes⟩)
    · obtain ⟨x, hx, hdoes⟩ := h.done
      refine ⟨⟨x, getElem?_concat.2 (.inl hx), hdoes⟩, fun j z hj hz => ?_⟩
      rcases getElem?_concat.1 hz with hz | ⟨-, rfl⟩
      · exact h.stays j z hj hz
      · exact hy
    · refine ⟨⟨y, getElem?_concat.2 (.inr ⟨rfl, rfl⟩), hdoes⟩, fun j z hj hz => ?_⟩
      have hlt := (List.getElem?_eq_some_iff.1 hz).1
      rw [List.length_append, List.length_singleton] at hlt
      exact absurd hlt (Nat.not_lt.2 hj)

theorem exists_lasts_concat : (∃ i, Lasts does undoes (xs ++ [y]) i) ↔
    ((∃ i, Lasts does undoes xs i) ∧ ¬undoes y) ∨ does y := by
  simp only [lasts_concat, exists_or, exists_and_right, exists_eq, true_and]

theorem not_lasts_nil : ¬Lasts does undoes [] i := fun h => absurd h.lt (Nat.not_lt_zero i)

end ConfinedDb
