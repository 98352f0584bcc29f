import Mathlib.Data.List.Basic

/-! Objects on a heap, each one referred to by its position in the list of all that were
ever allocated: a new object is appended, a call on one changes it in place, and a
released one stays where it was. -/
namespace QuickConnect.Heap
variable {α : Type} {objects : List α} {x : α} {i : Nat}

theorem found_allocated (found : objects[i]? = some x) (more : List α) :
    (objects ++ more)[i]? = some x := by
  have inside := (List.getElem?_eq_some_iff.mp found).1
  rw [List.getElem?_append_left inside,found]

theorem every_allocated {P : α → Prop} (every : ∀ y ∈ objects, P y) (fresh : P x) :
    ∀ y ∈ objects ++ [x], P y :=
  List.forall_mem_append.mpr ⟨every,List.forall_mem_singleton.mpr fresh⟩

/-- A call on the object at `i` leaves what holds of every object, if it leaves it for that one. -/
theorem every_changed {P : α → Prop} {change : α → α} (every : ∀ y ∈ objects, P y)
    (own : ∀ y, objects[i]? = some y → P (change y)) :
    ∀ y ∈ objects.modify i change, P y := by
  intro y member
  obtain ⟨j,at_j⟩ := List.mem_iff_getElem?.mp member
  rw [List.getElem?_modify] at at_j
  obtain ⟨old,before,rfl⟩ := Option.map_eq_some_iff.mp at_j
  by_cases here : i = j
  · subst here
    rw [if_pos rfl]
    exact own old before
  · rw [if_neg here]
    exact every old (List.mem_of_getElem? before)

section Related
variable {β : Type} {others : List β} {y : β} {R : α → β → Prop}

/-- Two heaps with the same addresses, whose objects belong together address by address. -/
structure Related (R : α → β → Prop) (objects : List α) (others : List β) : Prop where
  length : objects.length = others.length
  pair : ∀ (i : Nat) (x : α) (y : β), objects[i]? = some x → others[i]? = some y → R x y

theorem Related.nil : Related R [] [] where
  length := rfl
  pair i x y found := by cases found

theorem Related.other (related : Related R objects others) (found : objects[i]? = some x) :
    ∃ y, others[i]? = some y ∧ R x y := by
  have inside := (List.getElem?_eq_some_iff.mp found).1
  rw [related.length] at inside
  have there := List.getElem?_eq_getElem inside
  exact ⟨_,there,related.pair i x _ found there⟩

theorem Related.allocated (related : Related R objects others) (fresh : R x y) :
    Related R (objects ++ [x]) (others ++ [y]) where
  length := by simp [related.length]
  pair j u v left right := by
    have length := related.length
    rcases Nat.lt_trichotomy j objects.length with inside | here | outside
    · rw [List.getElem?_append_left inside] at left
      rw [List.getElem?_append_left (length ▸ inside)] at right
      exact related.pair j u v left right
    · subst here
      rw [List.getElem?_append_right (Nat.le_refl _),Nat.sub_self] at left
      rw [length,List.getElem?_append_right (Nat.le_refl _),Nat.sub_self] at right
      cases left
      cases right
      exact fresh
    · have bound := (List.getElem?_eq_some_iff.mp left).1
      rw [List.length_append,List.length_singleton] at bound
      omega

/-- A call changes the object in one heap and what belongs to it in the other. -/
theorem Related.changed (related : Related R objects others)
    (own : ∀ x, objects[i]? = some x → R x y) : Related R objects (others.set i y) where
  length := by rw [List.length_set,related.length]
  pair j u v left right := by
    rw [List.getElem?_set] at right
    split at right
    · rename_i same
      subst same
      split at right
      · cases right
        exact own u left
      · cases right
    · exact related.pair j u v left right

theorem Related.modified {change : α → α} (related : Related R objects others)
    (own : ∀ x y, objects[i]? = some x → R (change x) y) :
    Related R (objects.modify i change) others where
  length := by rw [List.length_modify,related.length]
  pair j u v left right := by
    rw [List.getElem?_modify] at left
    obtain ⟨old,before,rfl⟩ := Option.map_eq_some_iff.mp left
    by_cases same : i = j
    · subst same
      rw [if_pos rfl]
      exact own old v before
    · rw [if_neg same]
      exact related.pair j old v before right

end Related

end QuickConnect.Heap
