import Mathlib.Data.Nat.Count

/-! Forests whose nodes are numbered in the order in which they are added: a new node comes
under the last one or one above it, so that every subtree is a run of consecutive numbers.
`parent` is -1 for a root. -/
namespace QuickConnect.Numbering

/-- Among `n` nodes `k` is the last one or above it, or stands for no node at all. -/
structure Above (parent : Nat → Int) (n : Nat) (k : Int) : Prop where
  low : -1 ≤ k
  high : k < n
  between : ∀ q : Nat, k < q → q < n → k ≤ parent q

def Numbered (parent : Nat → Int) (n : Nat) : Prop := ∀ j < n, Above parent j (parent j)

section Build
variable {parent parent' : Nat → Int} {n : Nat} {k : Int}

theorem Above.congr (above : Above parent n k) (same : ∀ q < n, parent' q = parent q) :
    Above parent' n k where
  low := above.low
  high := above.high
  between q later inside := by
    rw [same q inside]
    exact above.between q later inside

theorem Numbered.congr (numbered : Numbered parent n) (same : ∀ q < n, parent' q = parent q) :
    Numbered parent' n := by
  intro j inside
  rw [same j inside]
  exact (numbered j inside).congr (fun q before => same q (before.trans inside))

theorem above_newest (parent : Nat → Int) (n : Nat) : Above parent n ((n : Int) - 1) where
  low := by omega
  high := by omega
  between q later inside := by omega

theorem Above.up {i : Nat} (above : Above parent n i) (numbered : Numbered parent n) :
    Above parent n (parent i) := by
  have inside : i < n := Int.ofNat_lt.mp above.high
  have upper := numbered i inside
  refine ⟨upper.low,upper.high.trans above.high,?_⟩
  intro q later before
  rcases Nat.lt_trichotomy q i with less | rfl | more
  · exact upper.between q later less
  · exact Int.le_refl _
  · exact (Int.le_of_lt upper.high).trans (above.between q (Int.ofNat_lt.mpr more) before)

theorem Numbered.push (numbered : Numbered parent n) (above : Above parent n (parent n)) :
    Numbered parent (n + 1) := by
  intro j inside
  rcases Nat.lt_succ_iff_lt_or_eq.mp inside with before | rfl
  · exact numbered j before
  · exact above

theorem Above.push (above : Above parent n k) (under : k ≤ parent n) :
    Above parent (n + 1) k where
  low := above.low
  high := above.high.trans (Int.ofNat_lt.mpr (Nat.lt_succ_self n))
  between q later inside := by
    rcases Nat.lt_succ_iff_lt_or_eq.mp inside with before | rfl
    · exact above.between q later before
    · exact under

/-- How many nodes come directly under `i`. -/
def children (parent : Nat → Int) (n i : Nat) : Nat := Nat.count (fun q => parent q = i) n

theorem children_congr {i : Nat} (same : ∀ q < n, parent' q = parent q) :
    children parent' n i = children parent n i := by
  apply Nat.le_antisymm
  · apply Nat.count_mono_left
    intro q inside child
    rw [← same q inside]
    exact child
  · apply Nat.count_mono_left
    intro q inside child
    rw [same q inside]
    exact child

theorem children_push {i : Nat} :
    children parent (n + 1) i = children parent n i + if parent n = i then 1 else 0 :=
  Nat.count_succ _ _

theorem Numbered.childless (numbered : Numbered parent (n + 1)) :
    children parent (n + 1) n = 0 := by
  apply Nat.count_iff_forall_not.mpr
  intro q inside child
  have high := (numbered q inside).high
  rw [child] at high
  omega

end Build

section Skip
variable {parent : Nat → Int} {n i last : Nat}

/-- The children of `i` behind the node `last`. -/
def childrenBehind (parent : Nat → Int) (n i last : Nat) : Nat :=
  Nat.count (fun q => last < q ∧ parent q = i) n

/-- From `i` to `last` there are whole subtrees of the children of `i` and nothing else. -/
structure Passed (parent : Nat → Int) (n i last : Nat) : Prop where
  start : i ≤ last
  inside : last < n
  below : ∀ q, i < q → q ≤ last → (i : Int) ≤ parent q
  closed : ∀ q, last < q → q < n → parent q ≤ i ∨ (last : Int) < parent q

/-- From `i` to `last` there is the subtree of `i` and nothing else. -/
structure Ends (parent : Nat → Int) (n i last : Nat) : Prop where
  passed : Passed parent n i last
  childless : ∀ q, last < q → q < n → parent q ≠ i

theorem passed_self (inside : i < n) : Passed parent n i i where
  start := Nat.le_refl _
  inside := inside
  below _ later before := absurd later (Nat.not_lt.mpr before)
  closed _ _ _ := le_or_gt _ _

theorem childrenBehind_self (numbered : Numbered parent n) :
    childrenBehind parent n i i = children parent n i := by
  apply Nat.le_antisymm
  · apply Nat.count_mono_left
    intro q _ child
    exact child.2
  · apply Nat.count_mono_left
    intro q inside child
    have under := (numbered q inside).high
    rw [child] at under
    exact ⟨Int.ofNat_lt.mp under,child⟩

/-- The next child of `i` stands right behind the subtrees that are passed. -/
theorem Passed.next_child (passed : Passed parent n i last) (numbered : Numbered parent n)
    (more : childrenBehind parent n i last ≠ 0) : last + 1 < n ∧ parent (last + 1) = i := by
  obtain ⟨child,inside,later,under⟩ := Nat.count_ne_iff_exists.mp more
  rcases Nat.lt_or_eq_of_le (Nat.succ_le_of_lt later) with before | rfl
  · have here := before.trans inside
    have low : (i : Int) ≤ parent (last + 1) := by
      have between := (numbered child inside).between (last + 1)
      rw [under] at between
      apply between _ before
      exact Int.ofNat_lt.mpr (Nat.lt_succ_of_le passed.start)
    have high : parent (last + 1) < ((last + 1 : Nat) : Int) := (numbered _ here).high
    rcases passed.closed (last + 1) (Nat.lt_succ_self _) here with upper | deeper
    · exact ⟨here,Int.le_antisymm upper low⟩
    · push_cast at high
      omega
  · exact ⟨inside,under⟩

theorem Passed.child {next : Nat} (passed : Passed parent n i last)
    (under : parent (last + 1) = i) (ends : Ends parent n (last + 1) next) :
    Passed parent n i next where
  start := passed.start.trans ((Nat.le_succ _).trans ends.passed.start)
  inside := ends.passed.inside
  below q later before := by
    rcases Nat.lt_trichotomy q (last + 1) with earlier | rfl | inner
    · exact passed.below q later (Nat.lt_succ_iff.mp earlier)
    · exact Int.le_of_eq under.symm
    · have low := ends.passed.below q inner before
      have start := passed.start
      push_cast at low
      omega
  closed q later inside := by
    have ahead := ends.passed.start
    have first := ends.passed.closed q later inside
    have second := passed.closed q (by omega) inside
    have apart := ends.childless q later inside
    push_cast at first apart
    omega

theorem Passed.child_count {next : Nat} (passed : Passed parent n i last)
    (under : parent (last + 1) = i) (ends : Ends parent n (last + 1) next) :
    childrenBehind parent n i last = childrenBehind parent n i next + 1 := by
  have ahead := ends.passed.start
  have inside := ends.passed.inside
  have start := passed.start
  have split : (Finset.range n).filter (fun q => last < q ∧ parent q = i) =
      insert (last + 1) ((Finset.range n).filter (fun q => next < q ∧ parent q = i)) := by
    ext q
    simp only [Finset.mem_filter,Finset.mem_range,Finset.mem_insert]
    constructor
    · rintro ⟨before,later,child⟩
      rcases Nat.lt_or_ge next q with behind | within
      · exact Or.inr ⟨before,behind,child⟩
      · rcases Nat.lt_or_eq_of_le (Nat.succ_le_of_lt later) with inner | same
        · have low := ends.passed.below q inner within
          push_cast at low
          omega
        · exact Or.inl same.symm
    · rintro (rfl | ⟨before,behind,child⟩)
      · exact ⟨by omega,Nat.lt_succ_self _,under⟩
      · exact ⟨before,by omega,child⟩
  rw [childrenBehind,childrenBehind,Nat.count_eq_card_filter_range,
    Nat.count_eq_card_filter_range,split,Finset.card_insert_of_notMem]
  simp only [Finset.mem_filter,not_and]
  intro _ behind
  omega

theorem Passed.ends (passed : Passed parent n i last)
    (none : childrenBehind parent n i last = 0) : Ends parent n i last where
  passed := passed
  childless q later inside child := Nat.count_iff_forall_not.mp none q inside ⟨later,child⟩

end Skip
end QuickConnect.Numbering
