import Mathlib.Data.List.Infix

/-! Streams of words none of which is the front of another, and words that end with a mark: a
name between two separators. -/
namespace QuickConnect.PrefixCode
variable {α β : Type} {Good : α → Prop} {word : α → List β}

/-- Of the good letters none has a word that is the front of another's. -/
def Free (Good : α → Prop) (word : α → List β) : Prop :=
  ∀ a b, Good a → Good b → word a <+: word b → a = b

theorem Free.first (free : Free Good word) {a b : α} (good : Good a) (good' : Good b)
    {rest rest' : List β} (front : word a ++ rest <+: word b ++ rest') : a = b := by
  have own : word a <+: word b ++ rest' := (List.prefix_append _ _).trans front
  rcases List.prefix_or_prefix_of_prefix own (List.prefix_append _ _) with shorter | longer
  · exact free a b good good' shorter
  · exact (free b a good' good longer).symm

/-- A stream is read in one way only, also while it is still being written. -/
theorem Free.stream (free : Free Good word) (filled : ∀ a, word a ≠ []) {as bs : List α}
    (good : ∀ a ∈ as, Good a) (good' : ∀ b ∈ bs, Good b)
    (front : as.flatMap word <+: bs.flatMap word) : as <+: bs := by
  induction as generalizing bs with
  | nil => exact List.nil_prefix
  | cons a as ih =>
    rw [List.flatMap_cons] at front
    cases bs with
    | nil =>
      rw [List.flatMap_nil,List.prefix_nil,List.append_eq_nil_iff] at front
      exact absurd front.1 (filled a)
    | cons b bs =>
      rw [List.flatMap_cons] at front
      have same := free.first (good a List.mem_cons_self) (good' b List.mem_cons_self) front
      subst same
      rw [List.prefix_append_right_inj] at front
      have rest := ih (fun x inside => good x (List.mem_cons_of_mem _ inside))
        (fun x inside => good' x (List.mem_cons_of_mem _ inside)) front
      exact (List.prefix_cons_inj a).mpr rest

section Marks
variable {separator : β} {name : List β}

def mark (separator : β) (name : List β) : List β := separator :: name ++ [separator]

/-- No line of the text is the name. -/
def Unmarked (separator : β) (name text : List β) : Prop :=
  ¬mark separator name <:+: separator :: text ++ [separator]

/-- A mark overlaps itself in one separator at most. -/
theorem mark_overlap (plain : separator ∉ name) {front behind : List β} (filled : front ≠ [])
    (split : mark separator name = front ++ separator :: behind) : behind = [] := by
  cases front with
  | nil => exact absurd rfl filled
  | cons first front =>
    rw [mark,List.cons_append,List.cons_append,List.cons.injEq] at split
    rcases List.eq_nil_or_concat behind with none | ⟨more,last,rfl⟩
    · exact none
    · have regrouped : name ++ [separator] = (front ++ separator :: more) ++ [last] := by
        rw [split.2]
        simp
      have whole := (List.append_inj' regrouped rfl).1
      exact absurd (whole ▸ List.mem_append_right front List.mem_cons_self) plain

/-- A text without the mark is what stands in front of the first one. -/
theorem Unmarked.unique (plain : separator ∉ name) {text text' : List β}
    (unmarked : Unmarked separator name text')
    (front : text ++ mark separator name <+: text' ++ mark separator name) : text = text' := by
  have shorter : text.length ≤ text'.length := by
    have lengths := front.length_le
    rw [List.length_append,List.length_append] at lengths
    omega
  obtain ⟨more,rfl⟩ := List.prefix_of_prefix_length_le ((List.prefix_append _ _).trans front)
    (List.prefix_append text' _) shorter
  rw [List.append_assoc,List.prefix_append_right_inj] at front
  by_contra different
  have filled : more ≠ [] := by
    rintro rfl
    exact different (List.append_nil text).symm
  have inside : ∀ part, mark separator name = part → ¬part <:+: more ++ [separator] := by
    rintro _ rfl within
    refine unmarked (within.trans ?_)
    exact ⟨separator :: text,[],by simp⟩
  rcases List.prefix_or_prefix_of_prefix front (List.prefix_append more _) with whole | partly
  · exact inside _ rfl (whole.isInfix.trans (List.prefix_append more _).isInfix)
  · obtain ⟨behind,split⟩ := partly
    rw [← split,List.prefix_append_right_inj,split] at front
    cases behind with
    | nil =>
      rw [List.append_nil] at split
      exact inside more split.symm (List.prefix_append more _).isInfix
    | cons first behind =>
      rw [mark,List.cons_append,List.cons_prefix_cons] at front
      cases front.1
      cases mark_overlap plain filled split.symm
      exact inside _ split.symm List.infix_rfl

end Marks

end QuickConnect.PrefixCode
