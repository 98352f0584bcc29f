import Mathlib.Data.List.Basic

/-! A window of fixed room over a text that grows. A full window is given away only when
more text follows, so that the windows depend on the text alone and not on the pieces in
which it came. -/
namespace QuickConnect.Spool
variable {α : Type} {room : Nat} {text s held held' : List α} {given given' : List (List α)}

/-- The windows given away and what the present one holds make up the text. -/
structure Windows (room : Nat) (text : List α) (given : List (List α)) (held : List α) : Prop where
  whole : given.flatten ++ held = text
  full : ∀ window ∈ given, window.length = room
  fits : held.length ≤ room

/-- The present window is not empty if another one was given away before it. -/
structure Spooled (room : Nat) (text : List α) (given : List (List α)) (held : List α) : Prop
    extends Windows room text given held where
  awake : given ≠ [] → held ≠ []

theorem spooled_nil (room : Nat) : Spooled (α := α) room [] [] [] where
  whole := rfl
  full _ inside := absurd inside List.not_mem_nil
  fits := Nat.zero_le _
  awake some' := absurd rfl some'

theorem Windows.fill (windows : Windows room text given held)
    (fits : held.length + s.length ≤ room) : Windows room (text ++ s) given (held ++ s) where
  whole := by rw [← List.append_assoc,windows.whole]
  full := windows.full
  fits := by rw [List.length_append]; exact fits

theorem Windows.give (windows : Windows room text given held) (full : held.length = room) :
    Windows room text (given ++ [held]) [] where
  whole := by rw [List.flatten_concat,List.append_nil,windows.whole]
  full window inside := by
    rcases List.mem_append.mp inside with inside | inside
    · exact windows.full window inside
    · rw [List.mem_singleton.mp inside]
      exact full
  fits := Nat.zero_le _

theorem Spooled.fill (spooled : Spooled room text given held)
    (fits : held.length + s.length ≤ room) : Spooled room (text ++ s) given (held ++ s) where
  toWindows := spooled.toWindows.fill fits
  awake some' empty := spooled.awake some' (List.append_eq_nil_iff.mp empty).1

theorem Windows.length (windows : Windows room text given held) :
    text.length = given.length * room + held.length := by
  have lengths : given.map List.length = List.replicate given.length room := by
    apply List.eq_replicate_iff.mpr
    refine ⟨List.length_map _,?_⟩
    intro n inside
    obtain ⟨window,found,rfl⟩ := List.mem_map.mp inside
    exact windows.full window found
  rw [← windows.whole,List.length_append,List.length_flatten,lengths,List.sum_replicate_nat]

/-- A window follows whole, and the text goes on behind it. -/
theorem Windows.behind {window : List α} {behind : List (List α)}
    (windows : Windows room text (window :: behind) held) :
    window = text.take room ∧ Windows room (text.drop room) behind held := by
  have length := windows.full window List.mem_cons_self
  have whole := windows.whole
  rw [List.flatten_cons,List.append_assoc] at whole
  refine ⟨?_,?_,fun w inside => windows.full w (List.mem_cons_of_mem _ inside),windows.fits⟩
  · rw [← whole,← length,List.take_left]
  · rw [← whole,← length,List.drop_left]

theorem Spooled.length_pos {window : List α} {behind : List (List α)}
    (spooled : Spooled room text (window :: behind) held) : room < text.length := by
  have length := spooled.length
  have some' := List.length_pos_iff.mpr (spooled.awake (List.cons_ne_nil _ _))
  rw [List.length_cons,Nat.succ_mul] at length
  omega

/-- The windows of a text do not depend on how it was written. -/
theorem Spooled.unique (spooled : Spooled room text given held)
    (other : Spooled room text given' held') : given = given' ∧ held = held' := by
  induction given generalizing given' text with
  | nil =>
    have whole := spooled.whole
    rw [List.flatten_nil,List.nil_append] at whole
    cases given' with
    | nil =>
      have whole' := other.whole
      rw [List.flatten_nil,List.nil_append] at whole'
      exact ⟨rfl,whole.trans whole'.symm⟩
    | cons window behind =>
      have long := other.length_pos
      have fits := spooled.fits
      rw [whole] at fits
      omega
  | cons window behind ih =>
    cases given' with
    | nil =>
      have long := spooled.length_pos
      have whole' := other.whole
      have fits := other.fits
      rw [List.flatten_nil,List.nil_append] at whole'
      rw [whole'] at fits
      omega
    | cons window' behind' =>
      obtain ⟨same,rest⟩ := spooled.toWindows.behind
      obtain ⟨same',rest'⟩ := other.toWindows.behind
      obtain ⟨rfl,rfl⟩ := ih ⟨rest,fun _ => spooled.awake (List.cons_ne_nil _ _)⟩
        ⟨rest',fun _ => other.awake (List.cons_ne_nil _ _)⟩
      exact ⟨by rw [same,same'],rfl⟩

end QuickConnect.Spool
