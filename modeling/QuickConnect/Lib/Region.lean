import QuickConnect.Lib.Text

/-! Byte arrays of a fixed size and the C strings they hold. A write that would leave
the array has no outcome, and neither has reading a string that nothing terminates. -/
namespace QuickConnect

namespace CString

def read : List UInt8 → Option Str
  | [] => none
  | byte :: rest => if byte = 0 then some [] else (read rest).map (byte :: ·)

theorem read_terminated {text : Str} (clean : 0 ∉ text) (rest : List UInt8) :
    read (text ++ 0 :: rest) = some text := by
  induction text with
  | nil => rfl
  | cons byte text ih =>
    have nonzero : byte ≠ 0 := by
      intro zero
      apply clean
      simp [zero]
    have tail : 0 ∉ text := fun inside => clean (List.mem_cons_of_mem _ inside)
    rw [List.cons_append,read,if_neg nonzero,ih tail]
    rfl

theorem read_some {bytes : List UInt8} {text : Str} (held : read bytes = some text) :
    0 ∉ text ∧ ∃ rest, bytes = text ++ 0 :: rest := by
  induction bytes generalizing text with
  | nil => cases held
  | cons byte bytes ih =>
    rw [read] at held
    by_cases zero : byte = 0
    · rw [if_pos zero] at held
      cases held
      exact ⟨by simp,bytes,by simp [zero]⟩
    · rw [if_neg zero] at held
      obtain ⟨tail,found,rfl⟩ := Option.map_eq_some_iff.mp held
      obtain ⟨clean,rest,rfl⟩ := ih found
      refine ⟨?_,rest,rfl⟩
      intro inside
      rcases List.mem_cons.mp inside with same | inside
      · exact zero same.symm
      · exact clean inside

theorem read_of_mem {bytes : List UInt8} (terminated : 0 ∈ bytes) : ∃ text, read bytes = some text := by
  obtain ⟨text,rest,rfl,clean⟩ := List.eq_append_cons_of_mem terminated
  exact ⟨text,read_terminated clean rest⟩

/-- What has no terminator is read whole, and then the rest. -/
theorem read_append {front : List UInt8} (clean : 0 ∉ front) (rest : List UInt8) :
    read (front ++ rest) = (read rest).map (front ++ ·) := by
  induction front with
  | nil => cases h : read rest <;> simp [h]
  | cons byte front ih =>
    simp only [List.mem_cons,not_or] at clean
    rw [List.cons_append,read,if_neg (Ne.symm clean.1),ih clean.2,Option.map_map]
    rfl

/-- What stands behind a terminator is not read. -/
theorem read_front {front : List UInt8} (terminated : 0 ∈ front) (rest : List UInt8) :
    read (front ++ rest) = read front := by
  obtain ⟨text,behind,rfl,clean⟩ := List.eq_append_cons_of_mem terminated
  rw [List.append_assoc,List.cons_append,read_terminated clean,read_terminated clean]

def store (bytes : List UInt8) (index : Nat) (byte : UInt8) : Option (List UInt8) :=
  if index < bytes.length then some (bytes.set index byte) else none

/-- A write cursor behind a read cursor, in the same array: what is written so far, the
bytes between the cursors and the bytes not read yet. -/
theorem store_behind (done gap : List UInt8) (next byte : UInt8) (rest : List UInt8) :
    ∃ left, left.length = gap.length ∧
      store (done ++ gap ++ next :: rest) done.length byte =
        some ((done ++ [byte]) ++ left ++ rest) := by
  have inside : done.length < (done ++ gap ++ next :: rest).length := by
    simp only [List.length_append,List.length_cons]
    omega
  rw [store,if_pos inside,List.append_assoc,
    List.set_append_right _ _ (Nat.le_refl _),Nat.sub_self]
  cases gap with
  | nil => exact ⟨[],rfl,by simp⟩
  | cons old gap => exact ⟨gap ++ [next],by simp,by simp⟩

theorem peek_at (done gap : List UInt8) (next : UInt8) (rest : List UInt8) :
    (done ++ gap ++ next :: rest)[done.length + gap.length]? = some next := by
  rw [← List.length_append,List.getElem?_append_right (Nat.le_refl _),Nat.sub_self]
  rfl

end CString

structure Region (size : Nat) where
  bytes : List UInt8
  sized : bytes.length = size
  deriving DecidableEq

namespace Region
variable {size : Nat}

def zeroed (size : Nat) : Region size := ⟨List.replicate size 0,List.length_replicate⟩

/-- The text and zeros behind it. -/
def holding (size : Nat) (s : Str) : Region size :=
  ⟨(s ++ List.replicate size 0).take size,by simp⟩

def store (r : Region size) (index : Nat) (byte : UInt8) : Region size :=
  ⟨r.bytes.set index byte,by rw [List.length_set,r.sized]⟩

def write (r : Region size) (offset : Nat) (bytes : List UInt8) : Option (Region size) :=
  if fits : offset + bytes.length ≤ size then
    some ⟨r.bytes.take offset ++ bytes ++ r.bytes.drop (offset + bytes.length),by
      simp [r.sized]
      omega⟩
  else none

def text (r : Region size) : Option Str := CString.read r.bytes

theorem text_length {r : Region size} {s : Str} (held : r.text = some s) : s.length < size := by
  obtain ⟨_,rest,whole⟩ := CString.read_some held
  have sized := r.sized
  rw [whole] at sized
  simp at sized
  omega

theorem text_holding {s : Str} (clean : 0 ∉ s) (fits : s.length < size) :
    (holding size s).text = some s := by
  have split : (holding size s).bytes = s ++ 0 :: List.replicate (size - s.length - 1) 0 := by
    have left : min (size - s.length) size = size - s.length - 1 + 1 := by omega
    change (s ++ List.replicate size 0).take size = _
    rw [List.take_append,List.take_of_length_le (by omega),List.take_replicate,left,
      List.replicate_succ]
  rw [text,split]
  exact CString.read_terminated clean _

theorem write_some (r : Region size) {offset : Nat} {bytes : List UInt8}
    (fits : offset + bytes.length ≤ size) : ∃ written, r.write offset bytes = some written ∧
      written.bytes = r.bytes.take offset ++ bytes ++ r.bytes.drop (offset + bytes.length) := by
  rw [write,dif_pos fits]
  exact ⟨_,rfl,rfl⟩

theorem write_text {r : Region size} {offset : Nat} {s : Str}
    (clean : 0 ∉ r.bytes.take offset ++ s) (fits : offset + (s ++ [0]).length ≤ size) :
    ∃ written, r.write offset (s ++ [0]) = some written ∧
      written.text = some (r.bytes.take offset ++ s) := by
  obtain ⟨written,same,whole⟩ := r.write_some fits
  refine ⟨written,same,?_⟩
  rw [text,whole]
  have split : r.bytes.take offset ++ (s ++ [0]) ++ r.bytes.drop (offset + (s ++ [0]).length) =
      (r.bytes.take offset ++ s) ++ 0 :: r.bytes.drop (offset + (s ++ [0]).length) := by simp
  rw [split]
  exact CString.read_terminated clean _

theorem write_terminator {r : Region size} {s : Str} (front : r.bytes.take s.length = s)
    (clean : 0 ∉ s) (fits : s.length < size) :
    ∃ written, r.write s.length [0] = some written ∧ written.text = some s := by
  have whole : 0 ∉ r.bytes.take s.length ++ [] := by
    rw [front,List.append_nil]
    exact clean
  obtain ⟨written,same,text⟩ := write_text whole fits
  rw [front,List.append_nil] at text
  exact ⟨written,same,text⟩

end Region
end QuickConnect
