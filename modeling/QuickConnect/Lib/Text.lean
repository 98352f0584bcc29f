import Mathlib.Data.List.Basic

/-! Texts as C keeps them: the bytes of a string without its terminator, and the
conversions of the formatted-output functions that print into such texts. -/
namespace QuickConnect

abbrev Str := List UInt8

namespace Text

def bytes (s : String) : Str := s.toList.map fun c => c.toNat.toUInt8

abbrev newLine : UInt8 := 10

abbrev quote : UInt8 := 34

abbrev comma : UInt8 := 44

abbrev backslash : UInt8 := 92

def hexDigit (n : Nat) : UInt8 := if n < 10 then (48 + n).toUInt8 else (55 + n).toUInt8

def hex2 (b : UInt8) : Str := [hexDigit (b.toNat / 16),hexDigit (b.toNat % 16)]

def hex (bytes : List UInt8) : Str := bytes.flatMap hex2

def unhexDigit (c : UInt8) : Option Nat :=
  if 48 ≤ c ∧ c ≤ 57 then some (c.toNat - 48)
  else if 65 ≤ c ∧ c ≤ 70 then some (c.toNat - 55)
  else none

def unhex : Str → Option (List UInt8)
  | [] => some []
  | [_] => none
  | high :: low :: rest => do
    let high ← unhexDigit high
    let low ← unhexDigit low
    let bytes ← unhex rest
    some ((16 * high + low).toUInt8 :: bytes)

theorem unhexDigit_hexDigit : ∀ n < 16, unhexDigit (hexDigit n) = some n := by decide

theorem unhex_hex (bytes : List UInt8) : unhex (hex bytes) = some bytes := by
  induction bytes with
  | nil => rfl
  | cons byte bytes ih =>
    have small : byte.toNat < 256 := byte.toNat_lt
    have halves : 16 * (byte.toNat / 16) + byte.toNat % 16 = byte.toNat := Nat.div_add_mod _ _
    have spelt : hex (byte :: bytes) =
        hexDigit (byte.toNat / 16) :: hexDigit (byte.toNat % 16) :: hex bytes := rfl
    rw [spelt,unhex,unhexDigit_hexDigit _ (by omega),unhexDigit_hexDigit _ (by omega),ih]
    simp only [Option.bind_eq_bind,Option.bind_some,halves]
    congr 2
    exact UInt8.ofNat_toNat

theorem hex_length (bytes : List UInt8) : (hex bytes).length = 2 * bytes.length := by
  induction bytes with
  | nil => rfl
  | cons byte bytes ih =>
    change (hex bytes).length + 1 + 1 = _
    rw [ih,List.length_cons]
    omega

theorem hexDigit_plain : ∀ n < 16,
    hexDigit n ≠ 0 ∧ hexDigit n ≠ quote ∧ hexDigit n ≠ backslash := by decide

theorem hex_plain {bytes : List UInt8} {c : UInt8} (inside : c ∈ hex bytes) :
    c ≠ 0 ∧ c ≠ quote ∧ c ≠ backslash := by
  obtain ⟨byte,_,inside⟩ := List.mem_flatMap.mp inside
  have small : byte.toNat < 256 := byte.toNat_lt
  rcases List.mem_cons.mp inside with rfl | inside
  · exact hexDigit_plain _ (by omega)
  · rw [List.mem_singleton.mp inside]
    exact hexDigit_plain _ (by omega)

/-- What snprintf leaves of a text in a buffer of this size, without the terminator. -/
def printed (size : Nat) (text : Str) : Str := text.take (size - 1)

theorem printed_short {size : Nat} {text : Str} (short : text.length < size) :
    printed size text = text := by
  apply List.take_of_length_le
  omega

theorem printed_length {size : Nat} (positive : 0 < size) (text : Str) :
    (printed size text).length < size := by
  have most : (printed size text).length ≤ size - 1 := List.length_take_le _ _
  omega

/-- `%ld` of a 32-bit word read as the signed long of the target. -/
def decimal (word : UInt32) : Str :=
  let digits := (Nat.toDigits 10 word.toBitVec.toInt.natAbs).map fun c => c.toNat.toUInt8
  if word.toBitVec.toInt < 0 then 45 :: digits else digits

theorem digit_bounds {n : Nat} {digit : Char} (found : digit ∈ Nat.toDigits 10 n) :
    48 ≤ digit.toNat ∧ digit.toNat ≤ 57 ∧ digit.toNat.toUInt8.toNat = digit.toNat := by
  have plain := Nat.isDigit_of_mem_toDigits (by decide) (by decide) found
  simp only [Char.isDigit,Bool.and_eq_true,decide_eq_true_eq,UInt32.le_iff_toNat_le] at plain
  have low : 48 ≤ digit.toNat := plain.1
  have high : digit.toNat ≤ 57 := plain.2
  refine ⟨low,high,?_⟩
  change digit.toNat % 256 = digit.toNat
  omega

theorem minus_not_digit (n : Nat) :
    (45 : UInt8) ∉ (Nat.toDigits 10 n).map fun c => c.toNat.toUInt8 := by
  intro inside
  obtain ⟨digit,found,same⟩ := List.mem_map.mp inside
  obtain ⟨low,_,small⟩ := digit_bounds found
  rw [same] at small
  change 45 = digit.toNat at small
  omega

theorem digits_injective {n m : Nat}
    (same : ((Nat.toDigits 10 n).map fun c => c.toNat.toUInt8) =
      (Nat.toDigits 10 m).map fun c => c.toNat.toUInt8) : n = m := by
  have back : ∀ k, ((Nat.toDigits 10 k).map fun c => c.toNat.toUInt8).map
      (fun b => Char.ofNat b.toNat) = Nat.toDigits 10 k := by
    intro k
    rw [List.map_map]
    conv_rhs => rw [← List.map_id (Nat.toDigits 10 k)]
    apply List.map_congr_left
    intro digit found
    change Char.ofNat digit.toNat.toUInt8.toNat = digit
    rw [(digit_bounds found).2.2,Char.ofNat_toNat]
  have digits := congrArg (List.map fun b : UInt8 => Char.ofNat b.toNat) same
  rw [back,back] at digits
  rw [← @Nat.ofDigitChars_ten_toDigits n,digits,Nat.ofDigitChars_ten_toDigits]

theorem decimal_injective {word word' : UInt32} (same : decimal word = decimal word') :
    word = word' := by
  have equal : word.toBitVec.toInt = word'.toBitVec.toInt := by
    simp only [decimal] at same
    split at same <;> split at same
    · have absolute := digits_injective (List.cons.inj same).2
      omega
    · exact absurd (same ▸ List.mem_cons_self) (minus_not_digit _)
    · exact absurd (same ▸ List.mem_cons_self) (minus_not_digit _)
    · have absolute := digits_injective same
      omega
  exact UInt32.toBitVec_inj.mp (BitVec.eq_of_toInt_eq equal)

theorem decimal_length (word : UInt32) : (decimal word).length ≤ 11 := by
  have low := BitVec.le_toInt word.toBitVec
  have high := @BitVec.toInt_lt 32 word.toBitVec
  have digits : (Nat.toDigits 10 word.toBitVec.toInt.natAbs).length ≤ 10 := by
    apply (Nat.length_toDigits_le_iff (by decide) (by decide)).mpr
    omega
  simp only [decimal]
  split
  · rw [List.length_cons,List.length_map]
    omega
  · rw [List.length_map]
    omega

end Text
end QuickConnect
