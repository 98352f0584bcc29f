import QuickConnect.Json.DocumentParse
import Mathlib.Algebra.Group.Int.Defs
import Mathlib.Data.List.TakeWhile

/-! Numbers and truth values of json_parser.c: what strtoul and strtoull make of a primitive, and
which primitives are taken for them. The long of the target has 32 bits. -/
namespace QuickConnect.JsonParser
open Text Jsmn ScanLoop

def isSpace (c : UInt8) : Bool := c = 32 || (9 ≤ c && c ≤ 13)

def isDigit (c : UInt8) : Bool := 48 ≤ c && c ≤ 57

def digitsValue (digits : Str) : Nat := digits.foldl (fun acc d => 10 * acc + (d.toNat - 48)) 0

/-- What an unsigned conversion of so many bits returns: a value that does not fit becomes the
largest one, and a minus takes the value modulo the power of two. -/
def clamped (bits : Nat) (negative : Bool) (value : Nat) : Nat :=
  if 2 ^ bits ≤ value then 2 ^ bits - 1
  else if negative then (2 ^ bits - value) % 2 ^ bits
  else value

/-- strtoul or strtoull with base 10: the value, and how far from the start it ends. -/
def strtou (bits : Nat) (s : Str) : Nat × Nat :=
  let gap := (s.takeWhile isSpace).length
  let s := s.drop gap
  let negative := s.head? = some 45
  let sign := if s.head? = some 45 ∨ s.head? = some 43 then 1 else 0
  let digits := (s.drop sign).takeWhile isDigit
  if digits = [] then (0,0) else (clamped bits negative (digitsValue digits),gap + sign + digits.length)

/-- What json_tok_to_int and json_tok_to_int64 have in common. -/
def tokToUnsigned (bits : Nat) (js : Str) (tok : Token) : Except Failure Nat :=
  let i := strtou bits (js.drop tok.start.toNat)
  if (tok.start.toNat + i.2 : Nat) = tok.stop then .ok i.1 else .error .fail

/-- The int is the word that holds it. -/
def tokToInt (js : Str) (tok : Token) : Except Failure UInt32 :=
  (tokToUnsigned 32 js tok).map Nat.toUInt32

def tokToInt64 (js : Str) (tok : Token) : Except Failure UInt64 :=
  (tokToUnsigned 64 js tok).map Nat.toUInt64

def tokToBool (js : Str) (tok : Token) : Except Failure Bool :=
  if tokenMatchesStr js tok (bytes "true") || tokenMatchesStr js tok (bytes "1") then .ok true
  else if tokenMatchesStr js tok (bytes "false") || tokenMatchesStr js tok (bytes "0") then .ok false
  else .error .fail

section Integer

/-- An integer as JSON has it, but for leading zeros: its sign and its absolute value. -/
def integer (s : Str) : Option (Bool × Nat) :=
  let digits := if s.head? = some 45 then s.drop 1 else s
  if digits ≠ [] ∧ digits.all isDigit then some (s.head? = some 45,digitsValue digits) else none

/-- What holds of each of the ten digits. -/
theorem digit_every {P : UInt8 → Prop} (every : ∀ n < 58, 48 ≤ n → P n.toUInt8) {c : UInt8}
    (digit : isDigit c = true) : P c := by
  simp only [isDigit,Bool.and_eq_true,decide_eq_true_eq,UInt8.le_iff_toNat_le] at digit
  have same : c.toNat.toUInt8 = c := UInt8.ofNat_toNat
  have found := every c.toNat (Nat.lt_succ_of_le digit.2) digit.1
  rw [same] at found
  exact found

theorem stops_not_digit {c : UInt8} (stop : c ∈ stops) : isDigit c = false := by
  have every : stops.all (!isDigit ·) = true := by decide
  exact Bool.not_eq_true' _ ▸ List.all_eq_true.mp every c stop

/-- Characters of a kind to which no stop belongs end with the word. -/
theorem takeWhile_ended {p : UInt8 → Bool} (blind : ∀ c ∈ stops, p c = false) {s rest : Str}
    (ended : Ended rest) : (s ++ rest).takeWhile p = s.takeWhile p := by
  obtain ⟨c,tail,rfl,stop⟩ := ended
  rw [List.takeWhile_append]
  split
  · rename_i all
    rw [List.takeWhile_cons,blind c stop,if_neg Bool.false_ne_true,List.append_nil]
    exact (List.takeWhile_prefix p).eq_of_length all |>.symm
  · rfl

theorem digits_ended {s rest : Str} (ended : Ended rest) :
    (s ++ rest).takeWhile isDigit = s.takeWhile isDigit :=
  takeWhile_ended (fun _ => stops_not_digit) ended

theorem takeWhile_all {s : Str} :
    (s.takeWhile isDigit).length = s.length ↔ s.all isDigit = true := by
  constructor
  · intro length
    have whole := (List.takeWhile_prefix isDigit).eq_of_length length
    rw [← whole,List.all_takeWhile]
  · intro all
    rw [List.takeWhile_eq_self_iff.mpr (List.all_eq_true.mp all)]

theorem literal_head {c : UInt8} (first : label c = .literal) :
    c = 45 ∨ isDigit c = true ∨ c = 116 ∨ c = 102 ∨ c = 110 := by
  have listed : c = 45 ∨ (48 ≤ c ∧ c ≤ 57) ∨ c = 116 ∨ c = 102 ∨ c = 110 := by
    by_contra other
    revert first
    rw [label,if_neg other]
    repeat' split
    all_goals exact fun same => by cases same
  rcases listed with minus | digit | letter
  · exact Or.inl minus
  · exact Or.inr (Or.inl (by rw [isDigit]; simpa using digit))
  · exact Or.inr (Or.inr letter)

/-- No blank and no plus stands in front of a literal. -/
theorem literal_first {c : UInt8} (first : label c = .literal) : isSpace c = false ∧ c ≠ 43 := by
  rcases literal_head first with rfl | digit | rfl | rfl | rfl
  · decide
  · exact digit_every (P := fun c => isSpace c = false ∧ c ≠ 43) (by decide) digit
  · decide
  · decide
  · decide

variable {rest : Str}

/-- The conversion of a word ends at its end exactly when the word is an integer. -/
theorem strtou_word (bits : Nat) (word : Word) (ended : Ended rest) :
    match integer word.text with
    | some (negative,value) =>
      strtou bits (word.text ++ rest) = (clamped bits negative value,word.text.length)
    | none => (strtou bits (word.text ++ rest)).2 ≠ word.text.length := by
  obtain ⟨c,tail,spelt,first⟩ := word.first
  obtain ⟨plain,positive⟩ := literal_first first
  have gap : (word.text ++ rest).takeWhile isSpace = [] := by
    rw [spelt,List.cons_append,List.takeWhile_cons,if_neg (by rw [plain]; exact Bool.false_ne_true)]
  have head : (word.text ++ rest).head? = word.text.head? := by
    rw [spelt]
    rfl
  have other : word.text.head? ≠ some 43 := by
    rw [spelt,List.head?_cons]
    exact fun same => positive (Option.some.inj same)
  -- The digits are what follows the sign, and they end with the word.
  obtain ⟨sign,body,signed,bodied,long,digits⟩ : ∃ sign body,
      (if word.text.head? = some 45 then 1 else 0) = sign ∧
      (if word.text.head? = some 45 then word.text.drop 1 else word.text) = body ∧
      sign + body.length = word.text.length ∧ ((word.text ++ rest).drop sign) = body ++ rest := by
    by_cases minus : word.text.head? = some 45
    · refine ⟨1,word.text.drop 1,if_pos minus,if_pos minus,?_,?_⟩
      · rw [spelt,List.length_cons,List.drop_one,List.tail_cons]
        omega
      · rw [spelt]
        rfl
    · exact ⟨0,word.text,if_neg minus,if_neg minus,Nat.zero_add _,rfl⟩
  have converted : strtou bits (word.text ++ rest) =
      if body.takeWhile isDigit = [] then (0,0)
      else (clamped bits (word.text.head? = some 45) (digitsValue (body.takeWhile isDigit)),
        sign + (body.takeWhile isDigit).length) := by
    rw [strtou]
    simp only [gap,List.length_nil,List.drop_zero,head,other,or_false,signed,digits,
      digits_ended ended,Nat.zero_add]
  have read : integer word.text = if body ≠ [] ∧ body.all isDigit then
      some (decide (word.text.head? = some 45),digitsValue body) else none := by
    rw [integer]
    simp only [bodied]
  have some' : word.text.length ≠ 0 := by
    rw [spelt,List.length_cons]
    exact Nat.succ_ne_zero _
  rw [converted,read]
  by_cases whole : body ≠ [] ∧ body.all isDigit = true
  · have all : body.takeWhile isDigit = body :=
      List.takeWhile_eq_self_iff.mpr (List.all_eq_true.mp whole.2)
    rw [if_pos whole,all,if_neg whole.1]
    simp only [long]
  · rw [if_neg whole]
    by_cases none : body.takeWhile isDigit = []
    · rw [if_pos none]
      exact some'.symm
    · rw [if_neg none]
      intro same
      apply whole
      have length : (body.takeWhile isDigit).length = body.length := by
        simp only at same
        omega
      refine ⟨?_,takeWhile_all.mp length⟩
      rintro rfl
      exact none rfl

/-- The integers are taken and no other word. -/
theorem tokToUnsigned_word {js : Str} {pos : Nat} (bits : Nat) (word : Word) (parent : Int)
    (remaining : js.drop pos = word.text ++ rest) (ended : Ended rest) :
    tokToUnsigned bits js ((Value.literal word).token pos parent) = match integer word.text with
      | some (negative,value) => .ok (clamped bits negative value)
      | none => .error .fail := by
  have start : ((Value.literal word).token pos parent).start.toNat = pos := Int.toNat_natCast _
  have stop : ((Value.literal word).token pos parent).stop = (pos + word.text.length : Nat) := rfl
  have read := strtou_word bits word ended
  rw [tokToUnsigned,start,stop,remaining]
  cases found : integer word.text with
  | none =>
    rw [found] at read
    simp only at read ⊢
    rw [if_neg (by omega)]
  | some number =>
    rw [found] at read
    simp only at read ⊢
    rw [read,if_pos rfl]

end Integer
section Decimal

theorem digitsValue_toDigits (n : Nat) :
    digitsValue ((Nat.toDigits 10 n).map fun c => c.toNat.toUInt8) = n := by
  have back : digitsValue ((Nat.toDigits 10 n).map fun c => c.toNat.toUInt8) =
      Nat.ofDigitChars 10 (Nat.toDigits 10 n) 0 := by
    rw [digitsValue,List.foldl_map,Nat.ofDigitChars_eq_foldl]
    apply List.foldl_ext
    intro acc digit found
    rw [(digit_bounds found).2.2]
    rfl
  rw [back,Nat.ofDigitChars_ten_toDigits]

theorem digits_all (n : Nat) :
    ((Nat.toDigits 10 n).map fun c => c.toNat.toUInt8).all isDigit = true := by
  rw [List.all_eq_true]
  intro d inside
  obtain ⟨digit,found,rfl⟩ := List.mem_map.mp inside
  obtain ⟨low,high,same⟩ := digit_bounds found
  simp only [isDigit,Bool.and_eq_true,decide_eq_true_eq,UInt8.le_iff_toNat_le,same]
  exact ⟨low,high⟩

theorem integer_decimal (word : UInt32) : integer (decimal word) =
    some (decide (word.toBitVec.toInt < 0),word.toBitVec.toInt.natAbs) := by
  have some' : (Nat.toDigits 10 word.toBitVec.toInt.natAbs).map
      (fun c => c.toNat.toUInt8) ≠ [] := by
    intro none
    exact Nat.toDigits_ne_nil (List.map_eq_nil_iff.mp none)
  have plain : ((Nat.toDigits 10 word.toBitVec.toInt.natAbs).map
      fun c => c.toNat.toUInt8).head? ≠ some 45 := by
    intro minus
    exact minus_not_digit _ (List.mem_of_mem_head? minus)
  have all := digits_all word.toBitVec.toInt.natAbs
  have value := digitsValue_toDigits word.toBitVec.toInt.natAbs
  rw [integer,decimal]
  by_cases negative : word.toBitVec.toInt < 0
  · simp only [negative,if_true,List.head?_cons,List.drop_one,List.tail_cons]
    rw [if_pos ⟨some',all⟩,value]
  · simp only [negative,if_false,plain]
    rw [if_pos ⟨some',all⟩,value]

theorem clamped_short {bits : Nat} {z : Int} (low : -2 ^ 31 ≤ z) (high : z < 2 ^ 31)
    (wide : 32 ≤ bits) : (clamped bits (decide (z < 0)) z.natAbs : Int) = z % 2 ^ bits := by
  have power : 2 ^ 32 ≤ 2 ^ bits := Nat.pow_le_pow_right (by decide) wide
  have same : ((2 ^ bits : Nat) : Int) = (2 : Int) ^ bits := by push_cast; rfl
  have short : ¬2 ^ bits ≤ z.natAbs := by omega
  rw [clamped,if_neg short]
  by_cases negative : z < 0
  · rw [decide_eq_true negative,if_pos rfl,Nat.mod_eq_of_lt (by omega)]
    have shifted : z % 2 ^ bits = z + 2 ^ bits := by
      rw [← Int.add_emod_right,Int.emod_eq_of_lt (by omega) (by omega)]
    omega
  · rw [decide_eq_false negative,if_neg Bool.false_ne_true,Int.emod_eq_of_lt (by omega) (by omega)]
    omega

/-- An int that is printed and read again is the same, and as an int64 it keeps its sign. -/
theorem clamped_decimal (word : UInt32) :
    (clamped 32 (decide (word.toBitVec.toInt < 0)) word.toBitVec.toInt.natAbs).toUInt32 = word ∧
      (clamped 64 (decide (word.toBitVec.toInt < 0))
        word.toBitVec.toInt.natAbs).toUInt64.toBitVec.toInt = word.toBitVec.toInt := by
  have low := BitVec.le_toInt word.toBitVec
  have high := @BitVec.toInt_lt 32 word.toBitVec
  have narrow := clamped_short low high (Nat.le_refl 32)
  have wide := clamped_short low high (show 32 ≤ 64 by decide)
  constructor
  · apply UInt32.toBitVec_inj.mp
    apply BitVec.eq_of_toInt_eq
    change (BitVec.ofNat 32 _).toInt = _
    rw [BitVec.toInt_ofNat',narrow]
    change ((_ : Int) % ((2 ^ 32 : Nat) : Int)).bmod (2 ^ 32) = _
    rw [Int.emod_bmod,Int.bmod_eq_of_le (by omega) (by omega)]
  · change (BitVec.ofNat 64 _).toInt = _
    rw [BitVec.toInt_ofNat',wide]
    change ((_ : Int) % ((2 ^ 64 : Nat) : Int)).bmod (2 ^ 64) = _
    rw [Int.emod_bmod,Int.bmod_eq_of_le (by omega) (by omega)]

end Decimal

end QuickConnect.JsonParser
