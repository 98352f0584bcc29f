import QuickConnect.Json.Numbers

/-! Floats of json_parser.c: what strtof makes of a primitive, and which primitives are taken for
one. A float is a binary32 number, the nearest one to what is spelt. -/
namespace QuickConnect.JsonParser
open Text Jsmn ScanLoop

section Definitions

/-- The small letter for a capital one. -/
def lower (c : UInt8) : UInt8 := if 65 ≤ c && c ≤ 90 then c + 32 else c

def isHexDigit (c : UInt8) : Bool := isDigit c || (97 ≤ lower c && lower c ≤ 102)

def isWordChar (c : UInt8) : Bool := isDigit c || (97 ≤ lower c && lower c ≤ 122) || c = 95

/-- The characters that can stand in what strtof takes for a number: besides those of words the
parentheses, the signs and the point. -/
def inNumber (c : UInt8) : Bool := isWordChar c || c = 40 || c = 41 || c = 43 || c = 45 || c = 46

def hexDigitValue (c : UInt8) : Nat := if isDigit c then c.toNat - 48 else (lower c).toNat - 87

def hexValue (digits : Str) : Nat := digits.foldl (fun acc d => 16 * acc + hexDigitValue d) 0

/-- The float nearest to `m * 10 ^ e`. -/
def scientific (m : Nat) (e : Int) : Float32 := Float32.ofScientific m (decide (e < 0)) e.natAbs

/-- The float nearest to `m * 2 ^ e`, which is `m * 5 ^ -e * 10 ^ e` for a negative `e`. -/
def binary (m : Nat) (e : Int) : Float32 :=
  if e < 0 then scientific (m * 5 ^ e.natAbs) e else scientific (m * 2 ^ e.natAbs) 0

def infinity : Float32 := Float32.ofBits 0x7f800000

def notANumber : Float32 := Float32.ofBits 0x7fc00000

def opposed (negative : Bool) (val : Float32) : Float32 := if negative then -val else val

/-- Digits with a point or without: those in front of it, those behind it and the length. -/
def positional (digit : UInt8 → Bool) (s : Str) : Str × Str × Nat :=
  let whole := s.takeWhile digit
  let behind := s.drop whole.length
  if behind.head? = some 46 then
    let fraction := behind.tail.takeWhile digit
    (whole,fraction,whole.length + 1 + fraction.length)
  else (whole,[],whole.length)

/-- An exponent behind its letter, and its length. Without a digit there is none. -/
def exponent (letter : UInt8) (s : Str) : Int × Nat :=
  if s.head?.map lower = some letter then
    let negative := s.tail.head? = some 45
    let sign := if s.tail.head? = some 45 ∨ s.tail.head? = some 43 then 1 else 0
    let digits := (s.drop (1 + sign)).takeWhile isDigit
    if digits = [] then (0,0)
    else (if negative then -digitsValue digits else digitsValue digits,1 + sign + digits.length)
  else (0,0)

def decimalNumber (s : Str) : Option (Float32 × Nat) :=
  let (whole,fraction,length) := positional isDigit s
  if whole ++ fraction = [] then none
  else
    let (e,more) := exponent 101 (s.drop length)
    some (scientific (digitsValue (whole ++ fraction)) (e - fraction.length),length + more)

def hexNumber (s : Str) : Option (Float32 × Nat) :=
  let (whole,fraction,length) := positional isHexDigit (s.drop 2)
  if (s.take 2).map lower ≠ bytes "0x" ∨ whole ++ fraction = [] then none
  else
    let (e,more) := exponent 112 (s.drop (2 + length))
    some (binary (hexValue (whole ++ fraction)) (e - 4 * fraction.length),2 + length + more)

/-- The length of the word in parentheses that may follow a nan. -/
def parenthesis (s : Str) : Nat :=
  let word := s.tail.takeWhile isWordChar
  if s.head? = some 40 ∧ (s.drop (1 + word.length)).head? = some 41 then word.length + 2 else 0

def begins (word s : Str) : Bool := (s.take word.length).map lower = word

def namedNumber (s : Str) : Option (Float32 × Nat) :=
  if begins (bytes "infinity") s then some (infinity,8)
  else if begins (bytes "inf") s then some (infinity,3)
  else if begins (bytes "nan") s then some (notANumber,3 + parenthesis (s.drop 3))
  else none

/-- The number without its sign at the front of a text, and its length. -/
def number (s : Str) : Option (Float32 × Nat) :=
  (namedNumber s).or ((hexNumber s).or (decimalNumber s))

/-- strtof: the value, and how far from the start it ends. -/
def strtof (s : Str) : Float32 × Nat :=
  let gap := (s.takeWhile isSpace).length
  let s := s.drop gap
  let sign := if s.head? = some 45 ∨ s.head? = some 43 then 1 else 0
  match number ((s.drop sign).takeWhile inNumber) with
  | none => (0,0)
  | some (val,length) => (opposed (s.head? = some 45) val,gap + sign + length)

def tokToFloat (js : Str) (tok : Token) : Except Failure Float32 :=
  let f := strtof (js.drop tok.start.toNat)
  if (tok.start.toNat + f.2 : Nat) = tok.stop then .ok f.1 else .error .fail

/-- The float that a text spells, if it is a number to its end. -/
def floatText (s : Str) : Option Float32 := if (strtof s).2 = s.length then some (strtof s).1 else none

end Definitions

example : (floatText (bytes "-20.5")).map Float32.toBits = some 0xc1a40000 := by decide +kernel

example : strtof (bytes "0x1.8p1,") = (scientific 3 0,7) := by decide +kernel

section Word
variable {rest : Str}

theorem stops_blind {p : UInt8 → Bool} (blind : stops.all (!p ·) = true) {c : UInt8}
    (stop : c ∈ stops) : p c = false :=
  Bool.not_eq_true' _ ▸ List.all_eq_true.mp blind c stop

/-- What strtof reads ends with the word. -/
theorem strtof_word (word : Word) (ended : Ended rest) :
    strtof (word.text ++ rest) = strtof word.text := by
  obtain ⟨c,tail,spelt,first⟩ := word.first
  obtain ⟨plain,_⟩ := literal_first first
  have gap : ∀ behind, (c :: behind).takeWhile isSpace = [] := by
    intro behind
    rw [List.takeWhile_cons,if_neg (by rw [plain]; exact Bool.false_ne_true)]
  rw [spelt,List.cons_append,strtof,strtof]
  simp only [gap,List.length_nil,List.drop_zero,List.head?_cons]
  have within : ∀ sign ≤ 1, ((c :: (tail ++ rest)).drop sign).takeWhile inNumber =
      ((c :: tail).drop sign).takeWhile inNumber := by
    intro sign small
    rw [← List.cons_append,List.drop_append_of_le_length (by rw [List.length_cons]; omega),
      takeWhile_ended (fun _ => stops_blind (by decide)) ended]
  rw [within _ (by split <;> omega)]

theorem tokToFloat_word {js : Str} {pos : Nat} (word : Word) (parent : Int)
    (remaining : js.drop pos = word.text ++ rest) (ended : Ended rest) :
    tokToFloat js ((Value.literal word).token pos parent) = match floatText word.text with
      | some val => .ok val
      | none => .error .fail := by
  have start : ((Value.literal word).token pos parent).start.toNat = pos := Int.toNat_natCast _
  have stop : ((Value.literal word).token pos parent).stop = (pos + word.text.length : Nat) := rfl
  rw [tokToFloat,start,stop,remaining,strtof_word word ended,floatText]
  by_cases whole : (strtof word.text).2 = word.text.length
  · rw [if_pos whole,if_pos (by rw [whole])]
  · rw [if_neg whole,if_neg (by omega)]

end Word
section Fixed

/-- Digits in front of a point and digits behind it. -/
structure Fixed (whole fraction : Str) : Prop where
  filled : whole ≠ []
  front : ∀ c ∈ whole, isDigit c = true
  behind : ∀ c ∈ fraction, isDigit c = true

variable {whole fraction : Str}

theorem takeWhile_digits (front : ∀ c ∈ whole, isDigit c = true) (fraction : Str) :
    (whole ++ 46 :: fraction).takeWhile isDigit = whole := by
  rw [List.takeWhile_append_of_pos front,List.takeWhile_cons,
    if_neg (show ¬isDigit 46 = true by decide),List.append_nil]

theorem positional_fixed (fixed : Fixed whole fraction) :
    positional isDigit (whole ++ 46 :: fraction) =
      (whole,fraction,whole.length + 1 + fraction.length) := by
  rw [positional]
  simp only [takeWhile_digits fixed.front,List.drop_left,List.head?_cons,if_true,List.tail_cons,
    List.takeWhile_eq_self_iff.mpr fixed.behind]

theorem fixed_mem (fixed : Fixed whole fraction) {c : UInt8}
    (inside : c ∈ whole ++ 46 :: fraction) : isDigit c = true ∨ c = 46 := by
  rcases List.mem_append.mp inside with inside | inside
  · exact Or.inl (fixed.front c inside)
  rcases List.mem_cons.mp inside with same | inside
  · exact Or.inr same
  · exact Or.inl (fixed.behind c inside)

/-- No letter stands in it. -/
theorem fixed_lower (fixed : Fixed whole fraction) {c : UInt8}
    (inside : c ∈ whole ++ 46 :: fraction) : lower c = c ∧ c < 97 := by
  rcases fixed_mem fixed inside with digit | rfl
  · exact digit_every (P := fun c => lower c = c ∧ c < 97) (by decide) digit
  · decide

theorem take_fixed (fixed : Fixed whole fraction) {word : Str} {letter : UInt8}
    (spelt : letter ∈ word) (late : 97 ≤ letter) (n : Nat) :
    ((whole ++ 46 :: fraction).take n).map lower ≠ word := by
  intro same
  obtain ⟨c,inside,lowered⟩ := List.mem_map.mp (same ▸ spelt)
  obtain ⟨plain,early⟩ := fixed_lower fixed (List.mem_of_mem_take inside)
  rw [← lowered,plain] at late
  exact absurd early (UInt8.not_lt.mpr late)

theorem number_fixed (fixed : Fixed whole fraction) : number (whole ++ 46 :: fraction) =
    some (scientific (digitsValue (whole ++ fraction)) (-fraction.length),
      whole.length + 1 + fraction.length) := by
  have unspelt : ∀ word, (110 : UInt8) ∈ word → begins word (whole ++ 46 :: fraction) = false :=
    fun word spelt => decide_eq_false (take_fixed fixed spelt (by decide) word.length)
  have unnamed : namedNumber (whole ++ 46 :: fraction) = none := by
    rw [namedNumber,unspelt _ (by decide),unspelt _ (by decide),unspelt _ (by decide)]
    rfl
  have decimal : hexNumber (whole ++ 46 :: fraction) = none := by
    rw [hexNumber]
    have letter : (120 : UInt8) ∈ bytes "0x" := by decide
    exact if_pos (Or.inl (take_fixed fixed letter (by decide) 2))
  have filled : whole ++ fraction ≠ [] :=
    fun none => fixed.filled (List.append_eq_nil_iff.mp none).1
  have ends : (whole ++ 46 :: fraction).drop (whole.length + 1 + fraction.length) = [] := by
    apply List.drop_eq_nil_of_le
    rw [List.length_append,List.length_cons]
    omega
  have alone : exponent 101 [] = (0,0) := rfl
  rw [number,unnamed,decimal,Option.none_or,Option.none_or,decimalNumber]
  simp only [positional_fixed fixed,if_neg filled,ends,alone,Int.zero_sub,Nat.add_zero]

theorem strtof_minus {s : Str} {val : Float32} {length : Nat}
    (spelt : number (s.takeWhile inNumber) = some (val,length)) :
    strtof (45 :: s) = (-val,1 + length) := by
  change (match number (s.takeWhile inNumber) with
    | none => (0,0)
    | some (val,length) => (opposed true val,0 + 1 + length)) = _
  rw [spelt]
  simp only [opposed,if_true,Nat.zero_add]

theorem strtof_unsigned {s tail : Str} {c : UInt8} {val : Float32} {length : Nat}
    (first : s = c :: tail) (solid : isSpace c = false) (unsigned : c ≠ 43 ∧ c ≠ 45)
    (spelt : number (s.takeWhile inNumber) = some (val,length)) : strtof s = (val,length) := by
  have gap : s.takeWhile isSpace = [] := by
    rw [first,List.takeWhile_cons,if_neg (by rw [solid]; exact Bool.false_ne_true)]
  have plus : s.head? ≠ some 43 := by
    rw [first]
    exact fun same => unsigned.1 (Option.some.inj same)
  have minus : s.head? ≠ some 45 := by
    rw [first]
    exact fun same => unsigned.2 (Option.some.inj same)
  rw [strtof]
  simp only [gap,List.length_nil,List.drop_zero,plus,minus,or_self,if_false,spelt,opposed,
    decide_false,Bool.false_eq_true,Nat.zero_add]

/-- A number in this form is read to its end, as the float nearest to it. -/
theorem floatText_fixed (fixed : Fixed whole fraction) (negative : Bool) :
    floatText (if negative then 45 :: (whole ++ 46 :: fraction) else whole ++ 46 :: fraction) =
      some (opposed negative
        (scientific (digitsValue (whole ++ fraction)) (-fraction.length))) := by
  have inner : (whole ++ 46 :: fraction).takeWhile inNumber = whole ++ 46 :: fraction := by
    apply List.takeWhile_eq_self_iff.mpr
    intro c inside
    rcases fixed_mem fixed inside with digit | rfl
    · simp [inNumber,isWordChar,digit]
    · decide
  have length : (whole ++ 46 :: fraction).length = whole.length + 1 + fraction.length := by
    rw [List.length_append,List.length_cons]
    omega
  have spelt := number_fixed fixed
  rw [← inner] at spelt
  cases negative with
  | true =>
    rw [if_pos rfl,floatText,strtof_minus spelt,if_pos (by rw [List.length_cons]; omega),opposed,
      if_pos rfl]
  | false =>
    obtain ⟨c,tail,first⟩ := List.exists_cons_of_ne_nil fixed.filled
    have whole' : whole ++ 46 :: fraction = c :: (tail ++ 46 :: fraction) := by rw [first]; rfl
    obtain ⟨solid,unsigned⟩ : isSpace c = false ∧ c ≠ 43 ∧ c ≠ 45 :=
      digit_every (P := fun c => isSpace c = false ∧ c ≠ 43 ∧ c ≠ 45) (by decide)
        (fixed.front c (first ▸ List.mem_cons_self))
    rw [if_neg Bool.false_ne_true,floatText,strtof_unsigned whole' solid unsigned spelt,
      if_pos length.symm,opposed,if_neg Bool.false_ne_true]

end Fixed

end QuickConnect.JsonParser
