import QuickConnect.Json.Document
import QuickConnect.Json.FlatObject

/-! The tokenizer accepts every document and finds its tokens: how each part of a document
takes the second pass from its first character to its last. -/
namespace QuickConnect.Jsmn
open Text ScanLoop

/-- The second pass, with the tokens found so far and the blank ones behind them. -/
def scanning (pos : Nat) (super : Int) (front : List Token) (blank count : Nat) : Scan :=
  ⟨⟨pos,front.length,super⟩,some (front ++ List.replicate blank Token.blank),count⟩

def Token.counting (token : Token) (n : Nat) : Token := { token with size := token.size + n }

theorem Token.counting_counting (token : Token) (n m : Nat) :
    (token.counting n).counting m = token.counting (m + n) := by
  rw [counting,counting,counting,Nat.add_comm m,Nat.add_assoc]

/-- What follows a value ends a primitive. -/
def Ended (rest : Str) : Prop := ∃ c tail, rest = c :: tail ∧ c ∈ stops

theorem blank_stops {c : UInt8} (blank : label c = .blank) : c ∈ stops := by
  have cases' : c = 9 ∨ c = 13 ∨ c = 10 ∨ c = 32 := by
    by_contra other
    revert blank
    rw [label,if_neg other]
    repeat' split
    all_goals exact fun same => by cases same
  rcases cases' with rfl | rfl | rfl | rfl <;> decide

variable {js rest : Str} {pos : Nat}

section Steps

theorem passes_blanks {gap : Str} (blank : JsonParser.Blank gap) : ∀ {pos : Nat} {rest : Str},
    js.drop pos = gap ++ rest → ∀ (super : Int) (front : List Token) (left count : Nat),
      Passes js (scanning pos super front left count)
        (scanning (pos + gap.length) super front left count) := by
  induction gap with
  | nil =>
    intro pos rest _ super front left count
    exact Advances.refl _
  | cons c gap ih =>
    intro pos rest remaining super front left count
    have first := blank c List.mem_cons_self
    have nonzero : c ≠ 0 := by
      rintro rfl
      cases first
    have passed := passes_one (s := scanning pos super front left count) remaining nonzero
      (by rw [first]; rfl) (Nat.le_refl _)
    have behind := ih (fun c inside => blank c (List.mem_cons_of_mem _ inside))
      (remaining_next remaining) super front left count
    rw [List.length_cons,Nat.add_comm gap.length,← Nat.add_assoc]
    exact passed.trans behind

theorem primitiveEnd_word {word : Str} (plain : ∀ c ∈ word, c ∉ stops ∧ 32 ≤ c ∧ c < 127) :
    ∀ {fuel pos : Nat} {rest : Str}, js.drop pos = word ++ rest → Ended rest → word.length < fuel →
      primitiveEnd js fuel pos = .ok (pos + word.length) := by
  induction word with
  | nil =>
    intro fuel pos rest remaining ended enough
    obtain ⟨fuel,rfl⟩ := Nat.exists_eq_succ_of_ne_zero (Nat.ne_of_gt enough)
    obtain ⟨c,tail,rfl,stop⟩ := ended
    have nonzero : c ≠ 0 := by
      rintro rfl
      revert stop
      decide
    rw [primitiveEnd,peek remaining]
    simp only [nonzero,if_false]
    exact if_pos stop
  | cons c word ih =>
    intro fuel pos rest remaining ended enough
    rw [List.length_cons] at enough
    obtain ⟨fuel,rfl⟩ := Nat.exists_eq_succ_of_ne_zero (Nat.ne_zero_of_lt enough)
    obtain ⟨other,low,high⟩ := plain c List.mem_cons_self
    have nonzero : c ≠ 0 := by
      rintro rfl
      revert low
      decide
    have printable : ¬(c < 32 ∨ 127 ≤ c) := by
      rintro (less | more)
      · exact absurd low (UInt8.not_le.mpr less)
      · exact absurd high (UInt8.not_lt.mpr more)
    rw [primitiveEnd,peek remaining]
    simp only [nonzero,if_false]
    change (if c ∈ stops then _ else _) = _
    rw [if_neg other,if_neg printable,
      ih (fun c inside => plain c (List.mem_cons_of_mem _ inside)) (remaining_next remaining) ended
        (by omega),List.length_cons,Nat.add_assoc,Nat.add_comm 1]

/-- A token that is added at the end, under the token `super`. -/
theorem counted_scanning (type : TokenType) (start stop pos last : Nat) (front back : List Token)
    (super : Token) (blank count : Nat) :
    (addToken type start stop ⟨pos,(front ++ super :: back).length,front.length⟩
        (some (front ++ super :: back ++ List.replicate (blank + 1) Token.blank)) >>=
      fun found => counted ({ found.1 with pos := last },found.2) count) =
      .ok (scanning last front.length
        (front ++ super.counting 1 :: back ++ [⟨type,start,stop,0,front.length⟩]) blank
        (count + 1)) := by
  have superior : (front.length : Int) ≠ -1 := by omega
  have added := addToken_building type start stop pos front.length (front ++ super :: back) blank
  have sized := update_middle front super
    (back ++ ⟨type,start,stop,0,front.length⟩ :: List.replicate blank Token.blank)
    fun t => { t with size := t.size + 1 }
  rw [added,except_ok_bind,counted]
  simp only
  rw [if_pos superior,List.append_assoc,List.cons_append,sized,except_ok_bind]
  simp [Token.counting,scanning,Nat.add_assoc]

/-- A value may come under a token, unless that is an object or a name that has its value. -/
def Token.Takes (super : Token) : Prop :=
  super.type ≠ .object ∧ (super.type = .string → super.size = 0)

theorem tokenAt_super (front back : List Token) (super : Token) (blank : Nat) :
    tokenAt (front ++ super :: back ++ List.replicate blank Token.blank) front.length =
      .ok super := by
  rw [List.append_assoc,List.cons_append]
  exact tokenAt_middle front super _

theorem scanning_literal (word : Word) (remaining : js.drop pos = word.text ++ rest)
    (ended : Ended rest) (front back : List Token) {super : Token} (takes : super.Takes)
    (blank count : Nat) :
    Passes js (scanning pos front.length (front ++ super :: back) (blank + 1) count)
      (scanning (pos + word.text.length) front.length (front ++ super.counting 1 :: back ++
        [(Value.literal word).token pos front.length]) blank (count + 1)) := by
  obtain ⟨c,tail,spelt,first⟩ := word.first
  have begins : js.drop pos = c :: (tail ++ rest) := by rw [remaining,spelt,List.cons_append]
  have nonzero : c ≠ 0 := by
    rintro rfl
    cases first
  have some' : word.text.length ≠ 0 := by
    rw [spelt,List.length_cons]
    omega
  have length := congrArg List.length remaining
  have behind : rest.length ≠ 0 := by
    obtain ⟨c,tail,rfl,_⟩ := ended
    rw [List.length_cons]
    omega
  rw [List.length_drop,List.length_append] at length
  have ends : primitiveEnd js js.length pos = .ok (pos + word.text.length) :=
    primitiveEnd_word word.plain remaining ended (by omega)
  have superior : (front.length : Int) ≠ -1 := by omega
  have allowed : literalAllowed (scanning pos front.length (front ++ super :: back) (blank + 1)
      count) = .ok () := by
    rw [literalAllowed]
    simp only [scanning,ne_eq,superior,not_false_eq_true,if_true,tokenAt_super,except_ok_bind]
    rw [if_neg]
    rintro (object | ⟨string,sized⟩)
    · exact takes.1 object
    · exact sized (takes.2 string)
  have found : literal js (scanning pos front.length (front ++ super :: back) (blank + 1) count) =
      .ok (scanning (pos + word.text.length - 1) front.length (front ++ super.counting 1 :: back ++
        [(Value.literal word).token pos front.length]) blank (count + 1)) := by
    have added := counted_scanning .primitive pos (pos + word.text.length) pos
      (pos + word.text.length - 1) front back super blank count
    rw [literal,allowed,except_ok_bind,parsePrimitive]
    simp only [scanning,ends,except_ok_bind]
    rw [bind_assoc]
    exact added
  have switched : switch js (scanning pos front.length (front ++ super :: back) (blank + 1) count)
      (label c) = literal js
        (scanning pos front.length (front ++ super :: back) (blank + 1) count) := by
    rw [first]
    rfl
  have passed := passes_one begins nonzero (switched.trans found) (show pos ≤ pos + word.text.length - 1 by omega)
  have same : pos + word.text.length - 1 + 1 = pos + word.text.length := by omega
  rw [← same]
  exact passed

theorem scanning_string {body : Str} (valid : StringBody body)
    (remaining : js.drop pos = quote :: body ++ quote :: rest) (front back : List Token)
    (super : Token) (blank count : Nat) :
    Passes js (scanning pos front.length (front ++ super :: back) (blank + 1) count)
      (scanning (pos + body.length + 2) front.length (front ++ super.counting 1 :: back ++
        [⟨.string,(pos + 1 : Nat),(pos + 1 + body.length : Nat),0,front.length⟩]) blank
        (count + 1)) :=
  building_string valid remaining front back super blank count

theorem scanning_colon (remaining : js.drop pos = 58 :: rest) (super : Int) (front : List Token)
    (token : Token) (blank count : Nat) :
    Passes js (scanning pos super (front ++ [token]) blank count)
      (scanning (pos + 1) front.length (front ++ [token]) blank count) := by
  have passed := passes_one (s := scanning pos super (front ++ [token]) blank count) remaining
    (by decide) rfl (Nat.le_refl _)
  have newest : (((front ++ [token]).length : Nat) : Int) - 1 = front.length := by
    rw [List.length_append,List.length_singleton]
    omega
  rw [scanning,← newest]
  exact passed

/-- A comma behind an element, or behind the value of a member. -/
theorem scanning_comma (remaining : js.drop pos = Text.comma :: rest) (front back : List Token)
    (super : Token) {above : Int}
    (up : super.type = .array ∧ above = front.length ∨ super.type = .string ∧ above = super.parent)
    (blank count : Nat) :
    Passes js (scanning pos front.length (front ++ super :: back) blank count)
      (scanning (pos + 1) above (front ++ super :: back) blank count) := by
  have superior : (front.length : Int) ≠ -1 := by omega
  have found : comma (scanning pos front.length (front ++ super :: back) blank count) =
      .ok (scanning pos above (front ++ super :: back) blank count) := by
    rw [comma]
    simp only [scanning,ne_eq,superior,not_false_eq_true,if_true,tokenAt_super,except_ok_bind]
    rcases up with ⟨array,rfl⟩ | ⟨string,rfl⟩
    · rw [if_neg (fun other => other.1 array)]
    · rw [if_pos (by rw [string]; decide)]
  exact passes_one (s := scanning pos front.length (front ++ super :: back) blank count) remaining
    (by decide) found (Nat.le_refl _)

theorem alloc_scanning (pos : Nat) (super : Int) (front : List Token) (blank : Nat) :
    allocToken ⟨pos,front.length,super⟩ (front ++ List.replicate (blank + 1) Token.blank) =
      .ok (⟨pos,front.length + 1,super⟩,
        front ++ ⟨.undefined,-1,-1,0,-1⟩ :: List.replicate blank Token.blank) := by
  rw [List.replicate_succ,allocToken,List.getElem?_append_right (Nat.le_refl _),Nat.sub_self]
  simp only [List.getElem?_cons_zero]
  rw [List.set_append_right _ _ (Nat.le_refl _),Nat.sub_self,List.set_cons_zero]
  rfl

theorem bracket_nonzero {c : UInt8} {kind : Label} (bracket : label c = kind)
    (expected : kind ≠ .unexpected) : c ≠ 0 := by
  rintro rfl
  exact expected bracket.symm

theorem scanning_opening {c : UInt8} (type : TokenType) (bracket : label c = .opening type)
    (remaining : js.drop pos = c :: rest) (front back : List Token) {super : Token}
    (allowed : super.type ≠ .object) (blank count : Nat) :
    Passes js (scanning pos front.length (front ++ super :: back) (blank + 1) count)
      (scanning (pos + 1) (front ++ super.counting 1 :: back).length
        (front ++ super.counting 1 :: back ++ [⟨type,pos,-1,0,front.length⟩]) blank
        (count + 1)) := by
  have superior : (front.length : Int) ≠ -1 := by omega
  have allocated := alloc_scanning pos front.length (front ++ super :: back) blank
  have length : (front ++ super.counting 1 :: back).length = (front ++ super :: back).length := by
    simp
  have newest : (((front ++ super :: back).length + 1 : Nat) : Int) - 1 =
      ((front ++ super.counting 1 :: back).length : Nat) := by
    rw [length]
    omega
  have read := tokenAt_middle front super
    (back ++ ⟨.undefined,-1,-1,0,-1⟩ :: List.replicate blank Token.blank)
  have sized := update_middle front super
    (back ++ ⟨.undefined,-1,-1,0,-1⟩ :: List.replicate blank Token.blank)
    fun t => { t with size := t.size + 1 }
  have linked := update_middle (front ++ super.counting 1 :: back) ⟨.undefined,-1,-1,0,-1⟩
    (List.replicate blank Token.blank) fun t => { t with parent := front.length }
  have typed := update_middle (front ++ super.counting 1 :: back)
    ⟨.undefined,-1,-1,0,front.length⟩ (List.replicate blank Token.blank)
    fun t => { t with type := type, start := pos }
  simp only [List.append_assoc,List.cons_append] at allocated newest read sized linked typed
  have links : link ⟨pos,(front ++ super :: back).length + 1,front.length⟩
      (front ++ super.counting 1 :: back).length
      (front ++ super :: (back ++ ⟨.undefined,-1,-1,0,-1⟩ :: List.replicate blank Token.blank)) =
      .ok (front ++ super.counting 1 ::
        (back ++ ⟨.undefined,-1,-1,0,front.length⟩ :: List.replicate blank Token.blank)) := by
    rw [link,if_pos superior,read,except_ok_bind,if_neg allowed,sized,except_ok_bind]
    exact linked
  have found : opening type (scanning pos front.length (front ++ super :: back) (blank + 1) count) =
      .ok ⟨⟨pos,(front ++ super :: back).length + 1,(front ++ super.counting 1 :: back).length⟩,
        some (front ++ super.counting 1 ::
          (back ++ ⟨type,pos,-1,0,front.length⟩ :: List.replicate blank Token.blank)),
        count + 1⟩ := by
    rw [opening]
    simp only [scanning,List.append_assoc,List.cons_append]
    rw [allocated,except_ok_bind]
    simp only
    rw [newest,links,except_ok_bind,typed]
    rfl
  have switched : switch js (scanning pos front.length (front ++ super :: back) (blank + 1) count)
      (label c) = opening type
        (scanning pos front.length (front ++ super :: back) (blank + 1) count) := by
    rw [bracket]
    rfl
  have passed := passes_one remaining (bracket_nonzero bracket (fun same => by cases same))
    (switched.trans found) (Nat.le_refl _)
  convert passed using 1
  rw [scanning,next]
  simp [Nat.add_assoc]

/-- From any token inside it the loop of a closing bracket comes to the one that is open. -/
theorem close_inside {front back : List Token} {token : Token}
    (opened : token.start ≠ -1 ∧ token.stop = -1)
    (inside : Inside front.length (front.length + 1) back) (pos : Nat) (super : Int)
    (behind : List Token) (fuel : Nat) : ∀ i, front.length ≤ i → i < front.length + 1 + back.length →
      i < front.length + fuel → close token.type pos super (front ++ token :: back ++ behind) fuel i =
        .ok (token.parent,front ++ { token with stop := pos + 1 } :: back ++ behind) := by
  induction fuel with
  | zero =>
    intro i low _ high
    omega
  | succ fuel ih =>
    intro i low within high
    rcases Nat.lt_or_eq_of_le low with deeper | rfl
    · obtain ⟨j,rfl⟩ := Nat.exists_eq_add_of_le (Nat.succ_le_of_lt deeper)
      have room : j < back.length := by omega
      have found : back[j]? = some back[j] := List.getElem?_eq_getElem room
      obtain ⟨closed,least,before⟩ := inside.found found
      have read : tokenAt (front ++ token :: back ++ behind) (front.length.succ + j : Nat) =
          .ok back[j] := by
        rw [tokenAt,if_neg (by omega),Int.toNat_natCast,List.append_assoc,
          List.getElem?_append_right (by omega)]
        have place : front.length.succ + j - front.length = j + 1 := by omega
        rw [place,List.cons_append,List.getElem?_cons_succ,List.getElem?_append_left room,found]
      obtain ⟨up,same⟩ := Int.eq_ofNat_of_zero_le (show 0 ≤ back[j].parent by omega)
      rw [close,read,except_ok_bind,if_neg (by omega),if_neg (by omega),same]
      exact ih up (by omega) (by omega) (by omega)
    · have read := tokenAt_middle front token (back ++ behind)
      have closes := update_middle front token (back ++ behind) fun t => { t with stop := pos + 1 }
      rw [List.append_assoc,List.cons_append,close,read,except_ok_bind,if_pos opened,
        if_neg (fun other => other rfl),closes,except_ok_bind,List.append_assoc,List.cons_append]

theorem scanning_closing {c : UInt8} {front back : List Token} (token : Token)
    (bracket : label c = .closing token.type) (remaining : js.drop pos = c :: rest)
    (opened : token.start ≠ -1 ∧ token.stop = -1)
    (inside : Inside front.length (front.length + 1) back) (super : Int) (blank count : Nat) :
    Passes js (scanning pos super (front ++ token :: back) blank count)
      (scanning (pos + 1) token.parent (front ++ { token with stop := pos + 1 } :: back) blank
        count) := by
  have length : (front ++ token :: back).length = front.length + 1 + back.length := by
    rw [List.length_append,List.length_cons]
    omega
  have closes := close_inside opened inside pos super (List.replicate blank Token.blank)
    (front ++ token :: back ++ List.replicate blank Token.blank).length
    (front.length + back.length) (by omega) (by omega)
    (by rw [List.length_append,length]; omega)
  have newest : ((front ++ token :: back).length : Int) - 1 = (front.length + back.length : Nat) := by
    omega
  have found : closing token.type (scanning pos super (front ++ token :: back) blank count) =
      .ok (scanning pos token.parent (front ++ { token with stop := pos + 1 } :: back) blank
        count) := by
    have some' : ¬(front ++ token :: back).length < 1 := by omega
    rw [closing]
    simp only [scanning,some',if_false,newest,closes,except_ok_bind]
    simp
  have switched : switch js (scanning pos super (front ++ token :: back) blank count) (label c) =
      closing token.type (scanning pos super (front ++ token :: back) blank count) := by
    rw [bracket]
    rfl
  exact passes_one remaining (bracket_nonzero bracket (fun same => by cases same))
    (switched.trans found) (Nat.le_refl _)

end Steps
section Parts

theorem scanning_key {key : Key} (remaining : js.drop pos = key.text ++ rest)
    (front back : List Token) (super : Token) (blank count : Nat) :
    Passes js (scanning pos front.length (front ++ super :: back) (blank + 1) count)
      (scanning (pos + key.text.length) (front ++ super.counting 1 :: back).length
        (front ++ super.counting 1 :: back ++ [{ key.token pos front.length with size := 0 }])
        blank (count + 1)) := by
  simp only [Key.text,List.append_assoc] at remaining
  have quoted := remaining_add remaining
  have spelt : js.drop (pos + key.lead.1.length) =
      quote :: key.name ++ quote :: (key.before.1 ++ ([58] ++ (key.after.1 ++ rest))) := by
    rw [quoted]
    simp
  have behind : js.drop (pos + key.lead.1.length + key.name.length + 2) =
      key.before.1 ++ ([58] ++ (key.after.1 ++ rest)) := by
    have passed := remaining_next (remaining_add spelt)
    rw [← passed]
    congr 1
  have name := scanning_string key.valid spelt front back super blank count
  have colon := remaining_add behind
  have after := remaining_next colon
  have token : ({ key.token pos front.length with size := 0 } : Token) =
      ⟨.string,(pos + key.lead.1.length + 1 : Nat),
        (pos + key.lead.1.length + 1 + key.name.length : Nat),0,front.length⟩ := rfl
  rw [token]
  have passed := ((((passes_blanks key.lead.2 remaining front.length (front ++ super :: back)
    (blank + 1) count).trans name).trans
    (passes_blanks key.before.2 behind _ _ _ _)).trans
    (scanning_colon colon _ _ _ _ _)).trans
    (passes_blanks key.after.2 after _ _ _ _)
  convert passed using 2
  simp only [Key.text,List.length_append,List.length_cons,List.length_nil]
  omega

theorem ended_blanks {gap : Blanks} (ended : Ended rest) : Ended (gap.1 ++ rest) := by
  obtain ⟨gap,blank⟩ := gap
  cases gap with
  | nil => exact ended
  | cons c gap => exact ⟨c,gap ++ rest,rfl,blank_stops (blank c List.mem_cons_self)⟩

theorem Members.ended {members : Members} {tail : Str} (ended : Ended rest)
    (none : members = .nil → tail = rest) : Ended (members.comma ++ tail) := by
  cases members with
  | nil =>
    rw [none rfl]
    exact ended
  | cons => exact ⟨Text.comma,_,rfl,by decide⟩

theorem Elems.ended {elems : Elems} {tail : Str} (ended : Ended rest)
    (none : elems = .nil → tail = rest) : Ended (elems.comma ++ tail) := by
  cases elems with
  | nil =>
    rw [none rfl]
    exact ended
  | cons => exact ⟨Text.comma,_,rfl,by decide⟩

theorem label_brace : label 125 = .closing .object := by decide

theorem label_bracket : label 93 = .closing .array := by decide

/-- From behind the opening bracket to behind the closing one. -/
theorem scanning_filled {d : UInt8} {type : TokenType} (closes : label d = .closing type)
    {gap : Blanks} {inner : Str} {start : Nat} (remaining : js.drop pos = gap.1 ++ inner ++ d :: rest)
    {front tokens : List Token} {parent last : Int} {n size blank count : Nat}
    (inside : Inside front.length (front.length + 1) tokens)
    (passed : Passes js
      (scanning (pos + gap.1.length) front.length (front ++ [⟨type,start,-1,0,parent⟩]) (n + blank)
        count)
      (scanning (pos + gap.1.length + inner.length) last
        (front ++ [(⟨type,start,-1,0,parent⟩ : Token).counting size] ++ tokens) blank
        (count + n))) :
    Passes js
      (scanning pos front.length (front ++ [⟨type,start,-1,0,parent⟩]) (n + blank) count)
      (scanning (pos + (gap.1 ++ inner ++ [d]).length) parent
        (front ++ ⟨type,start,(pos + (gap.1 ++ inner ++ [d]).length : Nat),size,parent⟩ :: tokens)
        blank (count + n)) := by
  have place : pos + (gap.1 ++ inner).length = pos + gap.1.length + inner.length := by
    rw [List.length_append,Nat.add_assoc]
  have bracket := remaining_add remaining
  rw [place] at bracket
  rw [List.append_assoc] at remaining
  have length : pos + (gap.1 ++ inner ++ [d]).length = pos + gap.1.length + inner.length + 1 := by
    rw [List.length_append,← Nat.add_assoc,place,List.length_singleton]
  have token : ({ (⟨type,start,-1,0,parent⟩ : Token).counting size with
      stop := ((pos + gap.1.length + inner.length : Nat) : Int) + 1 } : Token) =
      ⟨type,start,(pos + (gap.1 ++ inner ++ [d]).length : Nat),size,parent⟩ := by
    rw [length]
    simp [Token.counting]
  have closed := scanning_closing ((⟨type,start,-1,0,parent⟩ : Token).counting size) closes bracket
    ⟨by simp only [Token.counting]; omega,rfl⟩ inside last blank (count + n)
  rw [token,← length] at closed
  rw [List.append_assoc front] at passed
  exact ((passes_blanks gap.2 remaining front.length
    (front ++ [⟨type,start,-1,0,parent⟩]) (n + blank) count).trans passed).trans closed

mutual
/-- A value in a container or behind a name is passed, and its tokens are added. -/
theorem Value.scanned (value : Value) {js rest : Str} {pos : Nat}
    (remaining : js.drop pos = value.text ++ rest) (ended : Ended rest) (front back : List Token)
    (super : Token) (takes : super.Takes) (blank count : Nat) :
    Passes js (scanning pos front.length (front ++ super :: back) (value.count + blank) count)
      (scanning (pos + value.text.length) front.length (front ++ super.counting 1 :: back ++
        value.tokens pos (front.length + 1 + back.length) front.length) blank
        (count + value.count)) := by
  have length : (front ++ super.counting 1 :: back).length = front.length + 1 + back.length := by
    rw [List.length_append,List.length_cons]
    omega
  cases value with
  | string body valid =>
    have spelt : js.drop pos = quote :: body ++ quote :: rest := by
      rw [remaining,Value.text]
      simp
    have passed := scanning_string valid spelt front back super blank count
    rw [Value.count,Nat.add_comm 1 blank]
    convert passed using 2
    · simp only [Value.text,List.length_append,List.length_cons,List.length_nil]
      omega
    · rfl
  | literal word =>
    rw [Value.count,Nat.add_comm 1 blank]
    exact scanning_literal word remaining ended front back takes blank count
  | object gap members =>
    have spelt : js.drop pos = 123 :: (gap.1 ++ members.text ++ 125 :: rest) := by
      rw [remaining,Value.text]
      simp
    have inner := remaining_next spelt
    have start : js.drop (pos + 1 + gap.1.length) = members.text ++ 125 :: rest := by
      apply remaining_add
      rw [inner,List.append_assoc]
    obtain ⟨last,passed⟩ := members.scanned start ⟨125,rest,rfl,by decide⟩
      (front ++ super.counting 1 :: back) [] ⟨.object,pos,-1,0,front.length⟩ rfl blank
      (count + 1)
    have opened := scanning_opening .object (by decide) spelt front back takes.1
      (members.count + blank) count
    have filled := scanning_filled label_brace inner
      (members.tokens_inside (pos + 1 + gap.1.length) _ _ (by omega)) passed
    have whole := opened.trans filled
    have span : pos + 1 + (gap.1 ++ members.text ++ [125]).length =
        pos + (Value.object gap members).text.length := by
      simp only [Value.text,List.length_append,List.length_cons]
      omega
    rw [span,length] at whole
    rw [Value.count,Nat.add_right_comm]
    convert whole using 2
    · rfl
    · omega
  | array gap elems =>
    have spelt : js.drop pos = 91 :: (gap.1 ++ elems.text ++ 93 :: rest) := by
      rw [remaining,Value.text]
      simp
    have inner := remaining_next spelt
    have start : js.drop (pos + 1 + gap.1.length) = elems.text ++ 93 :: rest := by
      apply remaining_add
      rw [inner,List.append_assoc]
    have passed := elems.scanned start ⟨93,rest,rfl,by decide⟩
      (front ++ super.counting 1 :: back) [] ⟨.array,pos,-1,0,front.length⟩ rfl blank
      (count + 1)
    have opened := scanning_opening .array (by decide) spelt front back takes.1
      (elems.count + blank) count
    have filled := scanning_filled label_bracket inner
      (elems.tokens_inside (pos + 1 + gap.1.length) _ _ (by omega)) passed
    have whole := opened.trans filled
    have span : pos + 1 + (gap.1 ++ elems.text ++ [93]).length =
        pos + (Value.array gap elems).text.length := by
      simp only [Value.text,List.length_append,List.length_cons]
      omega
    rw [span,length] at whole
    rw [Value.count,Nat.add_right_comm]
    convert whole using 2
    · rfl
    · omega

theorem Members.scanned (members : Members) {js rest : Str} {pos : Nat}
    (remaining : js.drop pos = members.text ++ rest) (ended : Ended rest) (front back : List Token)
    (token : Token) (object : token.type = .object) (blank count : Nat) :
    ∃ super : Int,
      Passes js (scanning pos front.length (front ++ token :: back) (members.count + blank) count)
        (scanning (pos + members.text.length) super (front ++ token.counting members.size :: back ++
          members.tokens pos (front.length + 1 + back.length) front.length) blank
          (count + members.count)) := by
  cases members with
  | nil =>
    refine ⟨front.length,?_⟩
    rw [Members.count,Nat.zero_add,Members.tokens,List.append_nil]
    exact Advances.refl _
  | cons key value behind members =>
    have others := fun js rest pos => @members.scanned js rest pos
    simp only [Members.text,List.append_assoc] at remaining
    have valued := remaining_add remaining
    have gap := remaining_add valued
    have separator := remaining_add gap
    have next := remaining_add separator
    have after : Ended (members.comma ++ (members.text ++ rest)) := by
      apply Members.ended ended
      rintro rfl
      rfl
    have length : (front ++ token.counting 1 :: back).length = front.length + 1 + back.length := by
      rw [List.length_append,List.length_cons]
      omega
    have named := scanning_key remaining front back token (value.count + (members.count + blank))
      count
    have taken := value.scanned valued (ended_blanks after) (front ++ token.counting 1 :: back) []
      { key.token pos front.length with size := 0 } ⟨by simp [Key.token],fun _ => rfl⟩
      (members.count + blank) (count + 1)
    have passed := (named.trans taken).trans (passes_blanks behind.2 gap _ _ _ _)
    have keyed : ({ key.token pos front.length with size := 0 } : Token).counting 1 =
        key.token pos front.length := rfl
    rw [keyed,List.append_assoc _ [key.token pos front.length]] at passed
    cases members with
    | nil =>
      refine ⟨(front ++ token.counting 1 :: back).length,?_⟩
      convert passed using 2
      · simp only [Members.count]
        omega
      · simp only [Members.text,Members.comma,List.length_append,List.length_nil]
        omega
      · simp only [Members.tokens,Members.size,length,List.append_assoc,List.cons_append,
          List.append_nil,List.nil_append,List.length_nil,Nat.zero_add,Nat.add_zero]
      · exact (Nat.zero_add blank).symm
      · simp only [Members.count]
        omega
    | cons key' value' behind' members' =>
      have parted := scanning_comma separator (front ++ token.counting 1 :: back)
        (value.tokens (pos + key.text.length) (front.length + 1 + back.length + 1)
          (front.length + 1 + back.length : Nat)) (key.token pos front.length)
        (Or.inr ⟨rfl,rfl⟩) ((Members.cons key' value' behind' members').count + blank)
        (count + 1 + value.count)
      obtain ⟨last,rested⟩ := others _ _ _ next ended front
        (back ++ key.token pos front.length :: value.tokens (pos + key.text.length)
          (front.length + 1 + back.length + 1) (front.length + 1 + back.length : Nat))
        (token.counting 1) object blank (count + 1 + value.count)
      refine ⟨last,?_⟩
      rw [length] at passed parted
      simp only [List.append_assoc,List.cons_append,List.nil_append,List.length_nil,Nat.add_zero]
        at passed parted rested
      have whole := (passed.trans parted).trans rested
      have index : front.length + 1 + (back ++ key.token pos front.length ::
          value.tokens (pos + key.text.length) (front.length + 1 + back.length + 1)
            (front.length + 1 + back.length : Nat)).length =
          front.length + 1 + back.length + 1 + value.count := by
        rw [List.length_append,List.length_cons,value.tokens_length]
        omega
      have place : pos + (key.text ++ value.text ++ behind.1 ++
          (Members.cons key' value' behind' members').comma).length =
          pos + key.text.length + value.text.length + behind.1.length +
            (Members.cons key' value' behind' members').comma.length := by
        simp only [List.length_append]
        omega
      convert whole using 2
      · rw [Members.count]
        omega
      · rw [Members.text,List.length_append,← Nat.add_assoc,place]
      · rw [index,Members.tokens,Members.size,place,Token.counting_counting]
        simp only [List.append_assoc,List.cons_append]
      · rw [Members.count]
        omega

theorem Elems.scanned (elems : Elems) {js rest : Str} {pos : Nat}
    (remaining : js.drop pos = elems.text ++ rest) (ended : Ended rest) (front back : List Token)
    (token : Token) (array : token.type = .array) (blank count : Nat) :
    Passes js (scanning pos front.length (front ++ token :: back) (elems.count + blank) count)
      (scanning (pos + elems.text.length) front.length (front ++ token.counting elems.size :: back ++
        elems.tokens pos (front.length + 1 + back.length) front.length) blank
        (count + elems.count)) := by
  cases elems with
  | nil =>
    rw [Elems.count,Nat.zero_add,Elems.tokens,List.append_nil]
    exact Advances.refl _
  | cons lead value behind elems =>
    have others := fun js rest pos => @elems.scanned js rest pos
    simp only [Elems.text,List.append_assoc] at remaining
    have valued := remaining_add remaining
    have gap := remaining_add valued
    have separator := remaining_add gap
    have next := remaining_add separator
    have after : Ended (elems.comma ++ (elems.text ++ rest)) := by
      apply Elems.ended ended
      rintro rfl
      rfl
    have led := passes_blanks lead.2 remaining front.length (front ++ token :: back)
      (value.count + (elems.count + blank)) count
    have taken := value.scanned valued (ended_blanks after) front back token
      ⟨by rw [array]; decide,fun string => by rw [array] at string; cases string⟩
      (elems.count + blank) count
    have passed := (led.trans taken).trans (passes_blanks behind.2 gap _ _ _ _)
    cases elems with
    | nil =>
      convert passed using 2
      · simp only [Elems.count]
        omega
      · simp only [Elems.text,Elems.comma,List.length_append,List.length_nil]
        omega
      · simp only [Elems.tokens,Elems.size,List.append_nil,Nat.zero_add]
      · exact (Nat.zero_add blank).symm
      · simp only [Elems.count]
        omega
    | cons lead' value' behind' elems' =>
      have parted := scanning_comma separator front
        (back ++ value.tokens (pos + lead.1.length) (front.length + 1 + back.length) front.length)
        (token.counting 1) (Or.inl ⟨array,rfl⟩)
        ((Elems.cons lead' value' behind' elems').count + blank) (count + value.count)
      have rested := others _ _ _ next ended front
        (back ++ value.tokens (pos + lead.1.length) (front.length + 1 + back.length) front.length)
        (token.counting 1) array blank (count + value.count)
      simp only [List.append_assoc,List.cons_append] at passed parted rested
      have whole := (passed.trans parted).trans rested
      have index : front.length + 1 + (back ++ value.tokens (pos + lead.1.length)
          (front.length + 1 + back.length) front.length).length =
          front.length + 1 + back.length + value.count := by
        rw [List.length_append,value.tokens_length]
        omega
      have place : pos + (lead.1 ++ value.text ++ behind.1 ++
          (Elems.cons lead' value' behind' elems').comma).length =
          pos + lead.1.length + value.text.length + behind.1.length +
            (Elems.cons lead' value' behind' elems').comma.length := by
        simp only [List.length_append]
        omega
      convert whole using 2
      · rw [Elems.count]
        omega
      · rw [Elems.text,List.length_append,← Nat.add_assoc,place]
      · rw [index,Elems.tokens,Elems.size,place,Token.counting_counting]
        simp only [List.append_assoc,List.cons_append]
      · rw [Elems.count]
        omega
end

end Parts
section Whole

theorem scanning_root {c : UInt8} (type : TokenType) (bracket : label c = .opening type)
    (remaining : js.drop pos = c :: rest) (blank count : Nat) :
    Passes js (scanning pos (-1) [] (blank + 1) count)
      (scanning (pos + 1) (0 : Nat) [⟨type,pos,-1,0,-1⟩] blank (count + 1)) := by
  have found : opening type (scanning pos (-1) [] (blank + 1) count) =
      .ok (scanning pos (0 : Nat) [⟨type,pos,-1,0,-1⟩] blank (count + 1)) := by
    have allocated := alloc_scanning pos (-1) [] blank
    have typed := update_middle [] ⟨.undefined,-1,-1,0,-1⟩ (List.replicate blank Token.blank)
      fun t => { t with type := type, start := pos }
    simp only [List.nil_append,List.length_nil,Nat.zero_add] at allocated typed
    rw [opening]
    simp only [scanning,List.nil_append,List.length_nil,allocated,except_ok_bind]
    change link _ _ _ >>= _ = _
    rw [link,if_neg (fun other => other rfl),except_ok_bind]
    change update _ ((0 : Nat) : Int) _ >>= _ = _
    rw [typed]
    rfl
  have switched : switch js (scanning pos (-1) [] (blank + 1) count) (label c) =
      opening type (scanning pos (-1) [] (blank + 1) count) := by
    rw [bracket]
    rfl
  exact passes_one remaining (bracket_nonzero bracket (fun same => by cases same))
    (switched.trans found) (Nat.le_refl _)

/-- An object or array that stands under no other token. -/
theorem Value.scanned_root {value : Value} (container : value.type = .object ∨ value.type = .array)
    (remaining : js.drop pos = value.text ++ rest) :
    Passes js (scanning pos (-1) [] value.count 0)
      (scanning (pos + value.text.length) (-1) (value.tokens pos 0 (-1)) 0 value.count) := by
  cases value with
  | string => rcases container with other | other <;> cases other
  | literal => rcases container with other | other <;> cases other
  | object gap members =>
    have spelt : js.drop pos = 123 :: (gap.1 ++ members.text ++ 125 :: rest) := by
      rw [remaining,Value.text]
      simp
    have inner := remaining_next spelt
    have start : js.drop (pos + 1 + gap.1.length) = members.text ++ 125 :: rest := by
      apply remaining_add
      rw [inner,List.append_assoc]
    obtain ⟨last,passed⟩ := members.scanned start ⟨125,rest,rfl,by decide⟩ [] []
      ⟨.object,pos,-1,0,-1⟩ rfl 0 1
    have opened := scanning_root .object (by decide) spelt members.count 0
    have inside : Inside (([] : List Token).length : Nat) (([] : List Token).length + 1)
        (members.tokens (pos + 1 + gap.1.length) 1 0) := members.tokens_inside _ 1 0 (by omega)
    have filled := scanning_filled label_brace inner inside passed
    have span : pos + 1 + (gap.1 ++ members.text ++ [125]).length =
        pos + (Value.object gap members).text.length := by
      simp only [Value.text,List.length_append,List.length_cons]
      omega
    rw [span] at filled
    rw [Value.count]
    convert opened.trans filled using 2
    · rfl
    · omega
  | array gap elems =>
    have spelt : js.drop pos = 91 :: (gap.1 ++ elems.text ++ 93 :: rest) := by
      rw [remaining,Value.text]
      simp
    have inner := remaining_next spelt
    have start : js.drop (pos + 1 + gap.1.length) = elems.text ++ 93 :: rest := by
      apply remaining_add
      rw [inner,List.append_assoc]
    have passed := elems.scanned start ⟨93,rest,rfl,by decide⟩ [] []
      ⟨.array,pos,-1,0,-1⟩ rfl 0 1
    have opened := scanning_root .array (by decide) spelt elems.count 0
    have inside : Inside (([] : List Token).length : Nat) (([] : List Token).length + 1)
        (elems.tokens (pos + 1 + gap.1.length) 1 0) := elems.tokens_inside _ 1 0 (by omega)
    have filled := scanning_filled label_bracket inner inside passed
    have span : pos + 1 + (gap.1 ++ elems.text ++ [93]).length =
        pos + (Value.array gap elems).text.length := by
      simp only [Value.text,List.length_append,List.length_cons]
      omega
    rw [span] at filled
    rw [Value.count]
    convert opened.trans filled using 2
    · rfl
    · omega

theorem Document.scanned (d : Document) :
    Passes d.text (scanning 0 (-1) [] d.root.count 0)
      (scanning d.text.length (-1) d.tokens 0 d.root.count) := by
  have start : d.text.drop 0 = d.lead.1 ++ (d.root.text ++ d.behind.1) := by
    rw [List.drop_zero,Document.text,List.append_assoc]
  have root := remaining_add start
  have last := remaining_add root
  rw [← List.append_nil d.behind.1] at last
  have passed := ((passes_blanks d.lead.2 start (-1) [] d.root.count 0).trans
    (Value.scanned_root d.container root)).trans (passes_blanks d.behind.2 last _ _ _ _)
  rw [Nat.zero_add] at passed
  convert passed using 2
  · rw [Document.text,List.length_append,List.length_append]
  · rfl

/-- Both passes over a document come to its end, and the second one with its tokens. -/
theorem Document.parsed (d : Document) :
    (∃ counted, parse init d.text none = .ok counted ∧ counted.count = d.root.count) ∧
      parse init d.text (some (List.replicate d.root.count Token.blank)) =
        .ok (scanning d.text.length (-1) d.tokens 0 d.root.count) := by
  have ended : more d.text (scanning d.text.length (-1) d.tokens 0 d.root.count) = false := by
    rw [more]
    simp [scanning]
  have ran := d.scanned.scan_eq ended (show _ ≤ 0 + d.text.length by
    rw [Nat.zero_add]
    exact Nat.le_refl _)
  have counts : CountsWith d.root.count (scanning 0 (-1) [] d.root.count 0) ⟨init,none,0⟩ :=
    ⟨⟨rfl,_,rfl,List.length_replicate,forest_init _⟩,rfl,rfl,rfl⟩
  obtain ⟨bare,followed,_,unstored,_,count⟩ := scan_followed
    (fun _ _ related => more_same related) (fun _ _ _ ran related => step_counts ran related) ran
    counts
  refine ⟨⟨bare,?_,count⟩,?_⟩
  · rw [parse]
    change scan _ _ _ (⟨init,none,0⟩ : Scan) >>= _ = _
    rw [followed,except_ok_bind]
    simp only [unstored]
  · have closed : (d.tokens.take d.tokens.length).any Token.isOpen = false := by
      rw [List.take_length,List.any_eq_false]
      intro token inside
      obtain ⟨j,found⟩ := List.mem_iff_getElem?.mp inside
      have stop := ((d.root.tokens_inside d.lead.1.length 0 (-1) (by omega)).found found).1
      obtain ⟨n,stops⟩ := Int.eq_ofNat_of_zero_le stop
      rw [isOpen_closed stops]
      exact Bool.false_ne_true
    rw [parse]
    change scan _ _ _ (scanning 0 (-1) [] d.root.count 0) >>= _ = _
    rw [ran,except_ok_bind]
    simp only [scanning,List.replicate_zero,List.append_nil,closed]
    rfl

end Whole

end QuickConnect.Jsmn

namespace QuickConnect.JsonParser
open Jsmn ScanLoop

def documentCtx (d : Document) : Ctx := ⟨d.text,d.tokens,0⟩

/-- Every document is accepted, whatever its layout and its nesting, and its tokens are the
nodes of its tree. -/
theorem parseStart_document (d : Document) : parseStart true d.text = .ok (documentCtx d) := by
  obtain ⟨⟨counted,first,count⟩,second⟩ := d.parsed
  have several : d.root.count ≠ 0 := by
    rw [← d.root.tokens_length 0 0 0]
    obtain ⟨inner,same⟩ := d.root.tokens_cons 0 0 0
    rw [same,List.length_cons]
    omega
  rw [parseStart,jsmnParse,first]
  simp only
  rw [if_neg (by rw [count]; exact several),except_ok_bind,if_neg Bool.noConfusion,jsmnParse,count,
    second]
  simp only [scanning,several,if_false,except_ok_bind,List.replicate_zero,List.append_nil]
  rfl

end QuickConnect.JsonParser

