import QuickConnect.Json.StringBody
import QuickConnect.Json.JsonParser

/-! Objects whose members are all strings, written without blanks: jsmn accepts each of them
and a lookup in it returns what an association list of its members has. -/
namespace QuickConnect.Jsmn
open Text ScanLoop

abbrev Member := Str × Str

def memberText (m : Member) : Str := quote :: m.1 ++ quote :: 58 :: quote :: m.2 ++ [quote]

def tailText : List Member → Str
  | [] => [125]
  | m :: ms => Text.comma :: memberText m ++ tailText ms

def objectText (m : Member) (ms : List Member) : Str := 123 :: memberText m ++ tailText ms

def StringMember (m : Member) : Prop := StringBody m.1 ∧ StringBody m.2

theorem memberText_length (m : Member) : (memberText m).length = m.1.length + m.2.length + 5 := by
  simp only [memberText,List.length_append,List.length_cons,List.length_nil]
  omega

/-- Neither the name nor the value of the member has a NUL inside. -/
def CleanMember (m : Member) : Prop := 0 ∉ m.1 ∧ 0 ∉ m.2

theorem StringMember.clean {m : Member} (valid : StringMember m) : CleanMember m :=
  ⟨valid.1.clean,valid.2.clean⟩

theorem memberText_clean {m : Member} (clean : CleanMember m) : 0 ∉ memberText m := by
  simp only [memberText,List.mem_append,List.mem_cons,List.not_mem_nil,or_false,not_or]
  exact ⟨⟨⟨by decide,clean.1⟩,by decide,by decide,by decide,clean.2⟩,by decide⟩

theorem tailText_clean {ms : List Member} (clean : ∀ x ∈ ms, CleanMember x) : 0 ∉ tailText ms := by
  induction ms with
  | nil => decide
  | cons m ms ih =>
    have member := memberText_clean (clean m List.mem_cons_self)
    have rest := ih fun x inside => clean x (List.mem_cons_of_mem _ inside)
    simp only [tailText,List.cons_append,List.mem_cons,List.mem_append,not_or]
    exact ⟨by decide,member,rest⟩

theorem objectText_clean {m : Member} {ms : List Member} (clean : ∀ x ∈ m :: ms, CleanMember x) :
    0 ∉ objectText m ms := by
  have member := memberText_clean (clean m List.mem_cons_self)
  have rest := tailText_clean fun x inside => clean x (List.mem_cons_of_mem _ inside)
  simp only [objectText,List.cons_append,List.mem_cons,List.mem_append,not_or]
  exact ⟨by decide,member,rest⟩

section Steps
variable {js rest : Str} {s after : Scan}

abbrev Passes (js : Str) : Scan → Scan → Prop :=
  Advances (more js) (step js) (fun s => s.parser.pos)

theorem passes_one {c : UInt8} (remaining : js.drop s.parser.pos = c :: rest) (nonzero : c ≠ 0)
    (switched : switch js s (label c) = .ok after) (forward : s.parser.pos ≤ after.parser.pos) :
    Passes js s (next after) := by
  have here := peek remaining
  apply Advances.one
  · rw [more,here]
    simpa using nonzero
  · rw [step,here,Option.getD_some,switched]
    rfl
  · exact Nat.lt_succ_of_le forward

theorem stringEnd_quoted {body : Str} {pos : Nat} (valid : StringBody body)
    (remaining : js.drop pos = quote :: body ++ quote :: rest) :
    stringEnd js js.length (pos + 1) = .ok (pos + 1 + body.length) := by
  have length := congrArg List.length remaining
  simp only [List.length_drop,List.length_append,List.length_cons] at length
  exact stringEnd_body valid (remaining_next remaining) (by omega)

end Steps

section Counting
variable {js rest : Str}

-- The first pass has no tokens and leaves the superior token alone.
def counting (pos count : Nat) : Scan := ⟨⟨pos,0,-1⟩,none,count⟩

theorem counting_string {body : Str} {pos : Nat} (valid : StringBody body)
    (remaining : js.drop pos = quote :: body ++ quote :: rest) (count : Nat) :
    Passes js (counting pos count) (counting (pos + body.length + 2) (count + 1)) := by
  have ended := stringEnd_quoted valid remaining
  have found : string js (counting pos count) =
      .ok (counting (pos + 1 + body.length) (count + 1)) := by
    rw [string,parseString]
    change (stringEnd js js.length (pos + 1) >>= _) >>= _ = _
    rw [ended]
    rfl
  have passed := passes_one (s := counting pos count) remaining (by decide) found
    (show pos ≤ pos + 1 + body.length by omega)
  have same : pos + body.length + 2 = pos + 1 + body.length + 1 := by omega
  rw [same]
  exact passed

theorem counting_colon {pos : Nat} (remaining : js.drop pos = 58 :: rest) (count : Nat) :
    Passes js (counting pos count) (counting (pos + 1) count) :=
  passes_one (s := counting pos count) remaining (by decide) rfl (Nat.le_refl _)

theorem counting_comma {pos : Nat} (remaining : js.drop pos = Text.comma :: rest) (count : Nat) :
    Passes js (counting pos count) (counting (pos + 1) count) :=
  passes_one (s := counting pos count) remaining (by decide) rfl (Nat.le_refl _)

theorem counting_opening {pos : Nat} (remaining : js.drop pos = 123 :: rest) (count : Nat) :
    Passes js (counting pos count) (counting (pos + 1) (count + 1)) :=
  passes_one (s := counting pos count) remaining (by decide) rfl (Nat.le_refl _)

theorem counting_closing {pos : Nat} (remaining : js.drop pos = 125 :: rest) (count : Nat) :
    Passes js (counting pos count) (counting (pos + 1) count) :=
  passes_one (s := counting pos count) remaining (by decide) rfl (Nat.le_refl _)

theorem counting_member {m : Member} {pos : Nat} (valid : StringMember m)
    (remaining : js.drop pos = memberText m ++ rest) (count : Nat) :
    Passes js (counting pos count) (counting (pos + (memberText m).length) (count + 2)) := by
  have name : js.drop pos = quote :: m.1 ++ quote :: (58 :: quote :: m.2 ++ quote :: rest) := by
    rw [remaining,memberText]
    simp
  have colon : js.drop (pos + m.1.length + 2) = 58 :: quote :: m.2 ++ quote :: rest := by
    have behind := remaining_next (remaining_add name)
    rw [← behind]
    congr 1
  have value := remaining_next colon
  have passed := ((counting_string valid.1 name count).trans (counting_colon colon _)).trans
    (counting_string valid.2 value _)
  rw [memberText_length]
  convert passed using 2
  omega

theorem counting_tail {ms : List Member} (valid : ∀ m ∈ ms, StringMember m) :
    ∀ {pos : Nat} {count : Nat}, js.drop pos = tailText ms →
      Passes js (counting pos count) (counting js.length (count + 2 * ms.length)) := by
  induction ms with
  | nil =>
    intro pos count remaining
    have length := congrArg List.length remaining
    rw [List.length_drop,tailText,List.length_singleton] at length
    have last : js.length = pos + 1 := by omega
    rw [last]
    exact counting_closing remaining count
  | cons m ms ih =>
    intro pos count remaining
    rw [tailText,List.cons_append] at remaining
    have member := remaining_next remaining
    have passed := ((counting_comma remaining count).trans
      (counting_member (valid m List.mem_cons_self) member _)).trans
      (ih (fun m inside => valid m (List.mem_cons_of_mem _ inside)) (remaining_add member))
    convert passed using 2
    rw [List.length_cons]
    omega

theorem counting_object {m : Member} {ms : List Member} (valid : ∀ x ∈ m :: ms, StringMember x) :
    Passes (objectText m ms) (counting 0 0)
      (counting (objectText m ms).length (1 + 2 * (m :: ms).length)) := by
  have start : (objectText m ms).drop 0 = 123 :: (memberText m ++ tailText ms) := rfl
  have member := remaining_next start
  have passed := ((counting_opening start 0).trans
    (counting_member (valid m List.mem_cons_self) member _)).trans
    (counting_tail (fun x inside => valid x (List.mem_cons_of_mem _ inside)) (remaining_add member))
  convert passed using 2
  rw [List.length_cons]
  omega

end Counting

section Tokens
variable {js rest : Str}

def nameToken (start : Nat) (m : Member) : Token :=
  ⟨.string,(start + 1 : Nat),(start + 1 + m.1.length : Nat),1,0⟩

def valueToken (start key : Nat) (m : Member) : Token :=
  ⟨.string,(start + m.1.length + 4 : Nat),(start + m.1.length + 4 + m.2.length : Nat),0,key⟩

/-- The tokens of members, the first one at `start` and its name with index `key`. -/
def memberTokens : Nat → Nat → List Member → List Token
  | _, _, [] => []
  | start, key, m :: ms =>
    nameToken start m :: valueToken start key m ::
      memberTokens (start + (memberText m).length + 1) (key + 2) ms

def openObject (size : Nat) : Token := ⟨.object,0,-1,size,-1⟩

def closedObject (stop size : Nat) : Token := ⟨.object,0,stop,size,-1⟩

-- The second pass, with the tokens allocated so far and the blank ones behind them.
def building (pos super : Nat) (front : List Token) (blank : Nat) (count : Nat) : Scan :=
  ⟨⟨pos,front.length,super⟩,some (front ++ List.replicate blank Token.blank),count⟩

theorem tokenAt_middle (front : List Token) (token : Token) (back : List Token) :
    tokenAt (front ++ token :: back) front.length = .ok token := by
  rw [tokenAt,if_neg (by omega),Int.toNat_natCast,List.getElem?_append_right (Nat.le_refl _),
    Nat.sub_self]
  rfl

theorem update_middle (front : List Token) (token : Token) (back : List Token)
    (change : Token → Token) :
    update (front ++ token :: back) front.length change = .ok (front ++ change token :: back) := by
  rw [update,tokenAt_middle,Int.toNat_natCast]
  change Except.ok _ = _
  rw [List.set_append_right _ _ (Nat.le_refl _),Nat.sub_self,List.set_cons_zero]

theorem addToken_building (type : TokenType) (start stop pos super : Nat) (front : List Token)
    (blank : Nat) :
    addToken type start stop ⟨pos,front.length,super⟩
        (some (front ++ List.replicate (blank + 1) Token.blank)) =
      .ok (⟨pos,front.length + 1,super⟩,
        some (front ++ ⟨type,start,stop,0,super⟩ :: List.replicate blank Token.blank)) := by
  rw [List.replicate_succ,addToken,allocToken,List.getElem?_append_right (Nat.le_refl _),
    Nat.sub_self]
  simp only [List.getElem?_cons_zero]
  rw [List.set_append_right _ _ (Nat.le_refl _),Nat.sub_self,List.set_cons_zero]
  change (update _ (((front.length + 1 : Nat) : Int) - 1) _ >>= _) = _
  have newest : ((front.length + 1 : Nat) : Int) - 1 = front.length := by omega
  rw [newest,update_middle]
  rfl

theorem building_string {body : Str} {pos : Nat} (valid : StringBody body)
    (remaining : js.drop pos = quote :: body ++ quote :: rest) (front back : List Token)
    (super : Token) (blank count : Nat) :
    Passes js (building pos front.length (front ++ super :: back) (blank + 1) count)
      (building (pos + body.length + 2) front.length
        (front ++ { super with size := super.size + 1 } :: back ++
          [⟨.string,(pos + 1 : Nat),(pos + 1 + body.length : Nat),0,front.length⟩])
        blank (count + 1)) := by
  have ended := stringEnd_quoted valid remaining
  have added := addToken_building .string (pos + 1) (pos + 1 + body.length) pos front.length
    (front ++ super :: back) blank
  generalize named : (⟨.string,(pos + 1 : Nat),(pos + 1 + body.length : Nat),0,front.length⟩ :
    Token) = token
  rw [named] at added
  have regrouped : front ++ super :: back ++ token :: List.replicate blank Token.blank =
      front ++ super :: (back ++ token :: List.replicate blank Token.blank) := by simp
  rw [regrouped] at added
  have sized := update_middle front super (back ++ token :: List.replicate blank Token.blank)
    fun t => { t with size := t.size + 1 }
  have superior : (front.length : Int) ≠ -1 := by omega
  have found : string js (building pos front.length (front ++ super :: back) (blank + 1) count) =
      .ok ⟨⟨pos + 1 + body.length,(front ++ super :: back).length + 1,front.length⟩,
        some (front ++ { super with size := super.size + 1 } ::
          (back ++ token :: List.replicate blank Token.blank)),count + 1⟩ := by
    rw [string,parseString]
    simp only [building,ended,except_ok_bind,added]
    rw [counted]
    simp only
    rw [if_pos superior,sized]
    rfl
  have passed := passes_one (s := building pos front.length (front ++ super :: back) (blank + 1)
    count) remaining (by decide) found (show pos ≤ pos + 1 + body.length by omega)
  have same : pos + body.length + 2 = pos + 1 + body.length + 1 := by omega
  rw [same]
  convert passed using 1
  rw [building,next]
  simp [Nat.add_assoc]

theorem building_colon {pos : Nat} (remaining : js.drop pos = 58 :: rest) (super : Nat)
    (front : List Token) (token : Token) (blank count : Nat) :
    Passes js (building pos super (front ++ [token]) blank count)
      (building (pos + 1) front.length (front ++ [token]) blank count) := by
  have passed := passes_one (s := building pos super (front ++ [token]) blank count) remaining
    (by decide) rfl (Nat.le_refl _)
  convert passed using 1
  rw [building,next]
  simp [building]

theorem building_comma {pos : Nat} (remaining : js.drop pos = Text.comma :: rest)
    (front back : List Token) {name : Token} (string : name.type = .string)
    (inside : name.parent = 0) (blank count : Nat) :
    Passes js (building pos front.length (front ++ name :: back) blank count)
      (building (pos + 1) 0 (front ++ name :: back) blank count) := by
  have found : comma (building pos front.length (front ++ name :: back) blank count) =
      .ok (building pos 0 (front ++ name :: back) blank count) := by
    have superior : (front.length : Int) ≠ -1 := by omega
    have named := tokenAt_middle front name (back ++ List.replicate blank Token.blank)
    rw [← List.cons_append,← List.append_assoc] at named
    rw [comma]
    simp only [building,ne_eq,superior,not_false_eq_true,if_true,named]
    change (if name.type ≠ .array ∧ name.type ≠ .object then _ else _) = _
    rw [if_pos (by rw [string]; decide),inside]
    rfl
  exact passes_one (s := building pos front.length (front ++ name :: back) blank count) remaining
    (by decide) found (Nat.le_refl _)

def built (stop size : Nat) (tokens : List Token) (count : Nat) : Scan :=
  ⟨⟨stop,tokens.length + 1,-1⟩,some (closedObject stop size :: tokens),count⟩

theorem building_closing {pos : Nat} (remaining : js.drop pos = 125 :: rest) (size : Nat)
    (front : List Token) (start : Nat) (m : Member) (count : Nat) :
    Passes js
      (building pos (front.length + 1) (openObject size :: front ++
        [nameToken start m,valueToken start (front.length + 1) m]) 0 count)
      (built (pos + 1) size
        (front ++ [nameToken start m,valueToken start (front.length + 1) m]) count) := by
  generalize named : nameToken start m = name
  generalize valued : valueToken start (front.length + 1) m = value
  have atValue := tokenAt_middle (openObject size :: front ++ [name]) value []
  have atName := tokenAt_middle (openObject size :: front) name [value]
  have atObject := tokenAt_middle [] (openObject size) (front ++ [name,value])
  have closes := update_middle [] (openObject size) (front ++ [name,value])
    fun t => { t with stop := pos + 1 }
  simp only [List.append_assoc,List.cons_append,List.nil_append,List.length_append,
    List.length_cons,List.length_nil,Nat.zero_add] at atValue atName atObject closes
  have valueClosed : ¬(value.start ≠ -1 ∧ value.stop = -1) := by
    rw [← valued]
    simp only [valueToken]
    omega
  have nameClosed : ¬(name.start ≠ -1 ∧ name.stop = -1) := by
    rw [← named]
    simp only [nameToken]
    omega
  have valueParent : value.parent = (front.length + 1 : Nat) := by rw [← valued]; rfl
  have nameParent : name.parent = (0 : Nat) := by rw [← named]; rfl
  have valueInside : value.parent ≠ -1 := by omega
  have nameInside : name.parent ≠ -1 := by omega
  have found : closing .object (building pos (front.length + 1)
      (openObject size :: front ++ [name,value]) 0 count) =
      .ok ⟨⟨pos,front.length + 3,-1⟩,
        some (closedObject (pos + 1) size :: (front ++ [name,value])),count⟩ := by
    rw [closing]
    simp only [building,List.append_assoc,List.cons_append,List.nil_append,List.length_append,
      List.length_cons,List.length_nil,List.replicate_zero,Nat.zero_add]
    have three : front.length + (1 + 1) + 1 = front.length + 3 := rfl
    have newest : ((front.length + 3 : Nat) : Int) - 1 = (front.length + 2 : Nat) := by omega
    have ran : close .object pos (front.length + 1 : Nat) (openObject size :: (front ++ [name,value]))
        (front.length + 3) (front.length + 2 : Nat) =
        .ok (-1,closedObject (pos + 1) size :: (front ++ [name,value])) := by
      rw [close,atValue,except_ok_bind,if_neg valueClosed,if_neg valueInside,valueParent]
      rw [close,atName,except_ok_bind,if_neg nameClosed,if_neg nameInside,nameParent]
      rw [close,atObject,except_ok_bind,if_pos ⟨by simp [openObject],rfl⟩,if_neg (by simp [openObject]),
        closes,except_ok_bind]
      rfl
    rw [three,if_neg (by omega),newest,ran]
    rfl
  have passed := passes_one (s := building pos (front.length + 1)
    (openObject size :: front ++ [name,value]) 0 count) remaining (by decide) found (Nat.le_refl _)
  convert passed using 1
  rw [built,next]
  simp

theorem building_member {m : Member} {pos : Nat} (valid : StringMember m)
    (remaining : js.drop pos = memberText m ++ rest) (size : Nat) (front : List Token)
    (blank count : Nat) :
    Passes js (building pos 0 (openObject size :: front) (blank + 2) count)
      (building (pos + (memberText m).length) (front.length + 1) (openObject (size + 1) :: front ++
        [nameToken pos m,valueToken pos (front.length + 1) m]) blank (count + 2)) := by
  have name : js.drop pos = quote :: m.1 ++ quote :: (58 :: quote :: m.2 ++ quote :: rest) := by
    rw [remaining,memberText]
    simp
  have colon : js.drop (pos + m.1.length + 2) = 58 :: quote :: m.2 ++ quote :: rest := by
    have behind := remaining_next (remaining_add name)
    rw [← behind]
    congr 1
  have value := remaining_next colon
  have named := building_string valid.1 name [] front (openObject size) (blank + 1) count
  have turned := building_colon colon 0 (openObject (size + 1) :: front)
    ⟨.string,(pos + 1 : Nat),(pos + 1 + m.1.length : Nat),0,0⟩ (blank + 1) (count + 1)
  have valued := building_string valid.2 value (openObject (size + 1) :: front) []
    ⟨.string,(pos + 1 : Nat),(pos + 1 + m.1.length : Nat),0,0⟩ blank (count + 1)
  have span : pos + (memberText m).length = pos + m.1.length + 2 + 1 + m.2.length + 2 := by
    rw [memberText_length]
    omega
  have tokens : openObject (size + 1) :: front ++
      [nameToken pos m,valueToken pos (front.length + 1) m] =
      openObject (size + 1) :: front ++ [nameToken pos m] ++
        [valueToken pos (front.length + 1) m] := by simp
  rw [span,tokens]
  exact (named.trans turned).trans valued

theorem building_tail {ms : List Member} (valid : ∀ x ∈ ms, StringMember x) :
    ∀ (pos size start count : Nat) (m : Member) (front : List Token), js.drop pos = tailText ms →
      Passes js
        (building pos (front.length + 1) (openObject size :: front ++
          [nameToken start m,valueToken start (front.length + 1) m]) (2 * ms.length) count)
        (built js.length (size + ms.length) (front ++
          [nameToken start m,valueToken start (front.length + 1) m] ++
          memberTokens (pos + 1) (front.length + 3) ms) (count + 2 * ms.length)) := by
  induction ms with
  | nil =>
    intro pos size start count m front remaining
    have length := congrArg List.length remaining
    rw [List.length_drop,tailText,List.length_singleton] at length
    have last : js.length = pos + 1 := by omega
    rw [last,memberTokens,List.append_nil]
    exact building_closing remaining size front start m count
  | cons next ms ih =>
    intro pos size start count m front remaining
    rw [tailText,List.cons_append] at remaining
    have member := remaining_next remaining
    have separated := building_comma remaining (openObject size :: front)
      [valueToken start (front.length + 1) m] (show (nameToken start m).type = .string from rfl)
      rfl (2 * ms.length + 2) count
    have added := building_member (valid next List.mem_cons_self) member size
      (front ++ [nameToken start m,valueToken start (front.length + 1) m]) (2 * ms.length) count
    have rest := ih (fun x inside => valid x (List.mem_cons_of_mem _ inside)) _ (size + 1)
      (pos + 1) (count + 2) next
      (front ++ [nameToken start m,valueToken start (front.length + 1) m])
      (remaining_add member)
    have room : 2 * (next :: ms).length = 2 * ms.length + 2 := by
      rw [List.length_cons]
      omega
    have size' : size + (next :: ms).length = size + 1 + ms.length := by
      rw [List.length_cons]
      omega
    have length : (front ++ [nameToken start m,valueToken start (front.length + 1) m]).length =
        front.length + 2 := by simp
    rw [length] at added rest
    have total : count + (2 * ms.length + 2) = count + 2 + 2 * ms.length := by omega
    rw [room,size',memberTokens,total]
    have passed := (separated.trans added).trans rest
    simp only [List.append_assoc,List.cons_append,List.nil_append] at passed ⊢
    exact passed

def objectTokens (m : Member) (ms : List Member) : List Token :=
  closedObject (objectText m ms).length (m :: ms).length :: memberTokens 1 1 (m :: ms)

theorem building_opening {pos : Nat} (remaining : js.drop pos = 123 :: rest) (blank : Nat) :
    Passes js ⟨⟨pos,0,-1⟩,some (List.replicate (blank + 1) Token.blank),0⟩
      (building (pos + 1) 0 [{ openObject 0 with start := pos }] blank 1) := by
  have found : opening .object ⟨⟨pos,0,-1⟩,some (List.replicate (blank + 1) Token.blank),0⟩ =
      .ok (building pos 0 [{ openObject 0 with start := pos }] blank 1) := by
    rw [List.replicate_succ]
    rfl
  exact passes_one (s := ⟨⟨pos,0,-1⟩,some (List.replicate (blank + 1) Token.blank),0⟩) remaining
    (by decide) found (Nat.le_refl _)

theorem building_object {m : Member} {ms : List Member} (valid : ∀ x ∈ m :: ms, StringMember x) :
    Passes (objectText m ms)
      ⟨init,some (List.replicate (1 + 2 * (m :: ms).length) Token.blank),0⟩
      (built (objectText m ms).length (m :: ms).length (memberTokens 1 1 (m :: ms))
        (1 + 2 * (m :: ms).length)) := by
  have start : (objectText m ms).drop 0 = 123 :: (memberText m ++ tailText ms) := rfl
  have member := remaining_next start
  have opened := building_opening start (2 * ms.length + 2)
  have added := building_member (valid m List.mem_cons_self) member 0 [] (2 * ms.length) 1
  have rest := building_tail (fun x inside => valid x (List.mem_cons_of_mem _ inside)) _ 1 1 3 m []
    (remaining_add member)
  have room : 1 + 2 * (m :: ms).length = 2 * ms.length + 2 + 1 := by
    rw [List.length_cons]
    omega
  have total : 2 * ms.length + 2 + 1 = 3 + 2 * ms.length := by omega
  have size : (m :: ms).length = 1 + ms.length := by
    rw [List.length_cons]
    omega
  have spot : 1 + (memberText m).length + 1 = 0 + 1 + (memberText m).length + 1 := by omega
  rw [room,size,memberTokens,spot]
  have passed := (opened.trans added).trans rest
  rw [← total] at passed
  exact passed

end Tokens

theorem parse_counting {m : Member} {ms : List Member} (valid : ∀ x ∈ m :: ms, StringMember x) :
    parse init (objectText m ms) none =
      .ok (counting (objectText m ms).length (1 + 2 * (m :: ms).length)) := by
  have ended : more (objectText m ms)
      (counting (objectText m ms).length (1 + 2 * (m :: ms).length)) = false := by
    rw [more]
    simp [counting]
  have ran := (counting_object valid).scan_eq ended (show _ ≤ 0 + (objectText m ms).length by
    rw [Nat.zero_add]
    exact Nat.le_refl _)
  rw [parse]
  change (scan _ _ _ (counting 0 0) >>= _) = _
  rw [ran]
  rfl

theorem isOpen_closed {token : Token} {n : Nat} (stops : token.stop = n) :
    token.isOpen = false := by
  have closed : token.stop ≠ -1 := by omega
  simp [Token.isOpen,closed]

theorem memberTokens_closed {start key : Nat} {ms : List Member} {token : Token}
    (inside : token ∈ memberTokens start key ms) : token.isOpen = false := by
  induction ms generalizing start key with
  | nil => cases inside
  | cons m ms ih =>
    rw [memberTokens] at inside
    rcases List.mem_cons.mp inside with rfl | inside
    · exact isOpen_closed rfl
    rcases List.mem_cons.mp inside with rfl | inside
    · exact isOpen_closed rfl
    · exact ih inside

theorem parse_building {m : Member} {ms : List Member} (valid : ∀ x ∈ m :: ms, StringMember x) :
    parse init (objectText m ms) (some (List.replicate (1 + 2 * (m :: ms).length) Token.blank)) =
      .ok (built (objectText m ms).length (m :: ms).length (memberTokens 1 1 (m :: ms))
        (1 + 2 * (m :: ms).length)) := by
  have ended : more (objectText m ms) (built (objectText m ms).length (m :: ms).length
      (memberTokens 1 1 (m :: ms)) (1 + 2 * (m :: ms).length)) = false := by
    rw [more]
    simp [built]
  have ran := (building_object valid).scan_eq ended (show _ ≤ 0 + (objectText m ms).length by
    rw [Nat.zero_add]
    exact Nat.le_refl _)
  have closed : ((closedObject (objectText m ms).length (m :: ms).length ::
      memberTokens 1 1 (m :: ms)).take ((memberTokens 1 1 (m :: ms)).length + 1)).any
        Token.isOpen = false := by
    rw [List.take_of_length_le (Nat.le_of_eq List.length_cons),List.any_eq_false]
    intro token inside
    rcases List.mem_cons.mp inside with rfl | inside
    · rw [isOpen_closed rfl]
      exact Bool.false_ne_true
    · rw [memberTokens_closed inside]
      exact Bool.false_ne_true
  rw [parse]
  change (scan _ _ _ (⟨init,_,0⟩ : Scan) >>= _) = _
  rw [ran,except_ok_bind]
  simp only [built,closed]
  rfl

end QuickConnect.Jsmn
