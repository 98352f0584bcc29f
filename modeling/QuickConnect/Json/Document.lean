import QuickConnect.Json.Members

/-! JSON documents as they are written, with the blanks between their parts, and the tokens
that stand for them: each value behind its container or its name, in the order of the text. -/
namespace QuickConnect.Jsmn
open Text ScanLoop

abbrev Blanks := { gap : Str // JsonParser.Blank gap }

def Blanks.none : Blanks := ⟨[],fun _ inside => absurd inside List.not_mem_nil⟩

/-- The characters that end a primitive. -/
def stops : List UInt8 := [9,13,10,32,44,93,125]

/-- A number, `true`, `false` or `null`; the tokenizer takes any word that begins like one. -/
structure Word where
  text : Str
  first : ∃ c rest, text = c :: rest ∧ label c = .literal
  plain : ∀ c ∈ text, c ∉ stops ∧ 32 ≤ c ∧ c < 127

/-- The name of a member, from the blanks in front of it to the blanks behind the colon. -/
structure Key where
  lead : Blanks
  name : Str
  valid : StringBody name
  before : Blanks
  after : Blanks

def Key.text (key : Key) : Str :=
  key.lead.1 ++ (quote :: key.name ++ [quote]) ++ key.before.1 ++ [58] ++ key.after.1

mutual
inductive Value
  | string (body : Str) (valid : StringBody body)
  | literal (word : Word)
  | object (gap : Blanks) (members : Members)
  | array (gap : Blanks) (elems : Elems)

inductive Members
  | nil
  | cons (key : Key) (value : Value) (behind : Blanks) (rest : Members)

inductive Elems
  | nil
  | cons (lead : Blanks) (value : Value) (behind : Blanks) (rest : Elems)
end

/-- The comma in front of what follows, if something follows. -/
def Members.comma : Members → Str
  | .nil => []
  | .cons .. => [Text.comma]

def Elems.comma : Elems → Str
  | .nil => []
  | .cons .. => [Text.comma]

mutual
def Value.text : Value → Str
  | .string body _ => quote :: body ++ [quote]
  | .literal word => word.text
  | .object gap members => 123 :: gap.1 ++ members.text ++ [125]
  | .array gap elems => 91 :: gap.1 ++ elems.text ++ [93]

def Members.text : Members → Str
  | .nil => []
  | .cons key value behind rest => key.text ++ value.text ++ behind.1 ++ rest.comma ++ rest.text

def Elems.text : Elems → Str
  | .nil => []
  | .cons lead value behind rest => lead.1 ++ value.text ++ behind.1 ++ rest.comma ++ rest.text
end

def Members.size : Members → Nat
  | .nil => 0
  | .cons _ _ _ rest => rest.size + 1

def Elems.size : Elems → Nat
  | .nil => 0
  | .cons _ _ _ rest => rest.size + 1

mutual
/-- The number of tokens. -/
def Value.count : Value → Nat
  | .string _ _ => 1
  | .literal _ => 1
  | .object _ members => members.count + 1
  | .array _ elems => elems.count + 1

def Members.count : Members → Nat
  | .nil => 0
  | .cons _ value _ rest => value.count + 1 + rest.count

def Elems.count : Elems → Nat
  | .nil => 0
  | .cons _ value _ rest => value.count + rest.count
end

def Value.type : Value → TokenType
  | .string _ _ => .string
  | .literal _ => .primitive
  | .object _ _ => .object
  | .array _ _ => .array

/-- The text of the token of a value: of a string, what is between its quotes. -/
def Value.inner : Value → Str
  | .string body _ => body
  | value => value.text

/-- How many characters stand in front of that text. -/
def Value.inset : Value → Nat
  | .string _ _ => 1
  | _ => 0

def Value.size : Value → Nat
  | .string _ _ => 0
  | .literal _ => 0
  | .object _ members => members.size
  | .array _ elems => elems.size

/-- The token of a value whose text begins at `pos`. -/
def Value.token (value : Value) (pos : Nat) (parent : Int) : Token :=
  ⟨value.type,(pos + value.inset : Nat),(pos + value.inset + value.inner.length : Nat),value.size,
    parent⟩

def Key.token (key : Key) (pos : Nat) (parent : Int) : Token :=
  ⟨.string,(pos + key.lead.1.length + 1 : Nat),
    (pos + key.lead.1.length + 1 + key.name.length : Nat),1,parent⟩

mutual
/-- The tokens of a value whose text begins at `pos`, the first of them with index `index`. -/
def Value.tokens : Value → Nat → Nat → Int → List Token
  | .string body valid, pos, _, parent => [(Value.string body valid).token pos parent]
  | .literal word, pos, _, parent => [(Value.literal word).token pos parent]
  | .object gap members, pos, index, parent =>
    (Value.object gap members).token pos parent ::
      members.tokens (pos + 1 + gap.1.length) (index + 1) index
  | .array gap elems, pos, index, parent =>
    (Value.array gap elems).token pos parent ::
      elems.tokens (pos + 1 + gap.1.length) (index + 1) index

def Members.tokens : Members → Nat → Nat → Int → List Token
  | .nil, _, _, _ => []
  | .cons key value behind rest, pos, index, parent =>
    key.token pos parent :: value.tokens (pos + key.text.length) (index + 1) index ++
      rest.tokens (pos + (key.text ++ value.text ++ behind.1 ++ rest.comma).length)
        (index + 1 + value.count) parent

def Elems.tokens : Elems → Nat → Nat → Int → List Token
  | .nil, _, _, _ => []
  | .cons lead value behind rest, pos, index, parent =>
    value.tokens (pos + lead.1.length) index parent ++
      rest.tokens (pos + (lead.1 ++ value.text ++ behind.1 ++ rest.comma).length)
        (index + value.count) parent
end

/-- A text that is an object or an array between blanks. -/
structure Document where
  lead : Blanks
  root : Value
  container : root.type = .object ∨ root.type = .array
  behind : Blanks

def Document.text (d : Document) : Str := d.lead.1 ++ d.root.text ++ d.behind.1

def Document.tokens (d : Document) : List Token := d.root.tokens d.lead.1.length 0 (-1)

mutual
theorem Value.tokens_length (value : Value) (pos index : Nat) (parent : Int) :
    (value.tokens pos index parent).length = value.count := by
  cases value with
  | string => rfl
  | literal => rfl
  | object gap members =>
    rw [Value.tokens,List.length_cons,members.tokens_length,Value.count]
  | array gap elems =>
    rw [Value.tokens,List.length_cons,elems.tokens_length,Value.count]

theorem Members.tokens_length (members : Members) (pos index : Nat) (parent : Int) :
    (members.tokens pos index parent).length = members.count := by
  cases members with
  | nil => rfl
  | cons key value behind rest =>
    rw [Members.tokens,List.length_append,List.length_cons,value.tokens_length,rest.tokens_length,
      Members.count]

theorem Elems.tokens_length (elems : Elems) (pos index : Nat) (parent : Int) :
    (elems.tokens pos index parent).length = elems.count := by
  cases elems with
  | nil => rfl
  | cons lead value behind rest =>
    rw [Elems.tokens,List.length_append,value.tokens_length,rest.tokens_length,Elems.count]
end

/-- The first token of a value is its own. -/
theorem Value.tokens_cons (value : Value) (pos index : Nat) (parent : Int) :
    ∃ inner, value.tokens pos index parent = value.token pos parent :: inner := by
  cases value <;> exact ⟨_,rfl⟩

/-- The tokens are closed, and each has its parent in front of it, at `low` or behind it. -/
def Inside (low : Int) : Nat → List Token → Prop
  | _, [] => True
  | index, token :: tokens =>
    (0 ≤ token.stop ∧ low ≤ token.parent ∧ token.parent < index) ∧ Inside low (index + 1) tokens

section Inside
variable {low : Int} {index : Nat} {tokens tokens' : List Token}

theorem Inside.append (first : Inside low index tokens)
    (second : Inside low (index + tokens.length) tokens') :
    Inside low index (tokens ++ tokens') := by
  induction tokens generalizing index with
  | nil => exact second
  | cons token tokens ih =>
    refine ⟨first.1,ih first.2 ?_⟩
    rw [Nat.add_assoc,Nat.add_comm 1]
    exact second

theorem Inside.lower {low' : Int} (inside : Inside low index tokens) (less : low' ≤ low) :
    Inside low' index tokens := by
  induction tokens generalizing index with
  | nil => trivial
  | cons token tokens ih => exact ⟨⟨inside.1.1,less.trans inside.1.2.1,inside.1.2.2⟩,ih inside.2⟩

theorem Inside.found (inside : Inside low index tokens) {j : Nat} {token : Token}
    (found : tokens[j]? = some token) :
    0 ≤ token.stop ∧ low ≤ token.parent ∧ token.parent < index + j := by
  induction tokens generalizing index j with
  | nil => cases found
  | cons first tokens ih =>
    cases j with
    | zero =>
      cases found
      obtain ⟨stop,least,before⟩ := inside.1
      exact ⟨stop,least,by omega⟩
    | succ j =>
      obtain ⟨stop,least,before⟩ := ih inside.2 found
      exact ⟨stop,least,by omega⟩

end Inside

mutual
theorem Value.tokens_inside (value : Value) (pos index : Nat) (parent : Int)
    (before : parent < index) : Inside parent index (value.tokens pos index parent) := by
  have own : 0 ≤ (value.token pos parent).stop ∧ parent ≤ (value.token pos parent).parent ∧
      (value.token pos parent).parent < index :=
    ⟨by simp only [Value.token]; omega,Int.le_refl _,before⟩
  cases value with
  | string => exact ⟨own,trivial⟩
  | literal => exact ⟨own,trivial⟩
  | object gap members =>
    rw [Value.tokens]
    exact ⟨own,(members.tokens_inside _ _ _ (by omega)).lower (Int.le_of_lt before)⟩
  | array gap elems =>
    rw [Value.tokens]
    exact ⟨own,(elems.tokens_inside _ _ _ (by omega)).lower (Int.le_of_lt before)⟩

theorem Members.tokens_inside (members : Members) (pos index : Nat) (parent : Int)
    (before : parent < index) : Inside parent index (members.tokens pos index parent) := by
  cases members with
  | nil => trivial
  | cons key value behind rest =>
    have own : 0 ≤ (key.token pos parent).stop ∧ parent ≤ (key.token pos parent).parent ∧
        (key.token pos parent).parent < index :=
      ⟨by simp only [Key.token]; omega,Int.le_refl _,before⟩
    have deeper := (value.tokens_inside (pos + key.text.length) (index + 1) index (by omega)).lower
      (Int.le_of_lt before)
    rw [Members.tokens,List.cons_append]
    refine ⟨own,deeper.append ?_⟩
    rw [value.tokens_length]
    exact rest.tokens_inside _ _ _ (by omega)

theorem Elems.tokens_inside (elems : Elems) (pos index : Nat) (parent : Int)
    (before : parent < index) : Inside parent index (elems.tokens pos index parent) := by
  cases elems with
  | nil => trivial
  | cons lead value behind rest =>
    rw [Elems.tokens]
    apply (value.tokens_inside _ _ _ before).append
    rw [value.tokens_length]
    exact rest.tokens_inside _ _ _ (by omega)
end

end QuickConnect.Jsmn
