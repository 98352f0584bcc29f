import QuickConnect.Json.Streaming
import QuickConnect.Json.Trail

/-! Trees written by the calls of json_generator.c and read by those of json_parser.c. -/
namespace QuickConnect.JsonGen
open Text
open Jsmn (Value Members Elems Key Blanks Word Document StringBody)

section Words

theorem digit_word {c : UInt8} (digit : JsonParser.isDigit c = true) :
    Jsmn.label c = .literal ∧ c ∉ Jsmn.stops ∧ 32 ≤ c ∧ c < 127 :=
  JsonParser.digit_every (P := fun c => Jsmn.label c = .literal ∧ c ∉ Jsmn.stops ∧ 32 ≤ c ∧ c < 127)
    (by decide) digit

theorem decimal_chars {val : UInt32} {c : UInt8} (inside : c ∈ decimal val) :
    Jsmn.label c = .literal ∧ c ∉ Jsmn.stops ∧ 32 ≤ c ∧ c < 127 := by
  have all := List.all_eq_true.mp (JsonParser.digits_all val.toBitVec.toInt.natAbs)
  rw [decimal] at inside
  split at inside
  · rcases List.mem_cons.mp inside with rfl | inside
    · decide
    · exact digit_word (all c inside)
  · exact digit_word (all c inside)

theorem decimal_first (val : UInt32) : ∃ c rest, decimal val = c :: rest := by
  have some' : decimal val ≠ [] := by
    rw [decimal]
    split
    · exact List.cons_ne_nil _ _
    · intro none
      exact Nat.toDigits_ne_nil (List.map_eq_nil_iff.mp none)
  exact List.exists_cons_of_ne_nil some'

def intWord (val : UInt32) : Word where
  text := decimal val
  first := by
    obtain ⟨c,rest,same⟩ := decimal_first val
    exact ⟨c,rest,same,(decimal_chars (same ▸ List.mem_cons_self)).1⟩
  plain _ inside := (decimal_chars inside).2

theorem plain_every {text : Str}
    (every : text.all (fun c => decide (c ∉ Jsmn.stops ∧ 32 ≤ c ∧ c < 127)) = true) :
    ∀ c ∈ text, c ∉ Jsmn.stops ∧ 32 ≤ c ∧ c < 127 := by
  intro c inside
  exact of_decide_eq_true (List.all_eq_true.mp every c inside)

def boolWord (val : Bool) : Word where
  text := boolText val
  first := by cases val <;> exact ⟨_,_,rfl,by decide⟩
  plain := plain_every (by cases val <;> decide)

def nullWord : Word where
  text := bytes "null"
  first := ⟨_,_,rfl,by decide⟩
  plain := plain_every (by decide)

end Words
section Trees

mutual
/-- A value as the calls write it. -/
inductive Entry
  | string (val : Str) (valid : StringBody val)
  | longString (val : Option Str) (more : List Str) (valid : StringBody (val.getD [] ++ more.flatten))
  | bool (val : Bool)
  | int (val : UInt32)
  | float (val : Str) (word : Word) (prints : word.text = printed 30 val)
  | null
  | object (fields : Fields)
  | array (items : Items)

/-- A member can also be a text that is there already. -/
inductive Fields
  | nil
  | cons (name : Str) (valid : StringBody name) (entry : Entry) (rest : Fields)
  | text (name : Str) (valid : StringBody name) (value : Value) (rest : Fields)

inductive Items
  | nil
  | cons (entry : Entry) (rest : Items)
end

def longOps (first : Op) (more : List Str) : List Op :=
  first :: more.map .addToLongString ++ [.endLongString]

mutual
/-- The calls for a value, which is a member if it has a name. -/
def Entry.ops : Option Str → Entry → List Op
  | none, .string val _ => [.arrSetString val]
  | some name, .string val _ => [.objSetString name val]
  | none, .longString val more _ => longOps (.arrStartLongString val) more
  | some name, .longString val more _ => longOps (.objStartLongString name val) more
  | none, .bool val => [.arrSetBool val]
  | some name, .bool val => [.objSetBool name val]
  | none, .int val => [.arrSetInt val]
  | some name, .int val => [.objSetInt name val]
  | none, .float val _ _ => [.arrSetFloat val]
  | some name, .float val _ _ => [.objSetFloat name val]
  | none, .null => [.arrSetNull]
  | some name, .null => [.objSetNull name]
  | none, .object fields => .startObject :: fields.ops ++ [.endObject]
  | some name, .object fields => .pushObject name :: fields.ops ++ [.popObject]
  | none, .array items => .startArray :: items.ops ++ [.endArray]
  | some name, .array items => .pushArray name :: items.ops ++ [.popArray]

def Fields.ops : Fields → List Op
  | .nil => []
  | .cons name _ entry rest => entry.ops (some name) ++ rest.ops
  | .text name _ value rest =>
    (if value.type = .object then .pushObjectStr name (some value.text)
      else .pushArrayStr name (some value.text)) :: rest.ops

def Items.ops : Items → List Op
  | .nil => []
  | .cons entry rest => entry.ops none ++ rest.ops
end

/-- A name without blanks around it. -/
def plainKey (name : Str) (valid : StringBody name) : Key := ⟨.none,name,valid,.none,.none⟩

mutual
def Entry.value : Entry → Value
  | .string val valid => .string val valid
  | .longString val more valid => .string (val.getD [] ++ more.flatten) valid
  | .bool val => .literal (boolWord val)
  | .int val => .literal (intWord val)
  | .float _ word _ => .literal word
  | .null => .literal nullWord
  | .object fields => .object .none fields.members
  | .array items => .array .none items.elems

def Fields.members : Fields → Members
  | .nil => .nil
  | .cons name valid entry rest => .cons (plainKey name valid) entry.value .none rest.members
  | .text name valid value rest => .cons (plainKey name valid) value .none rest.members

def Items.elems : Items → Elems
  | .nil => .nil
  | .cons entry rest => .cons .none entry.value .none rest.elems
end

end Trees
section Texts

theorem written_append (front back : List (Option Str)) :
    written (front ++ back) = written front ++ written back := by
  rw [written,List.map_append,List.flatten_append]
  rfl

theorem written_parted (comma : Bool) : written (parted comma) = separator comma := by
  cases comma <;> rfl

def nameText : Option Str → Str
  | none => []
  | some name => quote :: name ++ [quote,58]

theorem written_named (name : Str) : written (named name) = nameText (some name) := by
  simp [written,named,nameText]

/-- The calls write a text and leave a flag. -/
def Writes (comma : Bool) (ops : List Op) (text : Str) (after : Bool) : Prop :=
  ∀ rest, opsText comma (ops ++ rest) = text ++ opsText after rest

variable {comma middle after : Bool} {ops ops' : List Op} {text text' : Str}

theorem writes_nil (comma : Bool) : Writes comma [] [] comma := fun _ => rfl

theorem Writes.append (first : Writes comma ops text middle) (second : Writes middle ops' text' after) :
    Writes comma (ops ++ ops') (text ++ text') after := by
  intro rest
  rw [List.append_assoc,first,second,List.append_assoc]

theorem writes_one (comma : Bool) (op : Op) : Writes comma [op] (op.text comma) (op.after comma) :=
  fun _ => rfl

theorem written_one (piece : Str) : written [some piece] = piece := List.append_nil piece

theorem written_quoted (val : Str) : written (quoted val) = quote :: val ++ [quote] := by
  simp [written,quoted]

theorem writes_leaf {op : Op} (name : Option Str)
    (front : op.front comma = parted comma ++ name.elim [] named) (kept : op.after comma = after)
    (spelt : written op.value = text) :
    Writes comma [op] (separator comma ++ nameText name ++ text) after := by
  have one := writes_one comma op
  have called : written (name.elim [] named) = nameText name := by
    cases name with
    | none => rfl
    | some name => exact written_named name
  rw [Op.text,Op.pieces,front,written_append,written_append,written_parted,called,spelt,kept] at one
  exact one

theorem writes_more (comma : Bool) (more : List Str) :
    Writes comma (more.map .addToLongString) more.flatten comma := by
  induction more with
  | nil => exact writes_nil comma
  | cons part more ih =>
    have one := writes_one comma (.addToLongString part)
    have text : (Op.addToLongString part).text comma = part := List.append_nil part
    rw [text] at one
    exact one.append ih

theorem writes_long {first : Op} {front val : Str} (more : List Str)
    (start : Writes comma [first] (front ++ (quote :: val)) true) :
    Writes comma (longOps first more) (front ++ (quote :: (val ++ more.flatten) ++ [quote])) true := by
  have whole := (start.append (writes_more true more)).append (writes_one true .endLongString)
  have close : Op.endLongString.text true = [quote] := rfl
  rw [close] at whole
  have same : front ++ quote :: val ++ more.flatten ++ [quote] =
      front ++ (quote :: (val ++ more.flatten) ++ [quote]) := by
    simp only [List.append_assoc,List.cons_append]
  rw [same] at whole
  exact whole

def Fields.lead (comma : Bool) : Fields → Str
  | .nil => []
  | _ => separator comma

def Items.lead (comma : Bool) : Items → Str
  | .nil => []
  | _ => separator comma

theorem Fields.lead_members (fields : Fields) : fields.lead true = fields.members.comma := by
  cases fields <;> rfl

theorem Items.lead_elems (items : Items) : items.lead true = items.elems.comma := by
  cases items <;> rfl

theorem plainKey_text (name : Str) (valid : StringBody name) :
    (plainKey name valid).text = nameText (some name) := by
  simp [plainKey,Key.text,Blanks.none,nameText]

theorem Fields.lead_false (fields : Fields) : fields.lead false = [] := by
  cases fields <;> rfl

theorem Items.lead_false (items : Items) : items.lead false = [] := by
  cases items <;> rfl

theorem writes_between {start stop : Op} {inner : List Op} {front body : Str} {c d : UInt8}
    (opened : Writes comma [start] (front ++ [c]) false) (inside : Writes false inner body after)
    (closed : stop.text after = [d]) (kept : stop.after after = true) :
    Writes comma (start :: inner ++ [stop]) (front ++ (c :: body ++ [d])) true := by
  have close := writes_one after stop
  rw [closed,kept] at close
  have whole := (opened.append inside).append close
  have same : front ++ [c] ++ body ++ [d] = front ++ (c :: body ++ [d]) := by
    simp only [List.append_assoc,List.cons_append,List.nil_append]
  rw [same] at whole
  exact whole

mutual
theorem Entry.writes (entry : Entry) (name : Option Str) (comma : Bool) :
    Writes comma (entry.ops name) (separator comma ++ nameText name ++ entry.value.text) true := by
  cases entry with
  | string val valid =>
    cases name <;> exact writes_leaf _ (by simp [Op.front]) rfl (written_quoted val)
  | longString val more valid =>
    have spelt : written [some [quote],val] = quote :: val.getD [] := by simp [written]
    cases name <;>
      exact writes_long more (writes_leaf _ (by simp [Op.front]) rfl spelt)
  | bool val => cases name <;> exact writes_leaf _ (by simp [Op.front]) rfl (written_one _)
  | int val =>
    have spelt : written [some (printed 24 (decimal val))] = decimal val := by
      rw [written_one,printed_short ((decimal_length val).trans_lt (by decide))]
    cases name <;> exact writes_leaf _ (by simp [Op.front]) rfl spelt
  | float val word prints =>
    have spelt : written [some (printed 30 val)] = word.text := by rw [written_one,prints]
    cases name <;> exact writes_leaf _ (by simp [Op.front]) rfl spelt
  | null => cases name <;> exact writes_leaf _ (by simp [Op.front]) rfl (written_one _)
  | object fields =>
    obtain ⟨after,inner⟩ := fields.writes false
    rw [fields.lead_false] at inner
    cases name <;>
      exact writes_between (writes_leaf _ (by simp [Op.front]) rfl (written_one _)) inner rfl rfl
  | array items =>
    obtain ⟨after,inner⟩ := items.writes false
    rw [items.lead_false] at inner
    cases name <;>
      exact writes_between (writes_leaf _ (by simp [Op.front]) rfl (written_one _)) inner rfl rfl

theorem Fields.writes (fields : Fields) (comma : Bool) :
    ∃ after, Writes comma fields.ops (fields.lead comma ++ fields.members.text) after := by
  cases fields with
  | nil => exact ⟨comma,writes_nil comma⟩
  | cons name valid entry rest =>
    obtain ⟨after,others⟩ := rest.writes true
    rw [rest.lead_members] at others
    have whole := (entry.writes (some name) comma).append others
    refine ⟨after,?_⟩
    simp only [Fields.ops,Fields.lead,Fields.members,Members.text,plainKey_text,Blanks.none,
      List.append_nil,List.append_assoc] at whole ⊢
    exact whole
  | text name valid value rest =>
    obtain ⟨after,others⟩ := rest.writes true
    rw [rest.lead_members] at others
    have first : Writes comma [if value.type = .object then .pushObjectStr name (some value.text)
        else .pushArrayStr name (some value.text)]
        (separator comma ++ nameText (some name) ++ value.text) true := by
      split <;> exact writes_leaf (some name) rfl rfl (written_one _)
    have whole := first.append others
    refine ⟨after,?_⟩
    simp only [Fields.ops,Fields.lead,Fields.members,Members.text,plainKey_text,Blanks.none,
      List.append_nil,List.append_assoc,List.singleton_append] at whole ⊢
    exact whole

theorem Items.writes (items : Items) (comma : Bool) :
    ∃ after, Writes comma items.ops (items.lead comma ++ items.elems.text) after := by
  cases items with
  | nil => exact ⟨comma,writes_nil comma⟩
  | cons entry rest =>
    obtain ⟨after,others⟩ := rest.writes true
    rw [rest.lead_elems] at others
    have whole := (entry.writes none comma).append others
    refine ⟨after,?_⟩
    simp only [Items.ops,Items.lead,Items.elems,Elems.text,nameText,Blanks.none,
      List.append_nil,List.nil_append,List.append_assoc] at whole ⊢
    exact whole
end

end Texts
section Reads

/-- A tree that is a document. -/
structure Tree where
  entry : Entry
  container : entry.value.type = .object ∨ entry.value.type = .array

def Tree.document (tree : Tree) : Document := ⟨.none,tree.entry.value,tree.container,.none⟩

def Tree.ops (tree : Tree) : List Op := tree.entry.ops none

theorem Tree.text (tree : Tree) : opsText false tree.ops = tree.document.text := by
  have whole := tree.entry.writes none false []
  simp only [List.append_nil,opsText,separator,nameText] at whole
  rw [Tree.ops,whole,Document.text,Tree.document]
  simp [Blanks.none]

theorem Tree.read (tree : Tree) (reads : List JsonParser.Call) : ∃ ctx ctx',
    JsonParser.parseStart true tree.document.text = .ok ctx ∧ JsonParser.session reads ctx =
      some ((JsonParser.walk reads ⟨.value tree.entry.value,[]⟩).1,ctx') := by
  obtain ⟨cur,ran,_⟩ := JsonParser.session_follows reads (JsonParser.document_follows tree.document)
  exact ⟨_,_,JsonParser.parseStart_document tree.document,ran⟩

/-- A tree written through a buffer of any size but one, as its parts come out of the buffer, is
accepted by the parser, and reading it is a walk in the tree, whatever is called. -/
theorem streamed_read {room : Nat} (tree : Tree) (short : tree.document.text.length < intMax)
    (buf : Region (room + 2)) (reads : List JsonParser.Call) :
    ∃ (jstr : JsonStr (room + 2)) (given : List Str) (held rest : Str) (last : Region (room + 2))
      (ctx ctx' : JsonParser.Ctx),
      calls (tree.ops.map Op.run) (strStart (some buf) true) =
        some (List.replicate tree.ops.length 0,jstr) ∧
      strEnd jstr = some (tree.document.text.length + 1,some last,
        given.map (· ++ [0]) ++ [held ++ 0 :: rest]) ∧
      JsonParser.parseStart true (given.flatten ++ held) = .ok ctx ∧
      JsonParser.session reads ctx =
        some ((JsonParser.walk reads ⟨.value tree.entry.value,[]⟩).1,ctx') := by
  rw [← tree.text] at short
  obtain ⟨jstr,given,held,last,rest,ran,ended,spooled⟩ := streamed_run short buf
  obtain ⟨ctx,ctx',started,read⟩ := tree.read reads
  have whole := spooled.whole
  rw [tree.text] at ended whole
  rw [← whole] at started
  exact ⟨jstr,given,held,rest,last,ctx,ctx',ran,ended,started,read⟩

theorem letter (c : UInt8) (plain : c ≠ 0 ∧ c ≠ quote ∧ c ≠ backslash) : StringBody [c] :=
  .plain plain.1 plain.2.1 plain.2.2 .nil

def countEntry : Entry :=
  .object (.cons (bytes "n") (letter 110 (by decide)) (.int 4294967291) .nil)

def nestedTree : Tree :=
  ⟨.object (.cons (bytes "a") (letter 97 (by decide)) countEntry .nil),Or.inl rfl⟩

def countReads : List JsonParser.Call := [.objGetObject (bytes "a"),.objGetInt (bytes "n")]

theorem streamed_read_nested : ∃ (jstr : JsonStr 4) (given : List Str) (held rest : Str)
    (last : Region 4) (ctx ctx' : JsonParser.Ctx),
      calls (nestedTree.ops.map Op.run) (strStart (some (.zeroed 4)) true) =
        some ([0,0,0,0,0],jstr) ∧
      strEnd jstr = some (15,some last,given.map (· ++ [0]) ++ [held ++ 0 :: rest]) ∧
      JsonParser.parseStart true (given.flatten ++ held) = .ok ctx ∧
      JsonParser.session countReads ctx = some ([.done,.int 4294967291],ctx') :=
  @streamed_read 2 nestedTree (by decide) (.zeroed 4) countReads

/-- Where a value is looked up: by its name in an object, by its index in an array. -/
inductive Place
  | name (name : Str)
  | index (index : UInt32)

/-- The first member of the name, if calls wrote it. -/
def Fields.first (name : Str) : Fields → Option Entry
  | .nil => none
  | .cons name' _ entry rest => if name' = name then some entry else rest.first name
  | .text name' _ _ rest => if name' = name then none else rest.first name

def Items.nth : Nat → Items → Option Entry
  | _, .nil => none
  | 0, .cons entry _ => some entry
  | index + 1, .cons _ rest => rest.nth index

def Entry.found : Place → Entry → Option Entry
  | .name name, .object fields => fields.first name
  | .index index, .array items => items.nth index.toNat
  | _, _ => none

def textCalls (val : Str) : Place → List (JsonParser.Call × JsonParser.Answer)
  | .name name => [(.objGetString name (val.length + 1),.text val),
      (.objGetString name val.length,.failed),(.objGetStrlen name,.length val.length)]
  | .index index => [(.arrGetString index (val.length + 1),.text val),
      (.arrGetString index val.length,.failed),(.arrGetStrlen index,.length val.length)]

/-- The calls that read what one call wrote, and what they find: a string fits where there is room
for its terminator too, an int is an int64 with the same sign, and a float is what strtof makes of
what was printed. -/
def Entry.got : Place → Entry → List (JsonParser.Call × JsonParser.Answer)
  | place, .string val _ => textCalls val place
  | place, .longString val more _ => textCalls (val.getD [] ++ more.flatten) place
  | .name name, .bool val => [(.objGetBool name,.truth val)]
  | .index index, .bool val => [(.arrGetBool index,.truth val)]
  | .name name, .int val => [(.objGetInt name,.int val),
      (.objGetInt64 name,.int64 ⟨val.toBitVec.signExtend 64⟩)]
  | .index index, .int val => [(.arrGetInt index,.int val),
      (.arrGetInt64 index,.int64 ⟨val.toBitVec.signExtend 64⟩)]
  | .name name, .object _ => [(.objGetObject name,.done)]
  | .index index, .object _ => [(.arrGetObject index,.done)]
  | .name name, .array items => [(.objGetArray name,.count items.elems.size)]
  | .index index, .array _ => [(.arrGetArray index,.done)]
  | .name name, .float _ word _ =>
    [(.objGetFloat name,((JsonParser.floatText word.text).map .float).getD .failed)]
  | .index index, .float _ word _ =>
    [(.arrGetFloat index,((JsonParser.floatText word.text).map .float).getD .failed)]
  | _, .null => []

theorem Fields.find_first (fields : Fields) {name : Str} {entry : Entry}
    (found : fields.first name = some entry) :
    ∃ key, JsonParser.find name fields.members = some (key,entry.value) := by
  cases fields with
  | nil => cases found
  | cons name' valid entry' rest =>
    rw [Fields.first] at found
    rw [Fields.members,JsonParser.find]
    by_cases same : name' = name
    · rw [if_pos same] at found
      cases found
      exact ⟨_,if_pos same⟩
    · rw [if_neg same] at found
      obtain ⟨key,listed⟩ := rest.find_first found
      exact ⟨key,by rw [if_neg (show ¬(plainKey name' valid).name = name from same),listed]⟩
  | text name' valid value rest =>
    rw [Fields.first] at found
    rw [Fields.members,JsonParser.find]
    by_cases same : name' = name
    · rw [if_pos same] at found
      cases found
    · rw [if_neg same] at found
      obtain ⟨key,listed⟩ := rest.find_first found
      exact ⟨key,by rw [if_neg (show ¬(plainKey name' valid).name = name from same),listed]⟩

theorem Items.nth_elems (items : Items) {n : Nat} {entry : Entry}
    (found : items.nth n = some entry) : JsonParser.nth n items.elems = some entry.value := by
  cases items with
  | nil => cases n <;> cases found
  | cons entry' rest =>
    cases n with
    | zero =>
      cases found
      rfl
    | succ n => exact rest.nth_elems found

def Place.below (trail : JsonParser.Trail) : Place → JsonParser.Below
  | .name key => trail.member key
  | .index i => trail.element i.toNat

theorem Entry.below_found (entry : Entry) {place : Place} {entry' : Entry}
    (found : entry.found place = some entry') (above : List JsonParser.Node) :
    ∃ nodes, place.below ⟨.value entry.value,above⟩ = some (entry'.value,nodes) := by
  cases place with
  | name name =>
    cases entry with
    | object fields =>
      obtain ⟨key,listed⟩ := fields.find_first found
      exact ⟨_,by rw [Place.below,JsonParser.Trail.member]; simp only [Entry.value,listed]; rfl⟩
    | _ => cases found
  | index index =>
    cases entry with
    | array items =>
      have listed := items.nth_elems found
      exact ⟨_,by rw [Place.below,JsonParser.Trail.element]; simp only [Entry.value,listed]; rfl⟩
    | _ => cases found

section Answers
open JsonParser (ask enter fits measured truthOf integerOf)
variable {trail : JsonParser.Trail} {below : JsonParser.Below} {value : Value}
  {nodes : List JsonParser.Node} {type : Jsmn.TokenType}

theorem typed_found (found : below = some (value,nodes)) (kind : value.type = type) :
    below.typed type = some (value,nodes) := by
  rw [found,JsonParser.Below.typed,Option.filter_some_pos (by simpa using kind)]

theorem ask_found (found : below = some (value,nodes)) (kind : value.type = type)
    (answer : Value → Option JsonParser.Answer) :
    (ask trail (below.typed type) answer).1 = (answer value).getD .failed := by
  rw [ask,typed_found found kind]
  rfl

theorem enter_found (found : below = some (value,nodes)) (kind : value.type = type)
    (answer : Value → JsonParser.Answer) :
    (enter trail (below.typed type) answer).1 = answer value := by
  rw [typed_found found kind]
  rfl

theorem fits_string (val : Str) (valid : StringBody val) :
    (fits (val.length + 1) (.string val valid)).getD .failed = .text val ∧
      (fits val.length (.string val valid)).getD .failed = .failed := by
  have inner : (Value.string val valid).inner = val := rfl
  constructor
  · rw [fits,inner,if_pos (Nat.lt_succ_self _),Option.getD_some]
  · rw [fits,inner,if_neg (Nat.lt_irrefl _),Option.getD_none]

theorem truthOf_bool (val : Bool) : truthOf (.literal (boolWord val)) = some val := by
  cases val <;> rfl

theorem integerOf_int (val : UInt32) :
    (integerOf 32 (.literal (intWord val))).map Nat.toUInt32 = some val ∧
      (integerOf 64 (.literal (intWord val))).map Nat.toUInt64 =
        some ⟨val.toBitVec.signExtend 64⟩ := by
  have read : JsonParser.integer (intWord val).text = _ := JsonParser.integer_decimal val
  obtain ⟨narrow,wide⟩ := JsonParser.clamped_decimal val
  rw [integerOf,integerOf,read,Option.map_some,Option.map_some,Option.map_some,Option.map_some,narrow]
  refine ⟨rfl,congrArg some (UInt64.toBitVec_inj.mp (BitVec.eq_of_toInt_eq ?_))⟩
  rw [wide]
  exact (BitVec.toInt_signExtend_of_le (by decide)).symm

theorem got_text (val : Str) (valid : StringBody val) {place : Place}
    (found : place.below trail = some (.string val valid,nodes)) {call : JsonParser.Call}
    {answer : JsonParser.Answer} (got : (call,answer) ∈ textCalls val place) :
    (call.meaning trail).1 = answer := by
  obtain ⟨long,short⟩ := fits_string val valid
  cases place with
  | name key =>
    simp only [textCalls,List.mem_cons,List.not_mem_nil,or_false] at got
    rcases got with got | got | got <;> cases got
    · exact (ask_found found rfl _).trans long
    · exact (ask_found found rfl _).trans short
    · exact ask_found found rfl measured
  | index i =>
    simp only [textCalls,List.mem_cons,List.not_mem_nil,or_false] at got
    rcases got with got | got | got <;> cases got
    · exact (ask_found found rfl _).trans long
    · exact (ask_found found rfl _).trans short
    · exact ask_found found rfl measured

theorem got_int (val : UInt32) (wrap : UInt32 → JsonParser.Answer)
    (wrap64 : UInt64 → JsonParser.Answer) :
    ((integerOf 32 (.literal (intWord val))).map fun n => wrap n.toUInt32).getD .failed = wrap val ∧
      ((integerOf 64 (.literal (intWord val))).map fun n => wrap64 n.toUInt64).getD .failed =
        wrap64 ⟨val.toBitVec.signExtend 64⟩ := by
  obtain ⟨narrow,wide⟩ := integerOf_int val
  constructor
  · obtain ⟨n,read,same⟩ := Option.map_eq_some_iff.mp narrow
    rw [read,Option.map_some,Option.getD_some,same]
  · obtain ⟨n,read,same⟩ := Option.map_eq_some_iff.mp wide
    rw [read,Option.map_some,Option.getD_some,same]

/-- On the tree the calls find what was written. -/
theorem got_meaning {entry : Entry} {place : Place}
    (found : place.below trail = some (entry.value,nodes)) {call : JsonParser.Call}
    {answer : JsonParser.Answer} (got : (call,answer) ∈ entry.got place) :
    (call.meaning trail).1 = answer := by
  cases entry with
  | string val valid => exact got_text val valid found (by cases place <;> exact got)
  | longString val more valid => exact got_text _ valid found (by cases place <;> exact got)
  | bool val =>
    have same : (Option.map JsonParser.Answer.truth (truthOf (.literal (boolWord val)))).getD
        .failed = .truth val := by rw [truthOf_bool]; rfl
    cases place <;> cases List.mem_singleton.mp got <;>
      exact (ask_found found rfl _).trans same
  | int val =>
    obtain ⟨narrow,wide⟩ := got_int val .int .int64
    cases place with
    | name key =>
      simp only [Entry.got,List.mem_cons,List.not_mem_nil,or_false] at got
      rcases got with got | got <;> cases got
      · exact (ask_found found rfl _).trans narrow
      · exact (ask_found found rfl _).trans wide
    | index i =>
      simp only [Entry.got,List.mem_cons,List.not_mem_nil,or_false] at got
      rcases got with got | got <;> cases got
      · exact (ask_found found rfl _).trans narrow
      · exact (ask_found found rfl _).trans wide
  | float val word prints =>
    cases place <;> cases List.mem_singleton.mp got <;> exact ask_found found rfl _
  | null => cases place <;> cases got
  | object fields =>
    cases place <;> cases List.mem_singleton.mp got <;> exact enter_found found rfl _
  | array items =>
    cases place <;> cases List.mem_singleton.mp got <;> exact enter_found found rfl _

end Answers

theorem walk_append (before after : List JsonParser.Call) (trail : JsonParser.Trail) :
    JsonParser.walk (before ++ after) trail =
      ((JsonParser.walk before trail).1 ++
        (JsonParser.walk after (JsonParser.walk before trail).2).1,
        (JsonParser.walk after (JsonParser.walk before trail).2).2) := by
  induction before generalizing trail with
  | nil => rfl
  | cons call before ih =>
    rw [List.cons_append,JsonParser.walk]
    simp only [ih]
    rfl

/-- What calls wrote into a buffer with room for all of it is read again. Where earlier calls have
brought the parser to an object or an array of the tree, the first member of a name or the element
at an index is found by the calls of its type, with the value that was set, and a float as strtof
reads what was printed. -/
theorem set_get (tree : Tree) (short : (opsText false tree.ops).length < intMax) {room : Nat}
    (buf : Region (room + 1)) (enough : (opsText false tree.ops).length ≤ room)
    {before : List JsonParser.Call} {answers : List JsonParser.Answer}
    {entry entry' : Entry} {above : List JsonParser.Node} {place : Place}
    (reached : JsonParser.walk before ⟨.value tree.entry.value,[]⟩ =
      (answers,⟨.value entry.value,above⟩))
    (found : entry.found place = some entry') {call : JsonParser.Call}
    {answer : JsonParser.Answer} (got : (call,answer) ∈ entry'.got place) :
    ∃ jstr last rest ctx ctx',
      calls (tree.ops.map Op.run) (strStart (some buf) false) =
        some (List.replicate tree.ops.length 0,jstr) ∧
      strEnd jstr = some ((opsText false tree.ops).length + 1,some last,[]) ∧
      last.bytes = opsText false tree.ops ++ 0 :: rest ∧
      JsonParser.parseStart true (opsText false tree.ops) = .ok ctx ∧
      JsonParser.session (before ++ [call]) ctx = some (answers ++ [answer],ctx') := by
  obtain ⟨jstr,last,rest,ran,ended,whole⟩ := clipped_run short buf
  rw [codes_roomy tree.ops [] false enough] at ran
  rw [List.take_of_length_le enough] at whole
  obtain ⟨ctx,ctx',started,read⟩ := tree.read (before ++ [call])
  obtain ⟨nodes,below⟩ := entry.below_found found above
  have answered := got_meaning below got
  rw [walk_append,reached] at read
  rw [← tree.text] at started
  refine ⟨jstr,last,rest,ctx,ctx',ran,ended,whole,started,read.trans ?_⟩
  rw [← answered]
  rfl

theorem set_get_nested : ∃ (jstr : JsonStr 16) (last : Region 16) (rest : Str)
    (ctx ctx' : JsonParser.Ctx),
      calls (nestedTree.ops.map Op.run) (strStart (some (.zeroed 16)) false) =
        some ([0,0,0,0,0],jstr) ∧
      strEnd jstr = some (15,some last,[]) ∧
      last.bytes = opsText false nestedTree.ops ++ 0 :: rest ∧
      JsonParser.parseStart true (opsText false nestedTree.ops) = .ok ctx ∧
      JsonParser.session ([.objGetObject (bytes "a")] ++ [.objGetInt (bytes "n")]) ctx =
        some ([.done] ++ [.int 4294967291],ctx') := by
  have reached : JsonParser.walk [.objGetObject (bytes "a")] ⟨.value nestedTree.entry.value,[]⟩ =
      ([.done],⟨.value countEntry.value,_⟩) := rfl
  have found : countEntry.found (.name (bytes "n")) = some (.int 4294967291) := rfl
  exact @set_get nestedTree (by decide) 15 (.zeroed 16) (by decide) _ _ _ _ _ _ reached found _ _
    List.mem_cons_self

end Reads

end QuickConnect.JsonGen
