import QuickConnect.Lib.Region
import QuickConnect.Json.FlatObject

/-! json_generator.c: JSON texts written into a buffer, which a callback may empty when it
is full. Every call returns 0, or -1 when the buffer is full and nothing empties it. -/
namespace QuickConnect.JsonGen
open Text

/-- json_gen_str_t. `freePtr` is an index into the buffer, and `flushed` are the buffers
that the callback was given. -/
structure JsonStr (size : Nat) where
  buf : Option (Region size)
  flushCb : Bool
  commaReq : Bool
  freePtr : Nat
  totalLen : Nat
  flushed : List (List UInt8)

variable {size : Nat}

/-- The largest int. -/
def intMax : Nat := 2147483647

def strStart (buf : Option (Region size)) (flushCb : Bool) : JsonStr size :=
  ⟨buf,flushCb,false,0,0,[]⟩

/-- The loop of json_gen_add_to_str. A string does not fit in a buffer of one byte, however
often it is emptied. -/
def addLoop : Nat → Region size → JsonStr size → Str → Option (Int × JsonStr size)
  | 0, _, _, _ => none
  | fuel + 1, buf, jstr, cur => do
    let lenRemaining : Int := size - jstr.freePtr - 1
    let copyLen := if lenRemaining > cur.length then (cur.length : Int) else lenRemaining
    if copyLen < 0 then none
    else do
      let buf ← buf.write jstr.freePtr (cur.take copyLen.toNat)
      let jstr := { jstr with buf := some buf, freePtr := jstr.freePtr + copyLen.toNat }
      let cur := cur.drop copyLen.toNat
      if cur = [] then some (0,jstr)
      else do
        let buf ← buf.write jstr.freePtr [0]
        let jstr := { jstr with buf := some buf }
        if jstr.flushCb = false then some (-1,jstr)
        else addLoop fuel buf { jstr with freePtr := 0, flushed := jstr.flushed ++ [buf.bytes] } cur

def addToStr (jstr : JsonStr size) : Option Str → Option (Int × JsonStr size)
  | none => some (0,jstr)
  | some str =>
    -- total_len is an int, and a sum that it does not hold has no result.
    if intMax < jstr.totalLen + str.length then none
    else
      let jstr := { jstr with totalLen := jstr.totalLen + str.length }
      match jstr.buf with
      | none => some (0,jstr)
      | some buf => addLoop (str.length + 2) buf jstr str

/-- A call whose return value is ignored. -/
def add (jstr : JsonStr size) (str : Option Str) : Option (JsonStr size) :=
  (addToStr jstr str).map Prod.snd

/-- What json_gen_str_end returns, the buffer it leaves and the buffers given away. -/
def strEnd (jstr : JsonStr size) : Option (Nat × Option (Region size) × List (List UInt8)) :=
  if intMax < jstr.totalLen + 1 then none
  else match jstr.buf with
    | none => some (jstr.totalLen + 1,none,jstr.flushed)
    | some buf => do
      let buf ← buf.write jstr.freePtr [0]
      let flushed := if jstr.flushCb then jstr.flushed ++ [buf.bytes] else jstr.flushed
      some (jstr.totalLen + 1,some buf,flushed)

def handleComma (jstr : JsonStr size) : Option (JsonStr size) :=
  if jstr.commaReq then add jstr (some [comma]) else some jstr

def handleName (jstr : JsonStr size) (name : Str) : Option (Int × JsonStr size) := do
  let jstr ← add jstr (some [quote])
  let jstr ← add jstr (some name)
  addToStr jstr (some [quote,58])

def startObject (jstr : JsonStr size) : Option (Int × JsonStr size) := do
  let jstr ← handleComma jstr
  addToStr { jstr with commaReq := false } (some [123])

def endObject (jstr : JsonStr size) : Option (Int × JsonStr size) :=
  addToStr { jstr with commaReq := true } (some [125])

def setString (jstr : JsonStr size) (val : Str) : Option (Int × JsonStr size) := do
  let jstr ← add { jstr with commaReq := true } (some [quote])
  let jstr ← add jstr (some val)
  addToStr jstr (some [quote])

def objSetString (name val : Str) (jstr : JsonStr size) : Option (Int × JsonStr size) := do
  let jstr ← handleComma jstr
  let (_,jstr) ← handleName jstr name
  setString jstr val

def setLongString (jstr : JsonStr size) (val : Option Str) : Option (Int × JsonStr size) := do
  let jstr ← add { jstr with commaReq := true } (some [quote])
  addToStr jstr val

def objStartLongString (name : Str) (val : Option Str) (jstr : JsonStr size) :
    Option (Int × JsonStr size) := do
  let jstr ← handleComma jstr
  let (_,jstr) ← handleName jstr name
  setLongString jstr val

def addToLongString (val : Str) (jstr : JsonStr size) : Option (Int × JsonStr size) :=
  addToStr jstr (some val)

def endLongString (jstr : JsonStr size) : Option (Int × JsonStr size) :=
  addToStr jstr (some [quote])

abbrev Call (size : Nat) := JsonStr size → Option (Int × JsonStr size)

/-- Calls one after the other, with what each of them returns. -/
def calls : List (Call size) → JsonStr size → Option (List Int × JsonStr size)
  | [], jstr => some ([],jstr)
  | call :: rest, jstr => do
    let (code,jstr) ← call jstr
    let (codes,jstr) ← calls rest jstr
    some (code :: codes,jstr)

/-- The text written so far, and whether a comma has to come before the next member. The size of
the buffer is an int. -/
structure Holds (jstr : JsonStr size) (text : Str) (comma : Bool) : Prop where
  small : size ≤ intMax
  buf : ∃ buf, jstr.buf = some buf ∧ buf.bytes.take text.length = text
  freePtr : jstr.freePtr = text.length
  totalLen : jstr.totalLen = text.length
  commaReq : jstr.commaReq = comma

theorem Holds.comma {jstr : JsonStr size} {text : Str} {old : Bool} (holds : Holds jstr text old)
    (after : Bool) : Holds { jstr with commaReq := after } text after :=
  ⟨holds.small,holds.buf,holds.freePtr,holds.totalLen,rfl⟩

theorem strStart_holds (small : size ≤ intMax) (buf : Region size) :
    Holds (strStart (some buf) false) [] false :=
  ⟨small,⟨buf,rfl,rfl⟩,rfl,rfl,rfl⟩

/-- With room for the string and the terminator the string is appended. -/
theorem addToStr_holds {jstr : JsonStr size} {text s : Str} {comma : Bool}
    (holds : Holds jstr text comma) (room : text.length + s.length < size) :
    ∃ jstr', addToStr jstr (some s) = some (0,jstr') ∧ Holds jstr' (text ++ s) comma := by
  obtain ⟨small,⟨buf,stored,front⟩,place,total,flag⟩ := holds
  obtain ⟨written,wrote,whole⟩ := buf.write_some (show text.length + s.length ≤ size by omega)
  have length : (text ++ s).length = text.length + s.length := List.length_append
  refine ⟨{ jstr with
    buf := some written
    freePtr := text.length + s.length
    totalLen := text.length + s.length },?_,?_⟩
  · have copies : (if (size : Int) - text.length - 1 > s.length then (s.length : Int)
        else size - text.length - 1) = s.length := by
      split <;> omega
    rw [addToStr,total,if_neg (by omega)]
    simp only [stored]
    rw [addLoop,place]
    simp only [copies]
    rw [if_neg (by omega),Int.toNat_natCast,List.take_length,wrote]
    simp
  · refine ⟨small,⟨written,rfl,?_⟩,length.symm,length.symm,flag⟩
    rw [whole,front,length,← length]
    exact List.take_left

theorem add_holds {jstr : JsonStr size} {text s : Str} {comma : Bool}
    (holds : Holds jstr text comma) (room : text.length + s.length < size) :
    ∃ jstr', add jstr (some s) = some jstr' ∧ Holds jstr' (text ++ s) comma := by
  obtain ⟨jstr',added,holds'⟩ := addToStr_holds holds room
  exact ⟨jstr',by rw [add,added]; rfl,holds'⟩

def separator (comma : Bool) : Str := if comma then [Text.comma] else []

theorem handleComma_holds {jstr : JsonStr size} {text : Str} {comma : Bool}
    (holds : Holds jstr text comma) (room : text.length + (separator comma).length < size) :
    ∃ jstr', handleComma jstr = some jstr' ∧ Holds jstr' (text ++ separator comma) comma := by
  rw [handleComma,holds.commaReq]
  cases comma with
  | false =>
    refine ⟨jstr,rfl,?_⟩
    change Holds jstr (text ++ []) false
    rw [List.append_nil]
    exact holds
  | true => exact add_holds holds room

theorem handleName_holds {jstr : JsonStr size} {text : Str} {comma : Bool}
    (holds : Holds jstr text comma) (name : Str) (room : text.length + (name.length + 3) < size) :
    ∃ jstr', handleName jstr name = some (0,jstr') ∧
      Holds jstr' (text ++ (quote :: name ++ [quote,58])) comma := by
  obtain ⟨opened,opens,holds⟩ := add_holds (s := [quote]) holds
    (by rw [List.length_singleton]; omega)
  obtain ⟨named,names,holds⟩ := add_holds (s := name) holds
    (by simp only [List.length_append,List.length_singleton]; omega)
  obtain ⟨closed,closes,holds⟩ := addToStr_holds (s := [quote,58]) holds
    (by simp only [List.length_append,List.length_cons,List.length_nil]; omega)
  refine ⟨closed,?_,?_⟩
  · rw [handleName,opens]
    simp only [Option.bind_eq_bind,Option.bind_some,names,closes]
  · simpa using holds

/-- The call writes `s` when there is room for it, and returns 0. -/
def Emits (call : Call size) (comma : Bool) (s : Str) (after : Bool) : Prop :=
  ∀ jstr text, Holds jstr text comma → text.length + s.length < size →
    ∃ jstr', call jstr = some (0,jstr') ∧ Holds jstr' (text ++ s) after

section Calls
variable (comma : Bool) (name val : Str)

theorem emits_startObject :
    Emits (@startObject size) comma (separator comma ++ [123]) false := by
  intro jstr text holds room
  rw [List.length_append,List.length_singleton] at room
  obtain ⟨parted,parts,holds⟩ := handleComma_holds holds (by omega)
  obtain ⟨opened,opens,holds⟩ := addToStr_holds (s := [123]) (holds.comma false)
    (by simp only [List.length_append,List.length_singleton]; omega)
  refine ⟨opened,?_,?_⟩
  · rw [startObject,parts]
    exact opens
  · rw [← List.append_assoc]
    exact holds

theorem emits_endObject : Emits (@endObject size) comma [125] true := by
  intro jstr text holds room
  exact addToStr_holds (holds.comma true) room

theorem setString_holds {jstr : JsonStr size} {text : Str} (holds : Holds jstr text comma)
    (room : text.length + (val.length + 2) < size) :
    ∃ jstr', setString jstr val = some (0,jstr') ∧
      Holds jstr' (text ++ (quote :: val ++ [quote])) true := by
  obtain ⟨opened,opens,holds⟩ := add_holds (s := [quote]) (holds.comma true)
    (by rw [List.length_singleton]; omega)
  obtain ⟨valued,values,holds⟩ := add_holds (s := val) holds
    (by simp only [List.length_append,List.length_singleton]; omega)
  obtain ⟨closed,closes,holds⟩ := addToStr_holds (s := [quote]) holds
    (by simp only [List.length_append,List.length_cons,List.length_nil]; omega)
  refine ⟨closed,?_,?_⟩
  · rw [setString,opens]
    simp only [Option.bind_eq_bind,Option.bind_some,values,closes]
  · simpa using holds

theorem emits_objSetString : Emits (@objSetString size name val) comma
    (separator comma ++ Jsmn.memberText (name,val)) true := by
  intro jstr text holds room
  rw [List.length_append,Jsmn.memberText_length] at room
  simp only at room
  obtain ⟨parted,parts,holds⟩ := handleComma_holds holds (by omega)
  obtain ⟨named,names,holds⟩ := handleName_holds holds name
    (by rw [List.length_append]; omega)
  obtain ⟨valued,values,holds⟩ := setString_holds comma val holds
    (by simp only [List.length_append,List.length_cons,List.length_nil]; omega)
  refine ⟨valued,?_,?_⟩
  · rw [objSetString,parts]
    simp only [Option.bind_eq_bind,Option.bind_some,names,values]
  · simpa [Jsmn.memberText] using holds

theorem emits_objStartLongString : Emits (@objStartLongString size name none) comma
    (separator comma ++ (quote :: name ++ [quote,58,quote])) true := by
  intro jstr text holds room
  simp only [List.length_append,List.length_cons,List.length_nil] at room
  obtain ⟨parted,parts,holds⟩ := handleComma_holds holds (by omega)
  obtain ⟨named,names,holds⟩ := handleName_holds holds name
    (by rw [List.length_append]; omega)
  obtain ⟨opened,opens,holds⟩ := add_holds (s := [quote]) (holds.comma true)
    (by simp only [List.length_append,List.length_cons,List.length_nil]; omega)
  refine ⟨opened,?_,?_⟩
  · rw [objStartLongString,parts]
    simp only [Option.bind_eq_bind,Option.bind_some,names]
    rw [setLongString,opens]
    rfl
  · simpa using holds

theorem emits_addToLongString : Emits (@addToLongString size val) comma val comma :=
  fun _ _ holds room => addToStr_holds holds room

theorem emits_endLongString : Emits (@endLongString size) comma [quote] comma :=
  fun _ _ holds room => addToStr_holds holds room

end Calls

def EmitsAll (list : List (Call size)) (comma : Bool) (s : Str) (after : Bool) : Prop :=
  ∀ jstr text, Holds jstr text comma → text.length + s.length < size →
    ∃ codes jstr', calls list jstr = some (codes,jstr') ∧ (∀ code ∈ codes, code = 0) ∧
      Holds jstr' (text ++ s) after

theorem emitsAll_nil (comma : Bool) : EmitsAll ([] : List (Call size)) comma [] comma := by
  intro jstr text holds _
  refine ⟨[],jstr,rfl,by simp,?_⟩
  rw [List.append_nil]
  exact holds

theorem Emits.cons {call : Call size} {list : List (Call size)} {comma middle after : Bool}
    {s s' : Str} (first : Emits call comma s middle) (rest : EmitsAll list middle s' after) :
    EmitsAll (call :: list) comma (s ++ s') after := by
  intro jstr text holds room
  rw [List.length_append] at room
  obtain ⟨next,called,holds⟩ := first jstr text holds (by omega)
  obtain ⟨codes,last,ran,zero,holds⟩ := rest next (text ++ s) holds
    (by rw [List.length_append]; omega)
  refine ⟨0 :: codes,last,?_,?_,?_⟩
  · rw [calls,called]
    simp only [Option.bind_eq_bind,Option.bind_some,ran]
  · intro code inside
    rcases List.mem_cons.mp inside with rfl | inside
    · rfl
    · exact zero code inside
  · rw [← List.append_assoc]
    exact holds

/-- The pieces of a long string, then the calls that follow it. -/
theorem EmitsAll.pieces {list : List (Call size)} {comma after : Bool} {s : Str}
    (rest : EmitsAll list comma s after) (pieces : List Str) :
    EmitsAll (pieces.map addToLongString ++ list) comma (pieces.flatten ++ s) after := by
  induction pieces with
  | nil => exact rest
  | cons piece pieces ih =>
    rw [List.map_cons,List.cons_append,List.flatten_cons,List.append_assoc]
    exact (emits_addToLongString comma piece).cons ih

theorem strEnd_holds {jstr : JsonStr size} {text : Str} {comma : Bool}
    (holds : Holds jstr text comma) (clean : 0 ∉ text) (room : text.length < size) :
    ∃ buf flushed, strEnd jstr = some (text.length + 1,some buf,flushed) ∧
      buf.text = some text := by
  obtain ⟨small,⟨buf,stored,front⟩,place,total,_⟩ := holds
  obtain ⟨ended,terminated,held⟩ := Region.write_terminator front clean room
  refine ⟨ended,if jstr.flushCb then jstr.flushed ++ [ended.bytes] else jstr.flushed,?_,held⟩
  rw [strEnd,stored,place,total,if_neg (by omega)]
  simp only [terminated,Option.bind_eq_bind,Option.bind_some]

end QuickConnect.JsonGen
