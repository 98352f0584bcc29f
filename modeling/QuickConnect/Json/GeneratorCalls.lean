import QuickConnect.Json.JsonGenerator

/-! The other calls of json_generator.c, and what a call does in general: it adds some pieces of
text one after the other, returns what the last of them returned and leaves the flag that
tells whether a comma comes next. -/
namespace QuickConnect.JsonGen
open Text

variable {size : Nat}

def startArray (jstr : JsonStr size) : Option (Int × JsonStr size) := do
  let jstr ← handleComma jstr
  addToStr { jstr with commaReq := false } (some [91])

def endArray (jstr : JsonStr size) : Option (Int × JsonStr size) :=
  addToStr { jstr with commaReq := true } (some [93])

def pushObject (name : Str) (jstr : JsonStr size) : Option (Int × JsonStr size) := do
  let jstr ← handleComma jstr
  let (_,jstr) ← handleName jstr name
  addToStr { jstr with commaReq := false } (some [123])

def popObject (jstr : JsonStr size) : Option (Int × JsonStr size) :=
  addToStr { jstr with commaReq := true } (some [125])

def pushArray (name : Str) (jstr : JsonStr size) : Option (Int × JsonStr size) := do
  let jstr ← handleComma jstr
  let (_,jstr) ← handleName jstr name
  addToStr { jstr with commaReq := false } (some [91])

def popArray (jstr : JsonStr size) : Option (Int × JsonStr size) :=
  addToStr { jstr with commaReq := true } (some [93])

/-- The calls that set a member of an object. -/
def objSet (set : Call size) (name : Str) (jstr : JsonStr size) : Option (Int × JsonStr size) := do
  let jstr ← handleComma jstr
  let (_,jstr) ← handleName jstr name
  set jstr

/-- The calls that set an element of an array. -/
def arrSet (set : Call size) (jstr : JsonStr size) : Option (Int × JsonStr size) := do
  let jstr ← handleComma jstr
  set jstr

/-- A value that is one piece of text. -/
def setPiece (piece : Option Str) (jstr : JsonStr size) : Option (Int × JsonStr size) :=
  addToStr { jstr with commaReq := true } piece

def pushObjectStr (name : Str) (objectStr : Option Str) : Call size :=
  objSet (setPiece objectStr) name

def pushArrayStr (name : Str) (arrayStr : Option Str) : Call size :=
  objSet (setPiece arrayStr) name

def boolText (val : Bool) : Str := if val then bytes "true" else bytes "false"

def setBool (val : Bool) : Call size := setPiece (some (boolText val))

def objSetBool (name : Str) (val : Bool) : Call size := objSet (setBool val) name

def arrSetBool (val : Bool) : Call size := arrSet (setBool val)

/-- The text is what snprintf leaves in MAX_INT_IN_STR bytes. -/
def setInt (val : UInt32) : Call size := setPiece (some (printed 24 (decimal val)))

def objSetInt (name : Str) (val : UInt32) : Call size := objSet (setInt val) name

def arrSetInt (val : UInt32) : Call size := arrSet (setInt val)

/-- The conversion of a float is not modelled: `val` is what `%.*f` prints of it. -/
def setFloat (val : Str) : Call size := setPiece (some (printed 30 val))

def objSetFloat (name val : Str) : Call size := objSet (setFloat val) name

def arrSetFloat (val : Str) : Call size := arrSet (setFloat val)

def arrSetString (val : Str) : Call size := arrSet (setString · val)

def arrStartLongString (val : Option Str) : Call size := arrSet (setLongString · val)

def setNull : Call size := setPiece (some (bytes "null"))

def objSetNull (name : Str) : Call size := objSet setNull name

def arrSetNull : Call size := arrSet setNull

/-- The calls between json_gen_str_start and json_gen_str_end. -/
inductive Op
  | startObject
  | endObject
  | startArray
  | endArray
  | pushObject (name : Str)
  | popObject
  | pushObjectStr (name : Str) (objectStr : Option Str)
  | pushArray (name : Str)
  | popArray
  | pushArrayStr (name : Str) (arrayStr : Option Str)
  | objSetBool (name : Str) (val : Bool)
  | arrSetBool (val : Bool)
  | objSetInt (name : Str) (val : UInt32)
  | arrSetInt (val : UInt32)
  | objSetFloat (name val : Str)
  | arrSetFloat (val : Str)
  | objSetString (name val : Str)
  | arrSetString (val : Str)
  | objStartLongString (name : Str) (val : Option Str)
  | arrStartLongString (val : Option Str)
  | addToLongString (val : Str)
  | endLongString
  | objSetNull (name : Str)
  | arrSetNull

def Op.run : Op → Call size
  | .startObject => JsonGen.startObject
  | .endObject => JsonGen.endObject
  | .startArray => JsonGen.startArray
  | .endArray => JsonGen.endArray
  | .pushObject name => JsonGen.pushObject name
  | .popObject => JsonGen.popObject
  | .pushObjectStr name objectStr => JsonGen.pushObjectStr name objectStr
  | .pushArray name => JsonGen.pushArray name
  | .popArray => JsonGen.popArray
  | .pushArrayStr name arrayStr => JsonGen.pushArrayStr name arrayStr
  | .objSetBool name val => JsonGen.objSetBool name val
  | .arrSetBool val => JsonGen.arrSetBool val
  | .objSetInt name val => JsonGen.objSetInt name val
  | .arrSetInt val => JsonGen.arrSetInt val
  | .objSetFloat name val => JsonGen.objSetFloat name val
  | .arrSetFloat val => JsonGen.arrSetFloat val
  | .objSetString name val => JsonGen.objSetString name val
  | .arrSetString val => JsonGen.arrSetString val
  | .objStartLongString name val => JsonGen.objStartLongString name val
  | .arrStartLongString val => JsonGen.arrStartLongString val
  | .addToLongString val => JsonGen.addToLongString val
  | .endLongString => JsonGen.endLongString
  | .objSetNull name => JsonGen.objSetNull name
  | .arrSetNull => JsonGen.arrSetNull

section Pieces

def parted (comma : Bool) : List (Option Str) := if comma then [some [Text.comma]] else []

def named (name : Str) : List (Option Str) := [some [quote],some name,some [quote,58]]

def quoted (val : Str) : List (Option Str) := [some [quote],some val,some [quote]]

/-- The pieces a call adds behind the comma and the name. -/
def Op.value : Op → List (Option Str)
  | .startObject | .pushObject _ => [some [123]]
  | .endObject | .popObject => [some [125]]
  | .startArray | .pushArray _ => [some [91]]
  | .endArray | .popArray => [some [93]]
  | .pushObjectStr _ piece | .pushArrayStr _ piece => [piece]
  | .objSetBool _ val | .arrSetBool val => [some (boolText val)]
  | .objSetInt _ val | .arrSetInt val => [some (printed 24 (decimal val))]
  | .objSetFloat _ val | .arrSetFloat val => [some (printed 30 val)]
  | .objSetString _ val | .arrSetString val => quoted val
  | .objStartLongString _ val | .arrStartLongString val => [some [quote],val]
  | .addToLongString val => [some val]
  | .endLongString => [some [quote]]
  | .objSetNull _ | .arrSetNull => [some (bytes "null")]

/-- The comma and the name. A call that goes on with what is there adds neither. -/
def Op.front (comma : Bool) : Op → List (Option Str)
  | .endObject | .popObject | .endArray | .popArray | .addToLongString _ | .endLongString => []
  | .startObject | .startArray | .arrSetBool _ | .arrSetInt _ | .arrSetFloat _ | .arrSetString _
  | .arrStartLongString _ | .arrSetNull => parted comma
  | .pushObject name | .pushArray name | .pushObjectStr name _ | .pushArrayStr name _
  | .objSetBool name _ | .objSetInt name _ | .objSetFloat name _ | .objSetString name _
  | .objStartLongString name _ | .objSetNull name => parted comma ++ named name

def Op.pieces (comma : Bool) (op : Op) : List (Option Str) := op.front comma ++ op.value

/-- The flag a call leaves. -/
def Op.after (comma : Bool) : Op → Bool
  | .startObject | .startArray | .pushObject _ | .pushArray _ => false
  | .addToLongString _ | .endLongString => comma
  | _ => true

def written (pieces : List (Option Str)) : Str := (pieces.map fun piece => piece.getD []).flatten

def Op.text (comma : Bool) (op : Op) : Str := written (op.pieces comma)

/-- The piece whose result a call returns. -/
def Op.final (op : Op) : Str := (op.value.getLast?.bind id).getD []

def opsText : Bool → List Op → Str
  | _, [] => []
  | comma, op :: ops => op.text comma ++ opsText (op.after comma) ops

end Pieces
section Writes

/-- Pieces added one after the other, with what the last of them returned. -/
def writes : List (Option Str) → Call size
  | [], jstr => some (0,jstr)
  | [piece], jstr => addToStr jstr piece
  | piece :: pieces, jstr => do
    let jstr ← add jstr piece
    writes pieces jstr

def flag (comma : Bool) (jstr : JsonStr size) : JsonStr size := { jstr with commaReq := comma }

/-- What a call returns and leaves, with another flag. -/
def reflag (comma : Bool) (r : Int × JsonStr size) : Int × JsonStr size := (r.1,flag comma r.2)

/-- How much of the text left is copied: what there is room for before the terminator. -/
def copyLen (size freePtr len : Nat) : Int :=
  let lenRemaining : Int := size - freePtr - 1
  if lenRemaining > len then (len : Int) else lenRemaining

/-- One round of the loop, in which `n` bytes are copied. -/
def round (fuel : Nat) (buf : Region size) (jstr : JsonStr size) (cur : Str) (n : Nat) :
    Option (Int × JsonStr size) := do
  let buf ← buf.write jstr.freePtr (cur.take n)
  let jstr := { jstr with buf := some buf, freePtr := jstr.freePtr + n }
  let cur := cur.drop n
  if cur = [] then some (0,jstr)
  else do
    let buf ← buf.write jstr.freePtr [0]
    let jstr := { jstr with buf := some buf }
    if jstr.flushCb = false then some (-1,jstr)
    else addLoop fuel buf { jstr with freePtr := 0, flushed := jstr.flushed ++ [buf.bytes] } cur

theorem addLoop_round (fuel : Nat) (buf : Region size) (jstr : JsonStr size) (cur : Str) :
    addLoop (fuel + 1) buf jstr cur =
      if copyLen size jstr.freePtr cur.length < 0 then none
      else round fuel buf jstr cur (copyLen size jstr.freePtr cur.length).toNat := rfl

theorem addLoop_flag (comma : Bool) : ∀ (fuel : Nat) (buf : Region size) (jstr : JsonStr size)
    (cur : Str), addLoop fuel buf (flag comma jstr) cur =
      (addLoop fuel buf jstr cur).map (reflag comma) := by
  intro fuel
  induction fuel with
  | zero =>
    intro buf jstr cur
    rfl
  | succ fuel ih =>
    intro buf jstr cur
    rw [addLoop_round,addLoop_round]
    change (if copyLen size jstr.freePtr cur.length < 0 then none
      else round fuel buf (flag comma jstr) cur (copyLen size jstr.freePtr cur.length).toNat) = _
    by_cases negative : copyLen size jstr.freePtr cur.length < 0
    · rw [if_pos negative,if_pos negative]
      rfl
    rw [if_neg negative,if_neg negative]
    generalize (copyLen size jstr.freePtr cur.length).toNat = n
    rw [round,round]
    change (buf.write jstr.freePtr _ >>= _) = _
    simp only [Option.bind_eq_bind,Option.map_bind]
    congr 1
    funext buf
    simp only [Function.comp]
    by_cases ended : cur.drop n = []
    · rw [if_pos ended,if_pos ended]
      rfl
    rw [if_neg ended,if_neg ended,Option.map_bind]
    congr 1
    funext buf
    simp only [Function.comp]
    by_cases stuck : jstr.flushCb = false
    · rw [if_pos stuck,if_pos (show (flag comma jstr).flushCb = false from stuck)]
      rfl
    · rw [if_neg stuck,if_neg (show ¬(flag comma jstr).flushCb = false from stuck)]
      exact ih buf
        ⟨some buf,jstr.flushCb,jstr.commaReq,0,jstr.totalLen,jstr.flushed ++ [buf.bytes]⟩ _

/-- The flag plays no part in adding a piece. -/
theorem addToStr_flag (comma : Bool) (jstr : JsonStr size) (piece : Option Str) :
    addToStr (flag comma jstr) piece = (addToStr jstr piece).map (reflag comma) := by
  obtain ⟨buf,flushCb,old,freePtr,totalLen,flushed⟩ := jstr
  cases piece with
  | none => rfl
  | some str =>
    rw [addToStr,addToStr]
    change (if intMax < totalLen + str.length then _ else _) = _
    by_cases overflows : intMax < totalLen + str.length
    · rw [if_pos overflows,if_pos overflows]
      rfl
    rw [if_neg overflows,if_neg overflows]
    cases buf with
    | none => rfl
    | some buf =>
      exact addLoop_flag comma (str.length + 2) buf
        ⟨some buf,flushCb,old,freePtr,totalLen + str.length,flushed⟩ str

theorem add_flag (comma : Bool) (jstr : JsonStr size) (piece : Option Str) :
    add (flag comma jstr) piece = (add jstr piece).map (flag comma) := by
  rw [add,add,addToStr_flag,Option.map_map,Option.map_map]
  rfl

theorem writes_cons {pieces : List (Option Str)} (some' : pieces ≠ []) (piece : Option Str) :
    @writes size (piece :: pieces) = fun jstr => add jstr piece >>= writes pieces := by
  obtain ⟨next,rest,rfl⟩ := List.exists_cons_of_ne_nil some'
  rfl

theorem writes_flag (comma : Bool) {pieces : List (Option Str)} : ∀ (jstr : JsonStr size),
    writes pieces (flag comma jstr) = (writes pieces jstr).map (reflag comma) := by
  induction pieces with
  | nil =>
    intro jstr
    rfl
  | cons piece pieces ih =>
    intro jstr
    rcases List.eq_nil_or_concat pieces with rfl | ⟨_,_,rfl⟩
    · exact addToStr_flag comma jstr piece
    · rw [writes_cons (by simp)]
      simp only [add_flag,Option.bind_eq_bind,Option.map_bind,Option.bind_map]
      congr 1
      funext next
      exact ih next

/-- The comma that a call puts first. -/
theorem handleComma_writes {pieces : List (Option Str)} (some' : pieces ≠ []) (comma : Bool)
    (jstr : JsonStr size) :
    (handleComma jstr >>= fun jstr => writes pieces (flag comma jstr)) =
      writes (parted jstr.commaReq ++ pieces) (flag comma jstr) := by
  rw [handleComma,parted]
  cases jstr.commaReq with
  | false => rfl
  | true =>
    change (add jstr _ >>= _) = writes (some [Text.comma] :: pieces) _
    rw [writes_cons some']
    simp only [add_flag,Option.bind_eq_bind,Option.bind_map]
    rfl

theorem handleName_writes {pieces : List (Option Str)} (some' : pieces ≠ []) (comma : Bool)
    (name : Str) (jstr : JsonStr size) :
    (handleName jstr name >>= fun r => writes pieces (flag comma r.2)) =
      writes (named name ++ pieces) (flag comma jstr) := by
  change _ = writes (some [quote] :: some name :: some [quote,58] :: pieces) _
  rw [writes_cons (by simp),writes_cons (by simp),writes_cons some']
  simp only [handleName,add_flag,Option.bind_eq_bind,Option.bind_map,Option.bind_assoc]
  congr 1
  funext opened
  simp only [Function.comp_def,add_flag,Option.bind_map]
  congr 1
  funext behind
  rw [add,Option.bind_map]
  rfl

section Set
variable {set : Call size} (comma : Bool) {pieces : List (Option Str)} (some' : pieces ≠ [])
  (sets : ∀ jstr, set jstr = writes pieces (flag comma jstr))
include some' sets

theorem objSet_writes (name : Str) (jstr : JsonStr size) :
    objSet set name jstr =
      writes (parted jstr.commaReq ++ named name ++ pieces) (flag comma jstr) := by
  have behind : ∀ jstr, (handleName jstr name >>= fun r => set r.2) =
      writes (named name ++ pieces) (flag comma jstr) := by
    intro jstr
    simp only [sets]
    exact handleName_writes some' comma name jstr
  rw [objSet,List.append_assoc,← handleComma_writes (by simp [named])]
  congr 1
  funext jstr
  exact behind jstr

theorem arrSet_writes (jstr : JsonStr size) :
    arrSet set jstr = writes (parted jstr.commaReq ++ pieces) (flag comma jstr) := by
  rw [arrSet,← handleComma_writes some']
  congr 1
  funext jstr
  exact sets jstr

end Set

/-- What every call does. -/
theorem run_writes (op : Op) (jstr : JsonStr size) :
    op.run jstr = writes (op.pieces jstr.commaReq) (flag (op.after jstr.commaReq) jstr) := by
  have valued : op.value ≠ [] := by cases op <;> exact List.cons_ne_nil _ _
  cases op with
  | endObject => rfl
  | popObject => rfl
  | endArray => rfl
  | popArray => rfl
  | addToLongString val => rfl
  | endLongString => rfl
  | startObject => exact arrSet_writes false valued (fun _ => rfl) jstr
  | startArray => exact arrSet_writes false valued (fun _ => rfl) jstr
  | arrSetBool val => exact arrSet_writes true valued (fun _ => rfl) jstr
  | arrSetInt val => exact arrSet_writes true valued (fun _ => rfl) jstr
  | arrSetFloat val => exact arrSet_writes true valued (fun _ => rfl) jstr
  | arrSetString val => exact arrSet_writes true valued (fun _ => rfl) jstr
  | arrStartLongString val => exact arrSet_writes true valued (fun _ => rfl) jstr
  | arrSetNull => exact arrSet_writes true valued (fun _ => rfl) jstr
  | pushObject name => exact objSet_writes false valued (fun _ => rfl) name jstr
  | pushArray name => exact objSet_writes false valued (fun _ => rfl) name jstr
  | pushObjectStr name piece => exact objSet_writes true valued (fun _ => rfl) name jstr
  | pushArrayStr name piece => exact objSet_writes true valued (fun _ => rfl) name jstr
  | objSetBool name val => exact objSet_writes true valued (fun _ => rfl) name jstr
  | objSetInt name val => exact objSet_writes true valued (fun _ => rfl) name jstr
  | objSetFloat name val => exact objSet_writes true valued (fun _ => rfl) name jstr
  | objSetString name val => exact objSet_writes true valued (fun _ => rfl) name jstr
  | objStartLongString name val => exact objSet_writes true valued (fun _ => rfl) name jstr
  | objSetNull name => exact objSet_writes true valued (fun _ => rfl) name jstr

end Writes

end QuickConnect.JsonGen
