import QuickConnect.Json.Floats

/-! The calls of json_parser.c that move through an accepted text and read from it, and what
they mean on the tree of a document: one walks down into members and elements and up again. -/
namespace QuickConnect.JsonParser
open Text Jsmn

section Calls
variable (ctx : Ctx)

/-- json_obj_get_val_tok: the index of the token and the token. -/
def objGetVal (name : Str) (type : TokenType) : Except Failure (Nat × Token) := do
  let tok ← objSearch ctx name
  let value ← tokenOf ctx.tokens (tok + 1)
  if value.type ≠ type then .error .fail
  else .ok (tok + 1,value)

/-- The loop of json_arr_search, from element 0. -/
def arrSkip : Nat → Nat → Except Failure Nat
  | 0, tok => .ok tok
  | index + 1, tok => do
    let last ← skipElem ctx.tokens (ctx.tokens.length + 1) tok
    arrSkip index (last + 1)

def arrSearch (index : UInt32) : Except Failure Nat := do
  let tok ← tokenOf ctx.tokens ctx.cur
  if tok.type ≠ .array ∨ tok.size = 0 then .error .fail
  else if index.toNat > tok.size - 1 then .error .fail
  else arrSkip ctx index.toNat (ctx.cur + 1)

/-- json_arr_get_val_tok. -/
def arrGetVal (index : UInt32) (type : TokenType) : Except Failure (Nat × Token) := do
  let tok ← arrSearch ctx index
  let value ← tokenOf ctx.tokens tok
  if value.type ≠ type then .error .fail
  else .ok (tok,value)

/-- One step up. A token without a parent stays, and the call fails. -/
def leave : Except Failure (Bool × Ctx) := do
  let tok ← tokenOf ctx.tokens ctx.cur
  if tok.parent < 0 then .ok (false,ctx)
  else .ok (true,{ ctx with cur := tok.parent.toNat })

/-- Two steps up, the first one to the key. Where the second fails the first is not undone. -/
def leaveKey : Except Failure (Bool × Ctx) := do
  let (left,ctx) ← leave ctx
  if left = false then .ok (false,ctx)
  else leave ctx

def objGetArray (name : Str) : Except Failure (Nat × Ctx) := do
  let (tok,array) ← objGetVal ctx name .array
  .ok (array.size,{ ctx with cur := tok })

def objLeaveArray : Except Failure (Bool × Ctx) := leaveKey ctx

def objGetObject (name : Str) : Except Failure Ctx := do
  let (tok,_) ← objGetVal ctx name .object
  .ok { ctx with cur := tok }

def objLeaveObject : Except Failure (Bool × Ctx) := leaveKey ctx

def arrGetArray (index : UInt32) : Except Failure Ctx := do
  let (tok,_) ← arrGetVal ctx index .array
  .ok { ctx with cur := tok }

def arrLeaveArray : Except Failure (Bool × Ctx) := leave ctx

def arrGetObject (index : UInt32) : Except Failure Ctx := do
  let (tok,_) ← arrGetVal ctx index .object
  .ok { ctx with cur := tok }

def arrLeaveObject : Except Failure (Bool × Ctx) := leave ctx

def objGetBool (name : Str) : Except Failure Bool := do
  let (_,tok) ← objGetVal ctx name .primitive
  tokToBool ctx.js tok

def objGetInt (name : Str) : Except Failure UInt32 := do
  let (_,tok) ← objGetVal ctx name .primitive
  tokToInt ctx.js tok

def objGetInt64 (name : Str) : Except Failure UInt64 := do
  let (_,tok) ← objGetVal ctx name .primitive
  tokToInt64 ctx.js tok

def objGetFloat (name : Str) : Except Failure Float32 := do
  let (_,tok) ← objGetVal ctx name .primitive
  tokToFloat ctx.js tok

def objGetObjectStr (name : Str) (size : Nat) : Except Failure Str := do
  let (_,tok) ← objGetVal ctx name .object
  tokToString ctx.js tok size

def objGetObjectStrlen (name : Str) : Except Failure Int := do
  let (_,tok) ← objGetVal ctx name .object
  .ok (tok.stop - tok.start)

def objGetArrayStr (name : Str) (size : Nat) : Except Failure Str := do
  let (_,tok) ← objGetVal ctx name .array
  tokToString ctx.js tok size

def objGetArrayStrlen (name : Str) : Except Failure Int := do
  let (_,tok) ← objGetVal ctx name .array
  .ok (tok.stop - tok.start)

def arrGetBool (index : UInt32) : Except Failure Bool := do
  let (_,tok) ← arrGetVal ctx index .primitive
  tokToBool ctx.js tok

def arrGetInt (index : UInt32) : Except Failure UInt32 := do
  let (_,tok) ← arrGetVal ctx index .primitive
  tokToInt ctx.js tok

def arrGetInt64 (index : UInt32) : Except Failure UInt64 := do
  let (_,tok) ← arrGetVal ctx index .primitive
  tokToInt64 ctx.js tok

def arrGetFloat (index : UInt32) : Except Failure Float32 := do
  let (_,tok) ← arrGetVal ctx index .primitive
  tokToFloat ctx.js tok

def arrGetString (index : UInt32) (size : Nat) : Except Failure Str := do
  let (_,tok) ← arrGetVal ctx index .string
  tokToString ctx.js tok size

def arrGetStrlen (index : UInt32) : Except Failure Int := do
  let (_,tok) ← arrGetVal ctx index .string
  .ok (tok.stop - tok.start)

theorem map_bind {α β γ : Type} (x : Except Failure α) (f : α → Except Failure β) (g : β → γ) :
    (x >>= f).map g = (x >>= fun a => (f a).map g) := by
  cases x <;> rfl

/-- The lookups of strings go through the same search. -/
theorem objGetValTok_val (name : Str) (type : TokenType) :
    objGetValTok ctx name type = (objGetVal ctx name type >>= fun found => .ok found.2) := by
  rw [objGetValTok,objGetVal]
  cases objSearch ctx name with
  | error e => rfl
  | ok tok =>
    simp only [except_ok_bind]
    cases tokenOf ctx.tokens (tok + 1) with
    | error e => rfl
    | ok value =>
      simp only [except_ok_bind]
      split <;> rfl

end Calls
section Session

/-- The calls between json_parse_start and json_parse_end. -/
inductive Call
  | objGetArray (name : Str)
  | objLeaveArray
  | objGetObject (name : Str)
  | objLeaveObject
  | objGetBool (name : Str)
  | objGetInt (name : Str)
  | objGetInt64 (name : Str)
  | objGetFloat (name : Str)
  | objGetString (name : Str) (size : Nat)
  | objGetStrlen (name : Str)
  | objGetObjectStr (name : Str) (size : Nat)
  | objGetObjectStrlen (name : Str)
  | objGetArrayStr (name : Str) (size : Nat)
  | objGetArrayStrlen (name : Str)
  | arrGetArray (index : UInt32)
  | arrLeaveArray
  | arrGetObject (index : UInt32)
  | arrLeaveObject
  | arrGetBool (index : UInt32)
  | arrGetInt (index : UInt32)
  | arrGetInt64 (index : UInt32)
  | arrGetFloat (index : UInt32)
  | arrGetString (index : UInt32) (size : Nat)
  | arrGetStrlen (index : UInt32)

/-- What a call returns, with what it stores through its pointers. -/
inductive Answer
  | failed
  | done
  | count (n : Nat)
  | truth (val : Bool)
  | int (val : UInt32)
  | int64 (val : UInt64)
  | float (val : Float32)
  | text (val : Str)
  | length (n : Int)
  deriving DecidableEq

def moved (result : Except Failure Ctx) : Except Failure (Answer × Ctx) :=
  result.map fun ctx => (.done,ctx)

def left (result : Except Failure (Bool × Ctx)) : Except Failure (Answer × Ctx) :=
  result.map fun r => (if r.1 then .done else .failed,r.2)

def read {α : Type} (ctx : Ctx) (answer : α → Answer) (result : Except Failure α) :
    Except Failure (Answer × Ctx) :=
  result.map fun val => (answer val,ctx)

def Call.result (ctx : Ctx) : Call → Except Failure (Answer × Ctx)
  | .objGetArray name => (JsonParser.objGetArray ctx name).map fun r => (.count r.1,r.2)
  | .objLeaveArray => left (JsonParser.objLeaveArray ctx)
  | .objGetObject name => moved (JsonParser.objGetObject ctx name)
  | .objLeaveObject => left (JsonParser.objLeaveObject ctx)
  | .objGetBool name => read ctx .truth (JsonParser.objGetBool ctx name)
  | .objGetInt name => read ctx .int (JsonParser.objGetInt ctx name)
  | .objGetInt64 name => read ctx .int64 (JsonParser.objGetInt64 ctx name)
  | .objGetFloat name => read ctx .float (JsonParser.objGetFloat ctx name)
  | .objGetString name size => read ctx .text (JsonParser.objGetString ctx name size)
  | .objGetStrlen name => read ctx .length (JsonParser.objGetStrlen ctx name)
  | .objGetObjectStr name size => read ctx .text (JsonParser.objGetObjectStr ctx name size)
  | .objGetObjectStrlen name => read ctx .length (JsonParser.objGetObjectStrlen ctx name)
  | .objGetArrayStr name size => read ctx .text (JsonParser.objGetArrayStr ctx name size)
  | .objGetArrayStrlen name => read ctx .length (JsonParser.objGetArrayStrlen ctx name)
  | .arrGetArray index => moved (JsonParser.arrGetArray ctx index)
  | .arrLeaveArray => left (JsonParser.arrLeaveArray ctx)
  | .arrGetObject index => moved (JsonParser.arrGetObject ctx index)
  | .arrLeaveObject => left (JsonParser.arrLeaveObject ctx)
  | .arrGetBool index => read ctx .truth (JsonParser.arrGetBool ctx index)
  | .arrGetInt index => read ctx .int (JsonParser.arrGetInt ctx index)
  | .arrGetInt64 index => read ctx .int64 (JsonParser.arrGetInt64 ctx index)
  | .arrGetFloat index => read ctx .float (JsonParser.arrGetFloat ctx index)
  | .arrGetString index size => read ctx .text (JsonParser.arrGetString ctx index size)
  | .arrGetStrlen index => read ctx .length (JsonParser.arrGetStrlen ctx index)

/-- A call that fails leaves the context. There is no outcome where the array is left. -/
def Call.run (call : Call) (ctx : Ctx) : Option (Answer × Ctx) :=
  match call.result ctx with
  | .ok r => some r
  | .error .fail => some (.failed,ctx)
  | .error .outside => none

def session : List Call → Ctx → Option (List Answer × Ctx)
  | [], ctx => some ([],ctx)
  | call :: calls, ctx => do
    let (answer,ctx) ← call.run ctx
    let (answers,ctx) ← session calls ctx
    some (answer :: answers,ctx)

end Session
section Tree

/-- A node of the tree of a document: a value, or a name with its value. -/
inductive Node
  | value (value : Value)
  | name (key : Key) (value : Value)

def find (name : Str) : Members → Option (Key × Value)
  | .nil => none
  | .cons key value _ rest => if key.name = name then some (key,value) else find name rest

def nth : Nat → Elems → Option Value
  | _, .nil => none
  | 0, .cons _ value _ _ => some value
  | index + 1, .cons _ _ _ rest => nth index rest

/-- Where one stands in the tree: a node and the nodes above it. -/
structure Trail where
  cur : Node
  above : List Node

/-- A value under the present node, and the nodes above that value. -/
abbrev Below := Option (Value × List Node)

def Trail.member (trail : Trail) (name : Str) : Below :=
  match trail.cur with
  | .value (.object _ members) =>
    (find name members).map fun found =>
      (found.2,.name found.1 found.2 :: trail.cur :: trail.above)
  | _ => none

def Trail.element (trail : Trail) (index : Nat) : Below :=
  match trail.cur with
  | .value (.array _ elems) => (nth index elems).map fun value => (value,trail.cur :: trail.above)
  | _ => none

def Below.typed (below : Below) (type : TokenType) : Below :=
  below.filter fun found => found.1.type = type

def Trail.leave (trail : Trail) : Bool × Trail :=
  match trail.above with
  | [] => (false,trail)
  | node :: above => (true,⟨node,above⟩)

def Trail.leaveKey (trail : Trail) : Bool × Trail :=
  if trail.leave.1 = false then (false,trail.leave.2) else trail.leave.2.leave

def truthOf : Value → Option Bool
  | .literal word =>
    if word.text = bytes "true" ∨ word.text = bytes "1" then some true
    else if word.text = bytes "false" ∨ word.text = bytes "0" then some false
    else none
  | _ => none

def integerOf (bits : Nat) : Value → Option Nat
  | .literal word => (JsonParser.integer word.text).map fun number => clamped bits number.1 number.2
  | _ => none

def floatOf : Value → Option Float32
  | .literal word => floatText word.text
  | _ => none

def enter (trail : Trail) (below : Below) (answer : Value → Answer) : Answer × Trail :=
  match below with
  | none => (.failed,trail)
  | some (value,above) => (answer value,⟨.value value,above⟩)

def ask (trail : Trail) (below : Below) (answer : Value → Option Answer) : Answer × Trail :=
  ((below.bind fun found => answer found.1).getD .failed,trail)

def up (left : Bool × Trail) : Answer × Trail := (if left.1 then .done else .failed,left.2)

def fits (size : Nat) (value : Value) : Option Answer :=
  if value.inner.length < size then some (.text value.inner) else none

def measured (value : Value) : Option Answer := some (.length value.inner.length)

/-- What a call does on the tree. -/
def Call.meaning (trail : Trail) : Call → Answer × Trail
  | .objGetArray name => enter trail ((trail.member name).typed .array) fun v => .count v.size
  | .objLeaveArray | .objLeaveObject => up trail.leaveKey
  | .objGetObject name => enter trail ((trail.member name).typed .object) fun _ => .done
  | .objGetBool name =>
    ask trail ((trail.member name).typed .primitive) fun v => (truthOf v).map .truth
  | .objGetInt name => ask trail ((trail.member name).typed .primitive) fun v =>
      (integerOf 32 v).map fun n => .int n.toUInt32
  | .objGetInt64 name => ask trail ((trail.member name).typed .primitive) fun v =>
      (integerOf 64 v).map fun n => .int64 n.toUInt64
  | .objGetFloat name =>
    ask trail ((trail.member name).typed .primitive) fun v => (floatOf v).map .float
  | .objGetString name size => ask trail ((trail.member name).typed .string) (fits size)
  | .objGetStrlen name => ask trail ((trail.member name).typed .string) measured
  | .objGetObjectStr name size => ask trail ((trail.member name).typed .object) (fits size)
  | .objGetObjectStrlen name => ask trail ((trail.member name).typed .object) measured
  | .objGetArrayStr name size => ask trail ((trail.member name).typed .array) (fits size)
  | .objGetArrayStrlen name => ask trail ((trail.member name).typed .array) measured
  | .arrGetArray index => enter trail ((trail.element index.toNat).typed .array) fun _ => .done
  | .arrGetObject index => enter trail ((trail.element index.toNat).typed .object) fun _ => .done
  | .arrLeaveArray | .arrLeaveObject => up trail.leave
  | .arrGetBool index =>
    ask trail ((trail.element index.toNat).typed .primitive) fun v => (truthOf v).map .truth
  | .arrGetInt index => ask trail ((trail.element index.toNat).typed .primitive) fun v =>
      (integerOf 32 v).map fun n => .int n.toUInt32
  | .arrGetInt64 index => ask trail ((trail.element index.toNat).typed .primitive) fun v =>
      (integerOf 64 v).map fun n => .int64 n.toUInt64
  | .arrGetFloat index =>
    ask trail ((trail.element index.toNat).typed .primitive) fun v => (floatOf v).map .float
  | .arrGetString index size => ask trail ((trail.element index.toNat).typed .string) (fits size)
  | .arrGetStrlen index => ask trail ((trail.element index.toNat).typed .string) measured

def walk : List Call → Trail → List Answer × Trail
  | [], trail => ([],trail)
  | call :: calls, trail =>
    let (answer,trail) := call.meaning trail
    let (answers,trail) := walk calls trail
    (answer :: answers,trail)

end Tree

end QuickConnect.JsonParser
