import QuickConnect.Json.Jsmn

/-! json_parser.c: tokens of a text and the lookup of string members in its first object.
A lookup that leaves the token array has no result the language promises. -/
namespace QuickConnect.JsonParser
open Jsmn

inductive Failure
  | fail
  | outside
  deriving DecidableEq

structure Ctx where
  js : Str
  tokens : List Token
  -- The index of the token `cur` points to.
  cur : Nat

def failure : Err → Failure
  | .outside => .outside
  | _ => .fail

def jsmnParse (js : Str) (tokens : Option (List Token)) : Except Failure Scan :=
  match parse init js tokens with
  | .error e => .error (failure e)
  | .ok last => if last.count = 0 then .error .fail else .ok last

/-- `allocated` is whether calloc finds room for the tokens. -/
def parseStart (allocated : Bool) (js : Str) : Except Failure Ctx := do
  let counted ← jsmnParse js none
  if allocated = false then .error .fail
  else do
    let last ← jsmnParse js (some (List.replicate counted.count Token.blank))
    .ok ⟨js,last.tokens.getD [],0⟩

def tokenOf (tokens : List Token) (index : Nat) : Except Failure Token :=
  match tokens[index]? with
  | none => .error .outside
  | some token => .ok token

/-- strncmp over the bytes from the start of the token, and the lengths. -/
def tokenMatchesStr (js : Str) (tok : Token) (str : Str) : Bool :=
  (js.drop tok.start.toNat).take str.length = str && (str.length : Int) = tok.stop - tok.start

def skipTimes (skip : Nat → Except Failure Nat) : Nat → Nat → Except Failure Nat
  | 0, cur => .ok cur
  | cnt + 1, cur => do
    let cur ← skip (cur + 1)
    skipTimes skip cnt cur

/-- An element inside another has a larger index, so that the array is left before the
fuel is used up. -/
def skipElem (tokens : List Token) : Nat → Nat → Except Failure Nat
  | 0, _ => .error .outside
  | fuel + 1, token => do
    let cur ← tokenOf tokens token
    skipTimes (skipElem tokens fuel) cur.size token

def searchMembers (ctx : Ctx) (key : Str) : Nat → Nat → Except Failure Nat
  | 0, _ => .error .fail
  | size + 1, tok => do
    let token ← tokenOf ctx.tokens (tok + 1)
    if tokenMatchesStr ctx.js token key then .ok (tok + 1)
    else do
      let last ← skipElem ctx.tokens (ctx.tokens.length + 1) (tok + 1)
      searchMembers ctx key size last

def objSearch (ctx : Ctx) (key : Str) : Except Failure Nat := do
  let tok ← tokenOf ctx.tokens ctx.cur
  if tok.size = 0 then .error .fail
  else if tok.type ≠ .object then .error .fail
  else searchMembers ctx key tok.size ctx.cur

def objGetValTok (ctx : Ctx) (name : Str) (type : TokenType) : Except Failure Token := do
  let tok ← objSearch ctx name
  let value ← tokenOf ctx.tokens (tok + 1)
  if value.type ≠ type then .error .fail
  else .ok value

def tokToString (js : Str) (tok : Token) (size : Nat) : Except Failure Str :=
  if tok.stop - tok.start > size - 1 then .error .fail
  else .ok ((js.drop tok.start.toNat).take (tok.stop - tok.start).toNat)

/-- The string left in a buffer of the given size. -/
def objGetString (ctx : Ctx) (name : Str) (size : Nat) : Except Failure Str := do
  let tok ← objGetValTok ctx name .string
  tokToString ctx.js tok size

def objGetStrlen (ctx : Ctx) (name : Str) : Except Failure Int := do
  let tok ← objGetValTok ctx name .string
  .ok (tok.stop - tok.start)

end QuickConnect.JsonParser
