import QuickConnect.Json.Navigation

/-! Where the calls of json_parser.c can go in any accepted text, a document or not: the cursor
stays in the token array, and one call reads behind its end. -/
namespace QuickConnect.JsonParser
open Text Jsmn ScanLoop QuickConnect.Numbering

/-- The name of the member that a call looks up. -/
def Call.name : Call → Option Str
  | .objGetArray name | .objGetObject name | .objGetBool name | .objGetInt name
  | .objGetInt64 name | .objGetFloat name | .objGetString name _ | .objGetStrlen name
  | .objGetObjectStr name _ | .objGetObjectStrlen name | .objGetArrayStr name _
  | .objGetArrayStrlen name => some name
  | _ => none

/-- The cursor is on an object in which the first token of the name is the last of all tokens. -/
def LastIn (ctx : Ctx) (name : Str) : Prop :=
  ∃ node i, ctx.tokens[ctx.cur]? = some node ∧ node.type = .object ∧
    FirstIn ctx.js ctx.tokens ctx.cur name i ∧ ctx.tokens.length ≤ i + 1

structure Held (ctx : Ctx) : Prop where
  tokenized : Tokenized ctx.js ctx.tokens
  inside : ctx.cur < ctx.tokens.length

variable {ctx : Ctx}

section Lookup

theorem firstIn_unique {js : Str} {tokens : List Token} {r i j : Nat} {name : Str}
    (here : FirstIn js tokens r name i) (there : FirstIn js tokens r name j) : i = j := by
  rcases Nat.lt_trichotomy i j with less | same | more
  · exact absurd here.named (there.first i less)
  · exact same
  · exact absurd there.named (here.first j more)

/-- A lookup fails, finds a token, or reads behind the last one. -/
inductive Looked (ctx : Ctx) (out : Prop) : Except Failure (Nat × Token) → Prop
  | failed (other : ¬out) : Looked ctx out (.error .fail)
  | outside (left : out) : Looked ctx out (.error .outside)
  | found (other : ¬out) (i : Nat) (value : Token) (inside : i < ctx.tokens.length) :
      Looked ctx out (.ok (i,value))

theorem objGetVal_looked (held : Held ctx) (name : Str) (type : TokenType) :
    Looked ctx (LastIn ctx name) (objGetVal ctx name type) := by
  have found := List.getElem?_eq_getElem held.inside
  rcases objSearch_in name held.tokenized found with ⟨failed,nowhere⟩ | ⟨i,searched,object,first⟩
  · rw [objGetVal,failed]
    apply Looked.failed
    rintro ⟨node,i,here,kind,first,_⟩
    cases found.symm.trans here
    exact nowhere kind i first.named
  · rw [objGetVal,searched,except_ok_bind]
    rcases Nat.lt_or_ge (i + 1) ctx.tokens.length with inside | beyond
    · obtain ⟨value,read,_⟩ := tokenOf_inside inside
      have other : ¬LastIn ctx name := by
        rintro ⟨node,j,_,_,again,past⟩
        rw [firstIn_unique again first] at past
        omega
      rw [read,except_ok_bind]
      by_cases same : value.type = type
      · rw [if_neg (not_not.mpr same)]
        exact .found other (i + 1) value inside
      · rw [if_pos same]
        exact .failed other
    · rw [tokenOf,List.getElem?_eq_none beyond]
      exact .outside ⟨_,i,found,object,first,beyond⟩

/-- An index below the size of an array comes to a token. -/
theorem arrSkip_inside (tokenized : Tokenized ctx.js ctx.tokens) {r : Nat} :
    ∀ n last, Passed (parentAt ctx.tokens) ctx.tokens.length r last →
      n < childrenBehind (parentAt ctx.tokens) ctx.tokens.length r last →
      ∃ i, arrSkip ctx n (last + 1) = .ok i ∧ i < ctx.tokens.length := by
  obtain ⟨parser,full,forest⟩ := tokenized.forest
  have numbered := full ▸ forest.numbered
  intro n
  induction n with
  | zero =>
    intro last passed some'
    exact ⟨last + 1,rfl,(passed.next_child numbered (Nat.ne_of_gt some')).1⟩
  | succ n ih =>
    intro last passed some'
    obtain ⟨inside,under⟩ := passed.next_child numbered (by omega)
    obtain ⟨next,skipped,ends⟩ := skipElem_ends forest full (ctx.tokens.length + 1) (last + 1)
      inside (by omega)
    have counted := passed.child_count under ends
    rw [arrSkip,skipped,except_ok_bind]
    exact ih next (passed.child under ends) (by omega)

theorem arrGetVal_looked (held : Held ctx) (index : UInt32) (type : TokenType) :
    Looked ctx False (arrGetVal ctx index type) := by
  obtain ⟨parser,full,forest⟩ := held.tokenized.forest
  have numbered := full ▸ forest.numbered
  obtain ⟨node,read,found⟩ := tokenOf_inside held.inside
  have size := forest.sizes ctx.cur node (full ▸ held.inside) found
  rw [full,← childrenBehind_self numbered] at size
  rw [arrGetVal,arrSearch,read,except_ok_bind]
  by_cases refused : node.type ≠ .array ∨ node.size = 0
  · rw [if_pos refused]
    exact .failed id
  · rw [if_neg refused]
    by_cases beyond : index.toNat > node.size - 1
    · rw [if_pos beyond]
      exact .failed id
    · obtain ⟨i,skipped,inside⟩ := arrSkip_inside held.tokenized index.toNat ctx.cur
        (passed_self held.inside) (by omega)
      obtain ⟨value,there,_⟩ := tokenOf_inside inside
      rw [if_neg beyond,skipped,except_ok_bind,there,except_ok_bind]
      by_cases same : value.type = type
      · rw [if_neg (not_not.mpr same)]
        exact .found id i value inside
      · rw [if_pos same]
        exact .failed id

end Lookup
section Steps

/-- The array is left in this case only, and otherwise the cursor is in it again. -/
structure Settles (ctx : Ctx) (out : Prop) (result : Except Failure (Answer × Ctx)) : Prop where
  outside : result = .error .outside ↔ out
  inside : ∀ answer ctx', result = .ok (answer,ctx') →
    ctx'.js = ctx.js ∧ ctx'.tokens = ctx.tokens ∧ ctx'.cur < ctx.tokens.length

variable {out : Prop} {result : Except Failure (Nat × Token)}

theorem settles_enter (looked : Looked ctx out result) (answer : Token → Answer) :
    Settles ctx out
      (result >>= fun found => .ok (answer found.2,{ ctx with cur := found.1 })) := by
  cases looked with
  | failed other => exact ⟨⟨(fun same => by cases same),fun it => absurd it other⟩,
      (fun _ _ same => by cases same)⟩
  | outside it => exact ⟨⟨fun _ => it,fun _ => rfl⟩,(fun _ _ same => by cases same)⟩
  | found other i value inside =>
    refine ⟨⟨(fun same => by cases same),fun it => absurd it other⟩,?_⟩
    intro answer ctx' same
    cases same
    exact ⟨rfl,rfl,inside⟩

theorem settles_read {α : Type} (held : Held ctx) (looked : Looked ctx out result)
    (convert : Token → Except Failure α) (wrap : α → Answer)
    (plain : ∀ token, convert token ≠ .error .outside) :
    Settles ctx out (read ctx wrap (result >>= fun found => convert found.2)) := by
  cases looked with
  | failed other => exact ⟨⟨(fun same => by cases same),fun it => absurd it other⟩,
      (fun _ _ same => by cases same)⟩
  | outside it => exact ⟨⟨fun _ => it,fun _ => rfl⟩,(fun _ _ same => by cases same)⟩
  | found other i value inside =>
    rw [except_ok_bind]
    simp only
    cases converted : convert value with
    | error e =>
      refine ⟨⟨?_,fun it => absurd it other⟩,(fun _ _ same => by cases same)⟩
      intro same
      cases same
      exact absurd converted (plain value)
    | ok a =>
      refine ⟨⟨(fun same => by cases same),fun it => absurd it other⟩,?_⟩
      intro answer ctx' same
      cases same
      exact ⟨rfl,rfl,held.inside⟩

theorem tokToString_plain (js : Str) (size : Nat) (token : Token) :
    tokToString js token size ≠ .error .outside := by
  rw [tokToString]
  split <;> exact fun same => by cases same

theorem tokToBool_plain (js : Str) (token : Token) : tokToBool js token ≠ .error .outside := by
  rw [tokToBool]
  split
  · exact fun same => by cases same
  · split <;> exact fun same => by cases same

theorem unsigned_plain {α : Type} (bits : Nat) (js : Str) (token : Token) (f : Nat → α) :
    (tokToUnsigned bits js token).map f ≠ .error .outside := by
  rw [tokToUnsigned]
  split <;> exact fun same => by cases same

theorem tokToInt_plain (js : Str) (token : Token) : tokToInt js token ≠ .error .outside := by
  rw [tokToInt]
  exact unsigned_plain 32 js token Nat.toUInt32

theorem tokToInt64_plain (js : Str) (token : Token) : tokToInt64 js token ≠ .error .outside := by
  rw [tokToInt64]
  exact unsigned_plain 64 js token Nat.toUInt64

theorem tokToFloat_plain (js : Str) (token : Token) : tokToFloat js token ≠ .error .outside := by
  rw [tokToFloat]
  split <;> exact fun same => by cases same

theorem length_plain (token : Token) :
    (Except.ok (token.stop - token.start) : Except Failure Int) ≠ .error .outside := fun same => by
  cases same

/-- A step up goes to the parent, which is in the array. -/
theorem leave_held (held : Held ctx) : ∃ went ctx', leave ctx = .ok (went,ctx') ∧
    ctx'.js = ctx.js ∧ ctx'.tokens = ctx.tokens ∧ Held ctx' := by
  obtain ⟨parser,full,forest⟩ := held.tokenized.forest
  obtain ⟨node,read,found⟩ := tokenOf_inside held.inside
  have high := (forest.numbered ctx.cur (full ▸ held.inside)).high
  rw [parentAt_found found] at high
  rw [leave,read,except_ok_bind]
  by_cases root : node.parent < 0
  · rw [if_pos root]
    exact ⟨false,ctx,rfl,rfl,rfl,held⟩
  · rw [if_neg root]
    refine ⟨true,_,rfl,rfl,rfl,held.tokenized,?_⟩
    have before := held.inside
    change node.parent.toNat < ctx.tokens.length
    omega

theorem leaveKey_held (held : Held ctx) : ∃ went ctx', leaveKey ctx = .ok (went,ctx') ∧
    ctx'.js = ctx.js ∧ ctx'.tokens = ctx.tokens ∧ Held ctx' := by
  obtain ⟨went,ctx',first,text,array,held'⟩ := leave_held held
  rw [leaveKey,first,except_ok_bind]
  cases went with
  | false => exact ⟨false,ctx',rfl,text,array,held'⟩
  | true =>
    obtain ⟨went,last,second,text',array',held''⟩ := leave_held held'
    exact ⟨went,last,second,text'.trans text,array'.trans array,held''⟩

theorem settles_left {result : Except Failure (Bool × Ctx)} (goes : ∃ went ctx',
    result = .ok (went,ctx') ∧ ctx'.js = ctx.js ∧ ctx'.tokens = ctx.tokens ∧ Held ctx') :
    Settles ctx False (left result) := by
  obtain ⟨went,ctx',rfl,text,array,held⟩ := goes
  refine ⟨⟨(fun same => by cases same),False.elim⟩,?_⟩
  intro answer last same
  cases same
  exact ⟨text,array,array ▸ held.inside⟩

def Call.last (ctx : Ctx) (call : Call) : Prop := ∃ name ∈ call.name, LastIn ctx name

theorem last_named {call : Call} {name : Str} (named : call.name = some name) :
    LastIn ctx name = call.last ctx := by
  rw [Call.last,named]
  simp

theorem last_unnamed {call : Call} (unnamed : call.name = none) : False = call.last ctx := by
  rw [Call.last,unnamed]
  simp

theorem call_settles (held : Held ctx) (call : Call) :
    Settles ctx (call.last ctx) (call.result ctx) := by
  have member := objGetVal_looked held
  have element := arrGetVal_looked held
  cases call with
  | objGetArray name =>
    rw [← last_named rfl,Call.result,objGetArray,map_bind]
    exact settles_enter (member name .array) fun token => .count token.size
  | objLeaveArray =>
    rw [← last_unnamed rfl]
    exact settles_left (leaveKey_held held)
  | objGetObject name =>
    rw [← last_named rfl,Call.result,objGetObject,moved,map_bind]
    exact settles_enter (member name .object) fun _ => .done
  | objLeaveObject =>
    rw [← last_unnamed rfl]
    exact settles_left (leaveKey_held held)
  | objGetBool name =>
    rw [← last_named rfl]
    exact settles_read held (member name .primitive) (tokToBool ctx.js) .truth (tokToBool_plain _)
  | objGetInt name =>
    rw [← last_named rfl]
    exact settles_read held (member name .primitive) (tokToInt ctx.js) .int (tokToInt_plain _)
  | objGetInt64 name =>
    rw [← last_named rfl]
    exact settles_read held (member name .primitive) (tokToInt64 ctx.js) .int64 (tokToInt64_plain _)
  | objGetFloat name =>
    rw [← last_named rfl]
    exact settles_read held (member name .primitive) (tokToFloat ctx.js) .float (tokToFloat_plain _)
  | objGetString name size =>
    rw [← last_named rfl,Call.result,JsonParser.objGetString,objGetValTok_val,bind_assoc]
    exact settles_read held (member name .string) (fun tok => tokToString ctx.js tok size) .text
      (tokToString_plain _ size)
  | objGetStrlen name =>
    rw [← last_named rfl,Call.result,JsonParser.objGetStrlen,objGetValTok_val,bind_assoc]
    exact settles_read held (member name .string) (fun tok => .ok (tok.stop - tok.start)) .length
      length_plain
  | objGetObjectStr name size =>
    rw [← last_named rfl]
    exact settles_read held (member name .object) (fun tok => tokToString ctx.js tok size) .text
      (tokToString_plain _ size)
  | objGetObjectStrlen name =>
    rw [← last_named rfl]
    exact settles_read held (member name .object) (fun tok => .ok (tok.stop - tok.start)) .length
      length_plain
  | objGetArrayStr name size =>
    rw [← last_named rfl]
    exact settles_read held (member name .array) (fun tok => tokToString ctx.js tok size) .text
      (tokToString_plain _ size)
  | objGetArrayStrlen name =>
    rw [← last_named rfl]
    exact settles_read held (member name .array) (fun tok => .ok (tok.stop - tok.start)) .length
      length_plain
  | arrGetArray index =>
    rw [← last_unnamed rfl,Call.result,arrGetArray,moved,map_bind]
    exact settles_enter (element index .array) fun _ => .done
  | arrLeaveArray =>
    rw [← last_unnamed rfl]
    exact settles_left (leave_held held)
  | arrGetObject index =>
    rw [← last_unnamed rfl,Call.result,arrGetObject,moved,map_bind]
    exact settles_enter (element index .object) fun _ => .done
  | arrLeaveObject =>
    rw [← last_unnamed rfl]
    exact settles_left (leave_held held)
  | arrGetBool index =>
    rw [← last_unnamed rfl]
    exact settles_read held (element index .primitive) (tokToBool ctx.js) .truth (tokToBool_plain _)
  | arrGetInt index =>
    rw [← last_unnamed rfl]
    exact settles_read held (element index .primitive) (tokToInt ctx.js) .int (tokToInt_plain _)
  | arrGetInt64 index =>
    rw [← last_unnamed rfl]
    exact settles_read held (element index .primitive) (tokToInt64 ctx.js) .int64
      (tokToInt64_plain _)
  | arrGetFloat index =>
    rw [← last_unnamed rfl]
    exact settles_read held (element index .primitive) (tokToFloat ctx.js) .float
      (tokToFloat_plain _)
  | arrGetString index size =>
    rw [← last_unnamed rfl]
    exact settles_read held (element index .string) (fun tok => tokToString ctx.js tok size) .text
      (tokToString_plain _ size)
  | arrGetStrlen index =>
    rw [← last_unnamed rfl]
    exact settles_read held (element index .string) (fun tok => .ok (tok.stop - tok.start)) .length
      length_plain

theorem call_held (held : Held ctx) (call : Call) :
    (call.run ctx = none ↔ call.last ctx) ∧
      ∀ answer ctx', call.run ctx = some (answer,ctx') → Held ctx' := by
  obtain ⟨outside,inside⟩ := call_settles held call
  rw [Call.run]
  cases result : call.result ctx with
  | error e =>
    rw [result] at outside
    cases e with
    | fail =>
      refine ⟨⟨(fun same => by cases same),fun it => by cases outside.mpr it⟩,?_⟩
      intro answer ctx' same
      cases same
      exact held
    | outside =>
      exact ⟨⟨fun _ => outside.mp rfl,fun _ => rfl⟩,(fun _ _ same => by cases same)⟩
  | ok r =>
    rw [result] at outside
    refine ⟨⟨(fun same => by cases same),fun it => by cases outside.mpr it⟩,?_⟩
    intro answer ctx' same
    cases same
    obtain ⟨text,array,within⟩ := inside answer ctx' result
    exact ⟨by rw [text,array]; exact held.tokenized,by rw [array]; exact within⟩

end Steps
section Run

theorem session_leaves (held : Held ctx) (calls : List Call) : session calls ctx = none ↔
    ∃ before call after answers ctx', calls = before ++ call :: after ∧
      session before ctx = some (answers,ctx') ∧ call.last ctx' := by
  induction calls generalizing ctx with
  | nil =>
    constructor
    · exact fun same => by cases same
    · rintro ⟨before,call,after,_,_,same,_⟩
      cases before <;> cases same
  | cons call calls ih =>
    obtain ⟨leaves,stays⟩ := call_held held call
    rw [session]
    cases ran : call.run ctx with
    | none => exact ⟨fun _ => ⟨[],call,calls,[],ctx,rfl,rfl,leaves.mp ran⟩,fun _ => rfl⟩
    | some done =>
      have rest := ih (stays done.1 done.2 ran)
      simp only [Option.bind_eq_bind,Option.bind_some,Option.bind_eq_none_iff]
      constructor
      · intro none
        have failed : session calls done.2 = .none := by
          cases others : session calls done.2 with
          | none => rfl
          | some r => cases none r others
        obtain ⟨before,next,after,answers,ctx',same,reached,outside⟩ := rest.mp failed
        refine ⟨call :: before,next,after,done.1 :: answers,ctx',by rw [same]; rfl,?_,outside⟩
        rw [session,ran]
        simp only [Option.bind_eq_bind,Option.bind_some,reached]
      · rintro ⟨before,next,after,answers,ctx',same,reached,outside⟩
        cases before with
        | nil =>
          cases same
          cases reached
          cases ran.symm.trans (leaves.mpr outside)
        | cons first before =>
          cases same
          rw [session,ran] at reached
          simp only [Option.bind_eq_bind,Option.bind_some,Option.bind_eq_some_iff] at reached
          obtain ⟨others,reached,same⟩ := reached
          cases same
          have failed := rest.mpr ⟨before,next,after,others.1,others.2,rfl,reached,outside⟩
          intro r others
          cases failed.symm.trans others

/-- In every accepted text the calls leave the token array exactly when an object is asked for
a member whose name is the last token of the text. -/
theorem session_outside {allocated : Bool} {js : Str} (started : parseStart allocated js = .ok ctx)
    (calls : List Call) : session calls ctx = none ↔
      ∃ before call after answers ctx', calls = before ++ call :: after ∧
        session before ctx = some (answers,ctx') ∧ call.last ctx' := by
  obtain ⟨text,start,tokenized⟩ := parseStart_tokenized started
  apply session_leaves
  rw [← text] at tokenized
  exact ⟨tokenized,by rw [start]; exact List.length_pos_iff.mpr tokenized.filled⟩

def bareCtx : Ctx := ⟨bytes "\x7b\"a\"\x7d",[⟨.object,0,5,1,-1⟩,⟨.string,2,3,0,0⟩],0⟩

theorem session_outside_bare : session [.objGetInt (bytes "a")] bareCtx = none ↔
    ∃ before call after answers ctx', [Call.objGetInt (bytes "a")] = before ++ call :: after ∧
      session before bareCtx = some (answers,ctx') ∧ call.last ctx' :=
  session_outside (show parseStart true bareCtx.js = .ok bareCtx by rfl) _

end Run

end QuickConnect.JsonParser
