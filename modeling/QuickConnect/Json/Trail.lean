import QuickConnect.Json.Navigation

/-! The calls of json_parser.c in a document do what they mean on its tree: where the cursor
stands in the token array there stands the node, and the tokens of what is under it follow. -/
namespace QuickConnect.JsonParser
open Text Jsmn ScanLoop

def Node.text : Node → Str
  | .value v => v.text
  | .name key v => key.text ++ v.text

def Node.tokens : Node → Nat → Nat → Int → List Token
  | .value v, pos, index, parent => v.tokens pos index parent
  | .name key v, pos, index, parent =>
    key.token pos parent :: v.tokens (pos + key.text.length) (index + 1) index

def Node.container : Node → Prop
  | .value v => v.type = .object ∨ v.type = .array
  | .name _ _ => False

/-- The node stands at a place of the text and its tokens at an index of the array. -/
structure Placed (js : Str) (tokens : List Token) (node : Node) (index pos : Nat) (parent : Int) :
    Prop where
  tokens : ∃ back, tokens.drop index = node.tokens pos index parent ++ back
  text : ∃ rest, js.drop pos = node.text ++ rest ∧ (Ended rest ∨ node.container)

structure MembersPlaced (js : Str) (tokens : List Token) (members : Members) (index pos : Nat)
    (parent : Int) : Prop where
  tokens : ∃ back, tokens.drop index = members.tokens pos index parent ++ back
  text : ∃ rest, js.drop pos = members.text ++ rest ∧ Ended rest

structure ElemsPlaced (js : Str) (tokens : List Token) (elems : Elems) (index pos : Nat)
    (parent : Int) : Prop where
  tokens : ∃ back, tokens.drop index = elems.tokens pos index parent ++ back
  text : ∃ rest, js.drop pos = elems.text ++ rest ∧ Ended rest

/-- The cursor stands on the first of these nodes, and each has the next one as its parent. -/
def Stands (js : Str) (tokens : List Token) : Int → List Node → Prop
  | index, [] => index = -1
  | index, node :: above => ∃ (i pos : Nat) (parent : Int), index = i ∧
      Placed js tokens node i pos parent ∧ Stands js tokens parent above

variable {js : Str} {tokens : List Token} {index pos : Nat} {parent : Int}

section Parts

theorem Placed.members {gap : Blanks} {members : Members}
    (placed : Placed js tokens (.value (.object gap members)) index pos parent) :
    MembersPlaced js tokens members (index + 1) (pos + 1 + gap.1.length) index := by
  obtain ⟨⟨back,listed⟩,rest,spelt,_⟩ := placed
  simp only [Node.tokens,Node.text,Value.tokens,Value.text,List.cons_append,List.append_assoc]
    at listed spelt
  exact ⟨⟨back,remaining_next listed⟩,125 :: rest,remaining_add (remaining_next spelt),125,rest,rfl,
    by decide⟩

theorem Placed.elems {gap : Blanks} {elems : Elems}
    (placed : Placed js tokens (.value (.array gap elems)) index pos parent) :
    ElemsPlaced js tokens elems (index + 1) (pos + 1 + gap.1.length) index := by
  obtain ⟨⟨back,listed⟩,rest,spelt,_⟩ := placed
  simp only [Node.tokens,Node.text,Value.tokens,Value.text,List.cons_append,List.append_assoc]
    at listed spelt
  exact ⟨⟨back,remaining_next listed⟩,93 :: rest,remaining_add (remaining_next spelt),93,rest,rfl,
    by decide⟩

theorem MembersPlaced.first {key : Key} {value : Value} {behind : Blanks} {rest : Members}
    (placed : MembersPlaced js tokens (.cons key value behind rest) index pos parent) :
    Placed js tokens (.name key value) index pos parent ∧
      MembersPlaced js tokens rest (index + 1 + value.count)
        (pos + (key.text ++ value.text ++ behind.1 ++ rest.comma).length) parent := by
  obtain ⟨⟨back,listed⟩,tail,spelt,ended⟩ := placed
  rw [Members.tokens,List.append_assoc,List.cons_append] at listed
  simp only [Members.text,List.append_assoc] at spelt
  have after : Ended (rest.comma ++ (rest.text ++ tail)) := by
    apply Members.ended ended
    rintro rfl
    rfl
  refine ⟨⟨⟨_,listed⟩,behind.1 ++ (rest.comma ++ (rest.text ++ tail)),?_,
    Or.inl (ended_blanks after)⟩,⟨back,?_⟩,tail,?_,ended⟩
  · rw [spelt,Node.text,List.append_assoc]
  · have others := remaining_add (remaining_next listed)
    rw [value.tokens_length] at others
    rw [others]
  · apply remaining_add
    rw [spelt]
    simp only [List.append_assoc]

theorem ElemsPlaced.first {lead : Blanks} {value : Value} {behind : Blanks} {rest : Elems}
    (placed : ElemsPlaced js tokens (.cons lead value behind rest) index pos parent) :
    Placed js tokens (.value value) index (pos + lead.1.length) parent ∧
      ElemsPlaced js tokens rest (index + value.count)
        (pos + (lead.1 ++ value.text ++ behind.1 ++ rest.comma).length) parent := by
  obtain ⟨⟨back,listed⟩,tail,spelt,ended⟩ := placed
  rw [Elems.tokens,List.append_assoc] at listed
  simp only [Elems.text,List.append_assoc] at spelt
  have after : Ended (rest.comma ++ (rest.text ++ tail)) := by
    apply Elems.ended ended
    rintro rfl
    rfl
  refine ⟨⟨⟨_,listed⟩,behind.1 ++ (rest.comma ++ (rest.text ++ tail)),remaining_add spelt,
    Or.inl (ended_blanks after)⟩,⟨back,?_⟩,tail,?_,ended⟩
  · have others := remaining_add listed
    rw [value.tokens_length] at others
    exact others
  · apply remaining_add
    rw [spelt]
    simp only [List.append_assoc]

/-- The value of a name comes right behind it. -/
theorem Placed.named {key : Key} {value : Value}
    (placed : Placed js tokens (.name key value) index pos parent) :
    Placed js tokens (.value value) (index + 1) (pos + key.text.length) index := by
  obtain ⟨⟨back,listed⟩,rest,spelt,ended⟩ := placed
  rw [Node.text,List.append_assoc] at spelt
  refine ⟨⟨back,remaining_next listed⟩,rest,remaining_add spelt,Or.inl ?_⟩
  rcases ended with ended | container
  · exact ended
  · cases container

theorem tokenOf_drop {token : Token} {rest : List Token} (found : tokens.drop index = token :: rest) :
    tokenOf tokens index = .ok token := by
  rw [tokenOf,peek found]

theorem Placed.token {value : Value} (placed : Placed js tokens (.value value) index pos parent) :
    tokenOf tokens index = .ok (value.token pos parent) := by
  obtain ⟨⟨back,listed⟩,_⟩ := placed
  obtain ⟨inner,own⟩ := value.tokens_cons pos index parent
  rw [Node.tokens,own] at listed
  exact tokenOf_drop listed

theorem Placed.key {key : Key} {value : Value}
    (placed : Placed js tokens (.name key value) index pos parent) :
    tokenOf tokens index = .ok (key.token pos parent) := by
  obtain ⟨⟨back,listed⟩,_⟩ := placed
  exact tokenOf_drop listed

end Parts
section Skip

mutual
theorem value_skipped (value : Value) {pos index : Nat} {parent : Int} {back : List Token}
    (listed : tokens.drop index = value.tokens pos index parent ++ back) {fuel : Nat}
    (enough : value.count ≤ fuel) :
    ∃ last, skipElem tokens fuel index = .ok last ∧ last + 1 = index + value.count := by
  obtain ⟨inner,own⟩ := value.tokens_cons pos index parent
  obtain ⟨fuel,rfl⟩ : ∃ rest, fuel = rest + 1 := by
    apply Nat.exists_eq_succ_of_ne_zero
    rw [← value.tokens_length pos index parent,own,List.length_cons] at enough
    omega
  have here : tokenOf tokens index = .ok (value.token pos parent) := by
    rw [own] at listed
    exact tokenOf_drop listed
  rw [skipElem,here,except_ok_bind]
  cases value with
  | string => exact ⟨index,rfl,rfl⟩
  | literal => exact ⟨index,rfl,rfl⟩
  | object gap members =>
    rw [Value.count] at enough
    exact ⟨_,members_skipped members (remaining_next listed) (by omega),by rw [Value.count]; omega⟩
  | array gap elems =>
    rw [Value.count] at enough
    exact ⟨_,elems_skipped elems (remaining_next listed) (by omega),by rw [Value.count]; omega⟩

theorem members_skipped (members : Members) {pos index : Nat} {parent : Int} {back : List Token}
    (listed : tokens.drop (index + 1) = members.tokens pos (index + 1) parent ++ back) {fuel : Nat}
    (enough : members.count ≤ fuel) :
    skipTimes (skipElem tokens fuel) members.size index = .ok (index + members.count) := by
  cases members with
  | nil => rfl
  | cons key value behind rest =>
    simp only [Members.tokens,List.cons_append,List.append_assoc] at listed
    rw [Members.count] at enough ⊢
    obtain ⟨fuel,rfl⟩ : ∃ rest, fuel = rest + 1 := by
      apply Nat.exists_eq_succ_of_ne_zero
      omega
    have valued := remaining_next listed
    obtain ⟨last,skipped,ends⟩ := value_skipped value valued (show value.count ≤ fuel by omega)
    have others := remaining_add valued
    rw [value.tokens_length] at others
    have next : index + 1 + 1 + value.count = last + 1 := by omega
    have named : skipElem tokens (fuel + 1) (index + 1) = .ok last := by
      rw [skipElem,tokenOf_drop listed,except_ok_bind]
      change skipTimes _ 1 _ = _
      rw [skipTimes,skipped]
      rfl
    rw [next] at others
    rw [Members.size,skipTimes,named,except_ok_bind,members_skipped rest others (by omega)]
    congr 1
    omega

theorem elems_skipped (elems : Elems) {pos index : Nat} {parent : Int} {back : List Token}
    (listed : tokens.drop (index + 1) = elems.tokens pos (index + 1) parent ++ back) {fuel : Nat}
    (enough : elems.count ≤ fuel) :
    skipTimes (skipElem tokens fuel) elems.size index = .ok (index + elems.count) := by
  cases elems with
  | nil => rfl
  | cons lead value behind rest =>
    simp only [Elems.tokens,List.append_assoc] at listed
    rw [Elems.count] at enough ⊢
    obtain ⟨last,skipped,ends⟩ := value_skipped value listed (show value.count ≤ fuel by omega)
    have others := remaining_add listed
    rw [value.tokens_length] at others
    have next : index + 1 + value.count = last + 1 := by omega
    rw [next] at others
    rw [Elems.size,skipTimes,skipped,except_ok_bind,elems_skipped rest others (by omega)]
    congr 1
    omega
end

end Skip
section Search

theorem tokenMatchesStr_spelt {start : Nat} {w rest : Str} {tok : Token} (first : tok.start = start)
    (last : tok.stop = (start + w.length : Nat)) (spelt : js.drop start = w ++ rest) (str : Str) :
    tokenMatchesStr js tok str = decide (w = str) := by
  have span : tok.stop - tok.start = w.length := by omega
  rw [tokenMatchesStr,span,first,Int.toNat_natCast,spelt]
  by_cases same : w = str
  · subst same
    simp
  · rw [decide_eq_false same]
    by_cases long : (str.length : Int) = w.length
    · have long' : str.length = w.length := by omega
      rw [long',List.take_left]
      simp [same]
    · simp [long]

theorem Placed.matches_key {key : Key} {value : Value}
    (placed : Placed js tokens (.name key value) index pos parent) (str : Str) :
    tokenMatchesStr js (key.token pos parent) str = decide (key.name = str) := by
  obtain ⟨_,rest,spelt,_⟩ := placed
  simp only [Node.text,Key.text,List.append_assoc,List.cons_append] at spelt
  exact tokenMatchesStr_spelt rfl rfl (remaining_next (remaining_add spelt)) str

/-- The loop of json_obj_search in the members of an object finds the first of the name. -/
theorem searchMembers_find {ctx : Ctx} (name : Str) (members : Members) {tok pos : Nat}
    {parent : Int} (placed : MembersPlaced ctx.js ctx.tokens members (tok + 1) pos parent) :
    match find name members with
    | none => searchMembers ctx name members.size tok = .error .fail
    | some (key,value) => ∃ i p, searchMembers ctx name members.size tok = .ok i ∧
        Placed ctx.js ctx.tokens (.name key value) i p parent := by
  cases members with
  | nil => rfl
  | cons key value behind rest =>
    obtain ⟨first,others⟩ := placed.first
    rw [find,Members.size,searchMembers,first.key,except_ok_bind,first.matches_key]
    by_cases same : key.name = name
    · rw [if_pos same,decide_eq_true same,if_pos rfl]
      exact ⟨tok + 1,pos,rfl,first⟩
    · rw [if_neg same,decide_eq_false same,if_neg Bool.false_ne_true]
      obtain ⟨⟨back,listed⟩,_⟩ := first
      rw [Node.tokens] at listed
      have room := congrArg List.length listed
      simp only [List.length_drop,List.cons_append,List.length_cons,List.length_append,
        value.tokens_length] at room
      obtain ⟨last,skipped,ends⟩ := value_skipped value (remaining_next listed)
        (show value.count ≤ ctx.tokens.length by omega)
      have named : skipElem ctx.tokens (ctx.tokens.length + 1) (tok + 1) = .ok last := by
        rw [skipElem,tokenOf_drop listed,except_ok_bind]
        change skipTimes _ 1 _ = _
        rw [skipTimes,skipped]
        rfl
      have next : tok + 1 + 1 + value.count = last + 1 := by omega
      rw [next] at others
      rw [named,except_ok_bind]
      exact searchMembers_find name rest others

/-- The loop of json_arr_search comes to the element of the index. -/
theorem arrSkip_nth {ctx : Ctx} (elems : Elems) {tok pos : Nat} {parent : Int}
    (placed : ElemsPlaced ctx.js ctx.tokens elems tok pos parent) {n : Nat}
    (inside : n < elems.size) : ∃ value i p, nth n elems = some value ∧ arrSkip ctx n tok = .ok i ∧
      Placed ctx.js ctx.tokens (.value value) i p parent := by
  cases elems with
  | nil => exact absurd inside (Nat.not_lt_zero n)
  | cons lead value behind rest =>
    obtain ⟨first,others⟩ := placed.first
    cases n with
    | zero => exact ⟨value,tok,_,rfl,rfl,first⟩
    | succ n =>
      obtain ⟨⟨back,listed⟩,_⟩ := first
      rw [Node.tokens] at listed
      have room := congrArg List.length listed
      simp only [List.length_drop,List.length_append,value.tokens_length] at room
      obtain ⟨last,skipped,ends⟩ := value_skipped value listed
        (show value.count ≤ ctx.tokens.length + 1 by omega)
      rw [← ends] at others
      rw [nth,arrSkip,skipped,except_ok_bind]
      exact arrSkip_nth rest others (Nat.lt_of_succ_lt_succ inside)

theorem nth_beyond (elems : Elems) {n : Nat} (beyond : elems.size ≤ n) : nth n elems = none := by
  cases elems with
  | nil => cases n <;> rfl
  | cons lead value behind rest =>
    cases n with
    | zero => exact absurd beyond (Nat.not_succ_le_zero _)
    | succ n => exact nth_beyond rest (Nat.le_of_succ_le_succ beyond)

/-- The result of a lookup is the value below in the tree, if it is of the type. -/
def Reaches (js : Str) (tokens : List Token) (result : Except Failure (Nat × Token))
    (below : Below) : Prop :=
  match below with
  | none => result = .error .fail
  | some (value,above) => ∃ i p parent, result = .ok (i,value.token p parent) ∧
      Placed js tokens (.value value) i p parent ∧ Stands js tokens parent above

variable {ctx : Ctx} {trail : Trail}

/-- A value found is taken where it is of the type. -/
theorem reaches_typed {result : Except Failure Nat} {below : Below} (type : TokenType)
    (found : match below with
      | none => result = .error .fail
      | some (value,above) => ∃ i p parent, result = .ok i ∧
          Placed ctx.js ctx.tokens (.value value) i p parent ∧
          Stands ctx.js ctx.tokens parent above) :
    Reaches ctx.js ctx.tokens (result >>= fun i => tokenOf ctx.tokens i >>= fun value =>
      if value.type ≠ type then .error .fail else .ok (i,value)) (below.typed type) := by
  cases below with
  | none =>
    simp only at found
    rw [found]
    rfl
  | some below =>
    obtain ⟨value,above⟩ := below
    obtain ⟨i,p,parent,result,placed,stands⟩ := found
    rw [result,except_ok_bind,placed.token,except_ok_bind]
    change Reaches _ _ (if value.type ≠ type then _ else _) _
    by_cases same : value.type = type
    · rw [if_neg (not_not.mpr same),Below.typed,Option.filter_some_pos (by simpa using same)]
      exact ⟨i,p,parent,rfl,placed,stands⟩
    · rw [if_pos same,Below.typed,Option.filter_some_neg (by simpa using same)]
      rfl

theorem objSearch_other {token : Token} (read : tokenOf ctx.tokens ctx.cur = .ok token)
    (other : token.type ≠ .object) (name : Str) : objSearch ctx name = .error .fail := by
  rw [objSearch,read,except_ok_bind,if_pos other,ite_self]

theorem arrSearch_other {token : Token} (read : tokenOf ctx.tokens ctx.cur = .ok token)
    (other : token.type ≠ .array) (index : UInt32) : arrSearch ctx index = .error .fail := by
  rw [arrSearch,read,except_ok_bind,if_pos (Or.inl other)]

theorem objGetVal_reaches (stands : Stands ctx.js ctx.tokens ctx.cur (trail.cur :: trail.above))
    (name : Str) (type : TokenType) :
    Reaches ctx.js ctx.tokens (objGetVal ctx name type) ((trail.member name).typed type) := by
  obtain ⟨i,pos,parent,here,placed,above⟩ := stands
  have same : ctx.cur = i := Int.ofNat.inj here
  have searched : objGetVal ctx name type = ((objSearch ctx name >>= fun tok => .ok (tok + 1)) >>=
      fun i => tokenOf ctx.tokens i >>= fun value =>
        if value.type ≠ type then .error .fail else .ok (i,value)) := by
    rw [objGetVal,bind_assoc]
    rfl
  rw [searched]
  apply reaches_typed
  obtain ⟨node,nodes⟩ := trail
  have stays : ∀ token, tokenOf ctx.tokens ctx.cur = .ok token → token.type ≠ .object →
      (objSearch ctx name >>= fun tok => Except.ok (tok + 1)) = .error .fail := by
    intro token read other
    rw [objSearch_other read other]
    rfl
  rw [← same] at placed
  cases node with
  | name key value => exact stays _ placed.key (fun other => by cases other)
  | value value =>
    cases value with
    | string => exact stays _ placed.token (fun other => by cases other)
    | literal => exact stays _ placed.token (fun other => by cases other)
    | array => exact stays _ placed.token (fun other => by cases other)
    | object gap members =>
      have found := searchMembers_find name members placed.members
      have size : ((Value.object gap members).token pos parent).size = members.size := rfl
      have entered : objSearch ctx name = searchMembers ctx name members.size ctx.cur := by
        rw [objSearch,placed.token,except_ok_bind,size]
        by_cases empty : members.size = 0
        · rw [if_pos empty,empty]
          rfl
        · rw [if_neg empty,
            if_neg (show ¬((Value.object gap members).token pos parent).type ≠ .object from
              not_not.mpr rfl)]
      simp only [Trail.member]
      cases listed : find name members with
      | none =>
        rw [listed] at found
        rw [entered,found]
        rfl
      | some pair =>
        obtain ⟨key,value⟩ := pair
        rw [listed] at found
        obtain ⟨k,p,result,named⟩ := found
        exact ⟨k + 1,_,k,by rw [entered,result]; rfl,named.named,k,p,ctx.cur,rfl,named,
          ctx.cur,pos,parent,rfl,placed,above⟩

theorem arrGetVal_reaches (stands : Stands ctx.js ctx.tokens ctx.cur (trail.cur :: trail.above))
    (index : UInt32) (type : TokenType) :
    Reaches ctx.js ctx.tokens (arrGetVal ctx index type)
      ((trail.element index.toNat).typed type) := by
  obtain ⟨i,pos,parent,here,placed,above⟩ := stands
  have same : ctx.cur = i := Int.ofNat.inj here
  apply reaches_typed
  obtain ⟨node,nodes⟩ := trail
  rw [← same] at placed
  cases node with
  | name key value => exact arrSearch_other placed.key (fun other => by cases other) index
  | value value =>
    cases value with
    | string => exact arrSearch_other placed.token (fun other => by cases other) index
    | literal => exact arrSearch_other placed.token (fun other => by cases other) index
    | object => exact arrSearch_other placed.token (fun other => by cases other) index
    | array gap elems =>
      have size : ((Value.array gap elems).token pos parent).size = elems.size := rfl
      simp only [Trail.element]
      rcases Nat.lt_or_ge index.toNat elems.size with inside | beyond
      · obtain ⟨value,k,p,listed,result,placed'⟩ := arrSkip_nth elems placed.elems inside
        have entered : arrSearch ctx index = .ok k := by
          rw [arrSearch,placed.token,except_ok_bind,size,if_neg,if_neg (by omega)]
          · exact result
          · rintro (other | empty)
            · exact other rfl
            · omega
        rw [listed]
        exact ⟨k,p,ctx.cur,entered,placed',ctx.cur,pos,parent,rfl,placed,above⟩
      · rw [nth_beyond elems beyond]
        change arrSearch ctx index = .error .fail
        rw [arrSearch,placed.token,except_ok_bind,size]
        by_cases empty : elems.size = 0
        · rw [if_pos (Or.inr empty)]
        · rw [if_neg (fun other => other.elim (fun kind => kind rfl) empty),if_pos (by omega)]

end Search
section Answers

def orFail {α : Type} : Option α → Except Failure α
  | none => .error .fail
  | some a => .ok a

/-- The text of the token of a value is what is in its place. -/
theorem Placed.inner {value : Value} (placed : Placed js tokens (.value value) index pos parent) :
    ∃ rest, js.drop (pos + value.inset) = value.inner ++ rest := by
  obtain ⟨_,rest,spelt,_⟩ := placed
  cases value with
  | string body valid =>
    simp only [Node.text,Value.text,List.cons_append,List.append_assoc] at spelt
    exact ⟨_,remaining_next spelt⟩
  | literal => exact ⟨rest,spelt⟩
  | object => exact ⟨rest,spelt⟩
  | array => exact ⟨rest,spelt⟩

theorem token_length (value : Value) :
    (value.token pos parent).stop - (value.token pos parent).start = value.inner.length := by
  simp only [Value.token]
  omega

theorem Placed.string {value : Value} (placed : Placed js tokens (.value value) index pos parent)
    (size : Nat) : (tokToString js (value.token pos parent) size).map Answer.text =
      orFail (fits size value) := by
  obtain ⟨rest,spelt⟩ := placed.inner
  have start : (value.token pos parent).start.toNat = pos + value.inset := Int.toNat_natCast _
  rw [tokToString,token_length,start,spelt,Int.toNat_natCast,List.take_left,fits]
  by_cases short : value.inner.length < size
  · rw [if_neg (by omega),if_pos short]
    rfl
  · rw [if_pos (by omega),if_neg short]
    rfl

theorem Placed.matches_word {word : Word}
    (placed : Placed js tokens (.value (.literal word)) index pos parent) (str : Str) :
    tokenMatchesStr js ((Value.literal word).token pos parent) str = decide (word.text = str) := by
  obtain ⟨_,rest,spelt,_⟩ := placed
  exact tokenMatchesStr_spelt rfl rfl spelt str

theorem Placed.bool {value : Value} (placed : Placed js tokens (.value value) index pos parent)
    (primitive : value.type = .primitive) :
    (tokToBool js (value.token pos parent)).map Answer.truth =
      orFail ((truthOf value).map Answer.truth) := by
  cases value with
  | string => cases primitive
  | object => cases primitive
  | array => cases primitive
  | literal word =>
    rw [tokToBool,truthOf]
    simp only [placed.matches_word,Bool.or_eq_true,decide_eq_true_eq]
    by_cases yes : word.text = bytes "true" ∨ word.text = bytes "1"
    · rw [if_pos yes,if_pos yes]
      rfl
    · rw [if_neg yes,if_neg yes]
      by_cases no : word.text = bytes "false" ∨ word.text = bytes "0"
      · rw [if_pos no,if_pos no]
        rfl
      · rw [if_neg no,if_neg no]
        rfl

/-- Nothing of a literal stands behind its word. -/
theorem Placed.behind {word : Word}
    (placed : Placed js tokens (.value (.literal word)) index pos parent) :
    ∃ rest, js.drop pos = word.text ++ rest ∧ Ended rest := by
  obtain ⟨_,rest,spelt,ended⟩ := placed
  refine ⟨rest,spelt,ended.elim id ?_⟩
  intro container
  rcases container with k | k <;> cases k

theorem Placed.float {value : Value} (placed : Placed js tokens (.value value) index pos parent)
    (primitive : value.type = .primitive) :
    (tokToFloat js (value.token pos parent)).map Answer.float =
      orFail ((floatOf value).map Answer.float) := by
  cases value with
  | string => cases primitive
  | object => cases primitive
  | array => cases primitive
  | literal word =>
    obtain ⟨rest,spelt,ended⟩ := placed.behind
    rw [tokToFloat_word word parent spelt ended,floatOf]
    cases floatText word.text <;> rfl

theorem Placed.unsigned {value : Value} (placed : Placed js tokens (.value value) index pos parent)
    (primitive : value.type = .primitive) (bits : Nat) :
    tokToUnsigned bits js (value.token pos parent) = orFail (integerOf bits value) := by
  cases value with
  | string => cases primitive
  | object => cases primitive
  | array => cases primitive
  | literal word =>
    obtain ⟨rest,spelt,ended⟩ := placed.behind
    rw [tokToUnsigned_word bits word parent spelt ended,integerOf]
    cases integer word.text <;> rfl

end Answers
section Simulation
variable {ctx : Ctx} {trail : Trail}

/-- The cursor stands where the trail ends. -/
def Follows (ctx : Ctx) (trail : Trail) : Prop :=
  Stands ctx.js ctx.tokens ctx.cur (trail.cur :: trail.above)

/-- A call gives the answer and goes to where the trail goes. -/
def Simulates (ctx : Ctx) (result : Except Failure (Answer × Ctx)) (meaning : Answer × Trail) : Prop :=
  (∃ cur, result = .ok (meaning.1,{ ctx with cur := cur }) ∧
    Follows { ctx with cur := cur } meaning.2) ∨
  result = .error .fail ∧ meaning.1 = .failed ∧ Follows ctx meaning.2

theorem Below.typed_type {below : Below} {type : TokenType} {value : Value} {above : List Node}
    (found : below.typed type = some (value,above)) : value.type = type :=
  of_decide_eq_true (Option.filter_eq_some_iff.mp found).2

theorem Placed.stands {value : Value} {above : List Node}
    (placed : Placed js tokens (.value value) index pos parent)
    (stands : Stands js tokens parent above) :
    Stands js tokens index (.value value :: above) :=
  ⟨index,pos,parent,rfl,placed,stands⟩

theorem simulates_enter {result : Except Failure (Nat × Token)} {below : Below} {type : TokenType}
    (follows : Follows ctx trail)
    (reaches : Reaches ctx.js ctx.tokens result (below.typed type))
    (answer : Token → Answer) (answered : Value → Answer)
    (agree : ∀ value pos parent, answer (value.token pos parent) = answered value) :
    Simulates ctx (result >>= fun found => .ok (answer found.2,{ ctx with cur := found.1 }))
      (enter trail (below.typed type) answered) := by
  cases found : below.typed type with
  | none =>
    rw [found] at reaches
    change result = _ at reaches
    rw [reaches]
    exact Or.inr ⟨rfl,rfl,follows⟩
  | some pair =>
    rw [found] at reaches
    obtain ⟨i,p,parent,reached,placed,stands⟩ := reaches
    rw [reached]
    refine Or.inl ⟨i,?_,placed.stands stands⟩
    rw [except_ok_bind]
    simp only [agree]
    rfl

theorem simulates_ask {α : Type} {result : Except Failure (Nat × Token)} {below : Below}
    {type : TokenType} (follows : Follows ctx trail)
    (reaches : Reaches ctx.js ctx.tokens result (below.typed type))
    (convert : Token → Except Failure α) (wrap : α → Answer) (answer : Value → Option Answer)
    (agree : ∀ {value index pos parent}, Placed ctx.js ctx.tokens (.value value) index pos parent →
      value.type = type → (convert (value.token pos parent)).map wrap = orFail (answer value)) :
    Simulates ctx (read ctx wrap (result >>= fun found => convert found.2))
      (ask trail (below.typed type) answer) := by
  cases found : below.typed type with
  | none =>
    rw [found] at reaches
    change result = _ at reaches
    rw [reaches]
    exact Or.inr ⟨rfl,rfl,follows⟩
  | some pair =>
    have typed := Below.typed_type found
    rw [found] at reaches
    obtain ⟨i,p,parent,reached,placed,stands⟩ := reaches
    have agreed := agree placed typed
    rw [reached,except_ok_bind,ask,Option.bind_some]
    change Simulates ctx (read ctx wrap (convert (pair.1.token p parent))) _
    cases converted : convert (pair.1.token p parent) with
    | error e =>
      rw [converted] at agreed
      cases meant : answer pair.1 with
      | none =>
        rw [meant] at agreed
        cases agreed
        exact Or.inr ⟨rfl,rfl,follows⟩
      | some val =>
        rw [meant] at agreed
        cases agreed
    | ok a =>
      rw [converted] at agreed
      cases meant : answer pair.1 with
      | none =>
        rw [meant] at agreed
        cases agreed
      | some val =>
        rw [meant] at agreed
        cases agreed
        exact Or.inl ⟨ctx.cur,rfl,follows⟩

/-- One step up the tree is one step up the parents. -/
theorem leave_follows (follows : Follows ctx trail) :
    ∃ cur, leave ctx = .ok (trail.leave.1,{ ctx with cur := cur }) ∧
      Follows { ctx with cur := cur } trail.leave.2 := by
  obtain ⟨i,pos,parent,here,placed,stands⟩ := id follows
  have same : ctx.cur = i := Int.ofNat.inj here
  obtain ⟨token,read,own⟩ : ∃ token, tokenOf ctx.tokens ctx.cur = .ok token ∧
      token.parent = parent := by
    rw [same]
    obtain ⟨node,nodes⟩ := trail
    cases node with
    | value value => exact ⟨_,placed.token,rfl⟩
    | name key value => exact ⟨_,placed.key,rfl⟩
  rw [leave,read,except_ok_bind,own,Trail.leave]
  obtain ⟨node,nodes⟩ := trail
  cases nodes with
  | nil =>
    change parent = -1 at stands
    rw [if_pos (by omega)]
    exact ⟨ctx.cur,rfl,follows⟩
  | cons next nodes =>
    obtain ⟨k,p,grand,place,above⟩ := id stands
    rw [if_neg (by omega)]
    refine ⟨parent.toNat,rfl,?_⟩
    rw [place,Int.toNat_natCast]
    rw [place] at stands
    exact stands

theorem leaveKey_follows (follows : Follows ctx trail) :
    ∃ cur, leaveKey ctx = .ok (trail.leaveKey.1,{ ctx with cur := cur }) ∧
      Follows { ctx with cur := cur } trail.leaveKey.2 := by
  obtain ⟨cur,first,stands⟩ := leave_follows follows
  rw [leaveKey,first,except_ok_bind,Trail.leaveKey]
  by_cases stays : trail.leave.1 = false
  · simp only [stays,if_true]
    exact ⟨cur,rfl,stands⟩
  · simp only [stays]
    exact leave_follows stands

theorem simulates_up {result : Except Failure (Bool × Ctx)} {meaning : Bool × Trail}
    (goes : ∃ cur, result = .ok (meaning.1,{ ctx with cur := cur }) ∧
      Follows { ctx with cur := cur } meaning.2) : Simulates ctx (left result) (up meaning) := by
  obtain ⟨cur,rfl,follows⟩ := goes
  exact Or.inl ⟨cur,rfl,follows⟩

theorem simulates_obj_ask {α : Type} (follows : Follows ctx trail) (name : Str) (type : TokenType)
    (convert : Token → Except Failure α) (wrap : α → Answer) (answer : Value → Option Answer)
    (agree : ∀ {value index pos parent}, Placed ctx.js ctx.tokens (.value value) index pos parent →
      value.type = type → (convert (value.token pos parent)).map wrap = orFail (answer value)) :
    Simulates ctx (read ctx wrap (objGetVal ctx name type >>= fun found => convert found.2))
      (ask trail ((trail.member name).typed type) answer) :=
  simulates_ask follows (objGetVal_reaches follows name type) convert wrap answer agree

theorem simulates_arr_ask {α : Type} (follows : Follows ctx trail) (index : UInt32)
    (type : TokenType) (convert : Token → Except Failure α) (wrap : α → Answer)
    (answer : Value → Option Answer)
    (agree : ∀ {value index pos parent}, Placed ctx.js ctx.tokens (.value value) index pos parent →
      value.type = type → (convert (value.token pos parent)).map wrap = orFail (answer value)) :
    Simulates ctx (read ctx wrap (arrGetVal ctx index type >>= fun found => convert found.2))
      (ask trail ((trail.element index.toNat).typed type) answer) :=
  simulates_ask follows (arrGetVal_reaches follows index type) convert wrap answer agree

theorem Placed.int {value : Value} (placed : Placed js tokens (.value value) index pos parent)
    (primitive : value.type = .primitive) : (tokToInt js (value.token pos parent)).map Answer.int =
      orFail ((integerOf 32 value).map fun n => Answer.int n.toUInt32) := by
  rw [tokToInt,placed.unsigned primitive]
  cases integerOf 32 value <;> rfl

theorem Placed.int64 {value : Value} (placed : Placed js tokens (.value value) index pos parent)
    (primitive : value.type = .primitive) :
    (tokToInt64 js (value.token pos parent)).map Answer.int64 =
      orFail ((integerOf 64 value).map fun n => Answer.int64 n.toUInt64) := by
  rw [tokToInt64,placed.unsigned primitive]
  cases integerOf 64 value <;> rfl

theorem length_measured (value : Value) :
    (Except.ok ((value.token pos parent).stop - (value.token pos parent).start) :
      Except Failure Int).map Answer.length = orFail (measured value) := by
  rw [token_length]
  rfl

/-- Every call does what it means on the tree. -/
theorem call_simulated (follows : Follows ctx trail) (call : Call) :
    Simulates ctx (call.result ctx) (call.meaning trail) := by
  cases call with
  | objGetArray name =>
    rw [Call.result,objGetArray,map_bind]
    exact simulates_enter follows (objGetVal_reaches follows name .array)
      (fun token => .count token.size) _ (fun _ _ _ => rfl)
  | objLeaveArray => exact simulates_up (leaveKey_follows follows)
  | objGetObject name =>
    rw [Call.result,objGetObject,moved,map_bind]
    exact simulates_enter follows (objGetVal_reaches follows name .object) (fun _ => .done) _
      (fun _ _ _ => rfl)
  | objLeaveObject => exact simulates_up (leaveKey_follows follows)
  | objGetBool name =>
    exact simulates_obj_ask follows name .primitive (tokToBool ctx.js) .truth _
      (fun placed primitive => placed.bool primitive)
  | objGetInt name =>
    exact simulates_obj_ask follows name .primitive (tokToInt ctx.js) .int _
      (fun placed primitive => placed.int primitive)
  | objGetInt64 name =>
    exact simulates_obj_ask follows name .primitive (tokToInt64 ctx.js) .int64 _
      (fun placed primitive => placed.int64 primitive)
  | objGetFloat name =>
    exact simulates_obj_ask follows name .primitive (tokToFloat ctx.js) .float _
      (fun placed primitive => placed.float primitive)
  | objGetString name size =>
    rw [Call.result,JsonParser.objGetString,objGetValTok_val,bind_assoc]
    exact simulates_obj_ask follows name .string (fun tok => tokToString ctx.js tok size) .text _
      (fun placed _ => placed.string size)
  | objGetStrlen name =>
    rw [Call.result,JsonParser.objGetStrlen,objGetValTok_val,bind_assoc]
    exact simulates_obj_ask follows name .string (fun tok => .ok (tok.stop - tok.start)) .length _
      (fun _ _ => length_measured _)
  | objGetObjectStr name size =>
    exact simulates_obj_ask follows name .object (fun tok => tokToString ctx.js tok size) .text _
      (fun placed _ => placed.string size)
  | objGetObjectStrlen name =>
    exact simulates_obj_ask follows name .object (fun tok => .ok (tok.stop - tok.start)) .length _
      (fun _ _ => length_measured _)
  | objGetArrayStr name size =>
    exact simulates_obj_ask follows name .array (fun tok => tokToString ctx.js tok size) .text _
      (fun placed _ => placed.string size)
  | objGetArrayStrlen name =>
    exact simulates_obj_ask follows name .array (fun tok => .ok (tok.stop - tok.start)) .length _
      (fun _ _ => length_measured _)
  | arrGetArray index =>
    rw [Call.result,arrGetArray,moved,map_bind]
    exact simulates_enter follows (arrGetVal_reaches follows index .array) (fun _ => .done) _
      (fun _ _ _ => rfl)
  | arrLeaveArray => exact simulates_up (leave_follows follows)
  | arrGetObject index =>
    rw [Call.result,arrGetObject,moved,map_bind]
    exact simulates_enter follows (arrGetVal_reaches follows index .object) (fun _ => .done) _
      (fun _ _ _ => rfl)
  | arrLeaveObject => exact simulates_up (leave_follows follows)
  | arrGetBool index =>
    exact simulates_arr_ask follows index .primitive (tokToBool ctx.js) .truth _
      (fun placed primitive => placed.bool primitive)
  | arrGetInt index =>
    exact simulates_arr_ask follows index .primitive (tokToInt ctx.js) .int _
      (fun placed primitive => placed.int primitive)
  | arrGetInt64 index =>
    exact simulates_arr_ask follows index .primitive (tokToInt64 ctx.js) .int64 _
      (fun placed primitive => placed.int64 primitive)
  | arrGetFloat index =>
    exact simulates_arr_ask follows index .primitive (tokToFloat ctx.js) .float _
      (fun placed primitive => placed.float primitive)
  | arrGetString index size =>
    exact simulates_arr_ask follows index .string (fun tok => tokToString ctx.js tok size) .text _
      (fun placed _ => placed.string size)
  | arrGetStrlen index =>
    exact simulates_arr_ask follows index .string (fun tok => .ok (tok.stop - tok.start)) .length _
      (fun _ _ => length_measured _)

theorem call_follows (follows : Follows ctx trail) (call : Call) :
    ∃ cur, call.run ctx = some ((call.meaning trail).1,{ ctx with cur := cur }) ∧
      Follows { ctx with cur := cur } (call.meaning trail).2 := by
  rw [Call.run]
  rcases call_simulated follows call with ⟨cur,done,stands⟩ | ⟨failed,answer,stands⟩
  · rw [done]
    exact ⟨cur,rfl,stands⟩
  · rw [failed,answer]
    exact ⟨ctx.cur,rfl,stands⟩

theorem session_follows (calls : List Call) (follows : Follows ctx trail) :
    ∃ cur, session calls ctx = some ((walk calls trail).1,{ ctx with cur := cur }) ∧
      Follows { ctx with cur := cur } (walk calls trail).2 := by
  induction calls generalizing ctx trail with
  | nil => exact ⟨ctx.cur,rfl,follows⟩
  | cons call calls ih =>
    obtain ⟨cur,ran,stands⟩ := call_follows follows call
    obtain ⟨last,others,there⟩ := ih stands
    refine ⟨last,?_,there⟩
    rw [session,ran]
    simp only [Option.bind_eq_bind,Option.bind_some,others,walk]

theorem document_follows (d : Document) : Follows (documentCtx d) ⟨.value d.root,[]⟩ := by
  refine ⟨0,d.lead.1.length,-1,rfl,⟨⟨[],(List.append_nil _).symm⟩,d.behind.1,?_,Or.inr d.container⟩,
    rfl⟩
  change (d.lead.1 ++ d.root.text ++ d.behind.1).drop d.lead.1.length = _
  rw [List.append_assoc,List.drop_left]
  rfl

/-- Reading a document: whatever is called in whatever order, the answers are those of a walk
in its tree, and the token array is never left. -/
theorem session_document (d : Document) (calls : List Call) :
    ∃ ctx last, parseStart true d.text = .ok ctx ∧
      session calls ctx = some ((walk calls ⟨.value d.root,[]⟩).1,last) := by
  obtain ⟨cur,ran,_⟩ := session_follows calls (document_follows d)
  exact ⟨_,_,parseStart_document d,ran⟩

end Simulation

end QuickConnect.JsonParser
