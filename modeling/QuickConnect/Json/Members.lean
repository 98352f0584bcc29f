import QuickConnect.Json.Spans

/-! Lookups in the token array of an accepted text: json_skip_elem ends where a subtree
does, so that json_obj_search meets the children of the first root, one after the other, and
json_obj_get_val_tok takes whatever token is next to the first one of the name. -/
namespace QuickConnect.JsonParser
open Text Jsmn ScanLoop QuickConnect.Numbering

section Skip
variable {parser : Parser} {tokens : List Token} {i : Nat}

theorem tokenOf_inside (inside : i < tokens.length) :
    ∃ token, tokenOf tokens i = .ok token ∧ tokens[i]? = some token := by
  have found := List.getElem?_eq_getElem inside
  exact ⟨_,by rw [tokenOf,found],found⟩

theorem skipTimes_ends {fuel : Nat} (forest : Forest parser tokens)
    (full : parser.toknext = tokens.length)
    (skip : ∀ c, i < c → c < tokens.length → ∃ last, skipElem tokens fuel c = .ok last ∧
      Ends (parentAt tokens) tokens.length c last) :
    ∀ cnt cur, Passed (parentAt tokens) tokens.length i cur →
      cnt = childrenBehind (parentAt tokens) tokens.length i cur →
      ∃ last, skipTimes (skipElem tokens fuel) cnt cur = .ok last ∧
        Ends (parentAt tokens) tokens.length i last := by
  have numbered := full ▸ forest.numbered
  intro cnt
  induction cnt with
  | zero =>
    intro cur passed none
    exact ⟨cur,rfl,passed.ends none.symm⟩
  | succ cnt ih =>
    intro cur passed some'
    obtain ⟨inside,under⟩ := passed.next_child numbered (by omega)
    obtain ⟨next,skipped,ends⟩ := skip (cur + 1) (Nat.lt_succ_of_le passed.start) inside
    have counted := passed.child_count under ends
    obtain ⟨last,ran,done⟩ := ih next (passed.child under ends) (by omega)
    refine ⟨last,?_,done⟩
    rw [skipTimes,skipped,except_ok_bind]
    exact ran

/-- An element is skipped up to the last token of its subtree, inside the array. -/
theorem skipElem_ends (forest : Forest parser tokens) (full : parser.toknext = tokens.length)
    (fuel : Nat) : ∀ i, i < tokens.length → tokens.length < i + fuel →
      ∃ last, skipElem tokens fuel i = .ok last ∧
        Ends (parentAt tokens) tokens.length i last := by
  have numbered := full ▸ forest.numbered
  induction fuel with
  | zero =>
    intro i inside enough
    exact absurd (inside.trans enough) (Nat.lt_irrefl _)
  | succ fuel ih =>
    intro i inside enough
    obtain ⟨token,read,found⟩ := tokenOf_inside inside
    have size := forest.sizes i token (full ▸ inside) found
    rw [full,← childrenBehind_self numbered] at size
    obtain ⟨last,ran,ends⟩ := skipTimes_ends forest full
      (fun c later room => ih c room (by omega)) token.size i (passed_self inside) size
    refine ⟨last,?_,ends⟩
    rw [skipElem,read,except_ok_bind]
    exact ran

end Skip

/-- The first root is an object, and this token in it has the name. -/
structure Named (js : Str) (tokens : List Token) (key : Str) (i : Nat) : Prop where
  object : ∃ root, tokens[0]? = some root ∧ root.type = .object
  child : ∃ token, tokens[i]? = some token ∧ token.parent = 0 ∧
    tokenMatchesStr js token key = true

structure FirstNamed (js : Str) (tokens : List Token) (key : Str) (i : Nat) : Prop where
  named : Named js tokens key i
  first : ∀ j < i, ¬Named js tokens key j

/-- This token comes directly under the one at `r` and has the name. -/
def NamedIn (js : Str) (tokens : List Token) (r : Nat) (key : Str) (i : Nat) : Prop :=
  ∃ token, tokens[i]? = some token ∧ token.parent = r ∧ tokenMatchesStr js token key = true

structure FirstIn (js : Str) (tokens : List Token) (r : Nat) (key : Str) (i : Nat) : Prop where
  named : NamedIn js tokens r key i
  first : ∀ j < i, ¬NamedIn js tokens r key j

section Search
variable {ctx : Ctx} {key : Str}

theorem named_after_root {js : Str} {tokens : List Token} (tokenized : Tokenized js tokens)
    {i : Nat} (named : Named js tokens key i) : 0 < i ∧ i < tokens.length := by
  obtain ⟨parser,full,forest⟩ := tokenized.forest
  obtain ⟨token,found,under,_⟩ := named.child
  have inside := (List.getElem?_eq_some_iff.mp found).1
  have high := (forest.numbered i (full ▸ inside)).high
  rw [parentAt_found found,under] at high
  exact ⟨Int.ofNat_lt.mp high,inside⟩

/-- The loop of json_obj_search takes the first token of the name directly under `r`. -/
theorem searchMembers_in {r : Nat} (tokenized : Tokenized ctx.js ctx.tokens) :
    ∀ size tok, Passed (parentAt ctx.tokens) ctx.tokens.length r tok →
      size = childrenBehind (parentAt ctx.tokens) ctx.tokens.length r tok →
      (∀ j ≤ tok, ¬NamedIn ctx.js ctx.tokens r key j) →
      (searchMembers ctx key size tok = .error .fail ∧ ∀ i, ¬NamedIn ctx.js ctx.tokens r key i) ∨
        ∃ i, searchMembers ctx key size tok = .ok i ∧ FirstIn ctx.js ctx.tokens r key i := by
  obtain ⟨parser,full,forest⟩ := tokenized.forest
  have numbered := full ▸ forest.numbered
  intro size
  induction size with
  | zero =>
    intro tok passed none before
    refine Or.inl ⟨rfl,?_⟩
    intro i named
    obtain ⟨token,found,under,_⟩ := id named
    rcases Nat.lt_or_ge tok i with behind | within
    · apply Nat.count_iff_forall_not.mp none.symm i (List.getElem?_eq_some_iff.mp found).1
      exact ⟨behind,(parentAt_found found).trans under⟩
    · exact before i within named
  | succ size ih =>
    intro tok passed some' before
    obtain ⟨inside,under⟩ := passed.next_child numbered (by omega)
    obtain ⟨token,read,found⟩ := tokenOf_inside inside
    have own : token.parent = r := (parentAt_found found).symm.trans under
    rw [searchMembers,read,except_ok_bind]
    by_cases spelt : tokenMatchesStr ctx.js token key = true
    · refine Or.inr ⟨tok + 1,if_pos spelt,⟨token,found,own,spelt⟩,?_⟩
      intro j earlier
      exact before j (Nat.le_of_lt_succ earlier)
    · rw [if_neg spelt]
      obtain ⟨next,skipped,ends⟩ := skipElem_ends forest full (ctx.tokens.length + 1) (tok + 1)
        inside (by omega)
      rw [skipped,except_ok_bind]
      have counted := passed.child_count under ends
      apply ih next (passed.child under ends) (by omega)
      intro j within named
      obtain ⟨other,there,below,same⟩ := id named
      rcases Nat.lt_trichotomy j (tok + 1) with earlier | rfl | inner
      · exact before j (Nat.le_of_lt_succ earlier) named
      · cases found.symm.trans there
        exact spelt same
      · -- A token inside the element that was skipped comes under that element.
        have deep := ends.passed.below j inner within
        have start := passed.start
        rw [parentAt_found there,below] at deep
        push_cast at deep
        omega

theorem objSearch_in (key : Str) (tokenized : Tokenized ctx.js ctx.tokens) {node : Token}
    (found : ctx.tokens[ctx.cur]? = some node) :
    (objSearch ctx key = .error .fail ∧
      (node.type = .object → ∀ i, ¬NamedIn ctx.js ctx.tokens ctx.cur key i)) ∨
    ∃ i, objSearch ctx key = .ok i ∧ node.type = .object ∧
      FirstIn ctx.js ctx.tokens ctx.cur key i := by
  obtain ⟨parser,full,forest⟩ := tokenized.forest
  have numbered := full ▸ forest.numbered
  have inside := (List.getElem?_eq_some_iff.mp found).1
  have read : tokenOf ctx.tokens ctx.cur = .ok node := by rw [tokenOf,found]
  have size := forest.sizes ctx.cur node (full ▸ inside) found
  rw [full,← childrenBehind_self numbered] at size
  rw [objSearch,read,except_ok_bind]
  by_cases object : node.type = .object
  · have entered : (if node.size = 0 then .error .fail else if node.type ≠ .object then .error .fail
        else searchMembers ctx key node.size ctx.cur) =
        searchMembers ctx key node.size ctx.cur := by
      by_cases empty : node.size = 0
      · rw [if_pos empty,empty]
        rfl
      · rw [if_neg empty,if_neg (not_not.mpr object)]
    have before : ∀ j ≤ ctx.cur, ¬NamedIn ctx.js ctx.tokens ctx.cur key j := by
      rintro j least ⟨token,there,under,_⟩
      have later := (numbered j (List.getElem?_eq_some_iff.mp there).1).high
      rw [parentAt_found there,under] at later
      exact absurd (Int.ofNat_lt.mp later) (Nat.not_lt.mpr least)
    rw [entered]
    rcases searchMembers_in tokenized node.size ctx.cur (passed_self inside) size before with
      ⟨failed,nowhere⟩ | ⟨i,searched,first⟩
    · exact Or.inl ⟨failed,fun _ => nowhere⟩
    · exact Or.inr ⟨i,searched,object,first⟩
  · rw [if_pos object,ite_self]
    exact Or.inl ⟨rfl,fun kind => absurd kind object⟩

theorem objSearch_first (key : Str) (tokenized : Tokenized ctx.js ctx.tokens)
    (start : ctx.cur = 0) :
    (objSearch ctx key = .error .fail ∧ ∀ i, ¬Named ctx.js ctx.tokens key i) ∨
      ∃ i, objSearch ctx key = .ok i ∧ FirstNamed ctx.js ctx.tokens key i := by
  have some' : 0 < ctx.tokens.length := List.length_pos_iff.mpr tokenized.filled
  have found := List.getElem?_eq_getElem some'
  have here : ctx.tokens[ctx.cur]? = some ctx.tokens[0] := by rw [start,found]
  rcases objSearch_in key tokenized here with ⟨failed,nowhere⟩ | ⟨i,searched,object,first⟩
  · rw [start] at nowhere
    refine Or.inl ⟨failed,?_⟩
    intro i named
    obtain ⟨root,there,kind⟩ := named.object
    cases found.symm.trans there
    exact nowhere kind i named.child
  · rw [start] at first
    exact Or.inr ⟨i,searched,⟨⟨_,found,object⟩,first.named⟩,
      fun j earlier named => first.first j earlier named.child⟩

theorem firstNamed_unique {js : Str} {tokens : List Token} {i j : Nat}
    (here : FirstNamed js tokens key i) (there : FirstNamed js tokens key j) : i = j := by
  rcases Nat.lt_trichotomy i j with less | same | more
  · exact absurd here.named (there.first i less)
  · exact same
  · exact absurd there.named (here.first j more)

/-- The first token of the name has no token behind it in the array. -/
def Last (js : Str) (tokens : List Token) (key : Str) : Prop :=
  ∃ i, FirstNamed js tokens key i ∧ tokens.length ≤ i + 1

/-- The token behind the first one of the name is a string with this text. -/
structure Behind (js : Str) (tokens : List Token) (key v : Str) (value : Token) : Prop where
  next : ∃ i, FirstNamed js tokens key i ∧ tokens[i + 1]? = some value
  string : value.type = .string
  spelt : ∃ place, Spelt js value place v

theorem behind_spelt {js : Str} {tokens : List Token} {i : Nat} {value : Token}
    (tokenized : Tokenized js tokens) (first : FirstNamed js tokens key i)
    (found : tokens[i + 1]? = some value) (string : value.type = .string) :
    ∃ v, Behind js tokens key v value := by
  obtain ⟨pos,spans⟩ := tokenized.spans
  obtain ⟨place,v,spelt⟩ := spans.spelt (i + 1) value (List.getElem?_eq_some_iff.mp found).1 found
    string
  exact ⟨v,⟨i,first,found⟩,string,place,spelt⟩

/-- The lookup fails without leaving the array, takes the string behind the first token of the
name, or leaves the array. -/
theorem objGetValTok_cases (key : Str) (tokenized : Tokenized ctx.js ctx.tokens)
    (start : ctx.cur = 0) :
    (objGetValTok ctx key .string = .error .fail ∧ ¬Last ctx.js ctx.tokens key ∧
      ∀ v value, ¬Behind ctx.js ctx.tokens key v value) ∨
    (objGetValTok ctx key .string = .error .outside ∧ Last ctx.js ctx.tokens key) ∨
    ∃ v value, objGetValTok ctx key .string = .ok value ∧
      Behind ctx.js ctx.tokens key v value := by
  rcases objSearch_first key tokenized start with ⟨searched,nowhere⟩ | ⟨i,searched,first⟩
  · refine Or.inl ⟨?_,?_,?_⟩
    · rw [objGetValTok,searched]
      rfl
    · rintro ⟨i,first,_⟩
      exact nowhere i first.named
    · rintro v value ⟨⟨i,first,_⟩,_,_⟩
      exact nowhere i first.named
  · rw [objGetValTok,searched,except_ok_bind]
    cases found : ctx.tokens[i + 1]? with
    | none =>
      rw [tokenOf,found]
      exact Or.inr (Or.inl ⟨rfl,i,first,List.getElem?_eq_none_iff.mp found⟩)
    | some value =>
      rw [tokenOf,found]
      simp only [except_ok_bind]
      by_cases string : value.type = .string
      · obtain ⟨v,behind⟩ := behind_spelt tokenized first found string
        rw [if_neg (not_not.mpr string)]
        exact Or.inr (Or.inr ⟨v,value,rfl,behind⟩)
      · rw [if_pos string]
        refine Or.inl ⟨rfl,?_,?_⟩
        · rintro ⟨j,other,past⟩
          rw [firstNamed_unique other first] at past
          exact absurd (List.getElem?_eq_some_iff.mp found).1 (Nat.not_lt.mpr past)
        · rintro v value' ⟨⟨j,other,there⟩,kind,_⟩
          rw [firstNamed_unique other first,found] at there
          cases there
          exact string kind

/-- A string behind the first token of the name that is short enough for a buffer, if there is
a limit. -/
def Taken (js : Str) (tokens : List Token) (key : Str) (size : Option Nat) (v : Str) : Prop :=
  (∃ value, Behind js tokens key v value) ∧ ∀ n ∈ size, v.length < n

theorem spelt_unique {js v v' : Str} {value : Token} {place place' : Nat}
    (here : Spelt js value place v) (there : Spelt js value place' v') : v = v' := by
  obtain ⟨start,stop,_,rest,text⟩ := here
  obtain ⟨start',stop',_,rest',text'⟩ := there
  have same : place = place' := by omega
  subst same
  have length : v.length = v'.length := by omega
  have whole := (List.cons.inj (text.symm.trans text')).2
  exact (List.append_inj whole length).1

theorem behind_unique {js v v' : Str} {tokens : List Token} {value value' : Token}
    (here : Behind js tokens key v value) (there : Behind js tokens key v' value') :
    value = value' ∧ v = v' := by
  obtain ⟨⟨i,first,found⟩,_,place,spelt⟩ := here
  obtain ⟨⟨j,first',found'⟩,_,place',spelt'⟩ := there
  rw [firstNamed_unique first first',found'] at found
  cases found
  exact ⟨rfl,spelt_unique spelt spelt'⟩

theorem behind_not_last {js v : Str} {tokens : List Token} {value : Token}
    (behind : Behind js tokens key v value) : ¬Last js tokens key := by
  rintro ⟨j,other,past⟩
  obtain ⟨⟨i,first,found⟩,_,_⟩ := behind
  rw [firstNamed_unique other first] at past
  exact absurd (List.getElem?_eq_some_iff.mp found).1 (Nat.not_lt.mpr past)

theorem tokToString_spelt {js v : Str} {value : Token} {place : Nat}
    (spelt : Spelt js value place v) (size : Nat) :
    tokToString js value size = if v.length < size then .ok v else .error .fail := by
  obtain ⟨start,stop,_,rest,text⟩ := spelt
  apply tokToString_quoted start
  · rw [stop]
    push_cast
    rfl
  · exact remaining_next text

variable (tokenized : Tokenized ctx.js ctx.tokens) (start : ctx.cur = 0)
include tokenized start

theorem objGetString_taken {size : Nat} {v : Str} :
    objGetString ctx key size = .ok v ↔ Taken ctx.js ctx.tokens key (some size) v := by
  rcases objGetValTok_cases key tokenized start with
    ⟨got,_,nothing⟩ | ⟨got,last⟩ | ⟨w,value,got,behind⟩
  · rw [objGetString,got]
    refine iff_of_false (fun same => by cases same) ?_
    rintro ⟨⟨value,behind⟩,_⟩
    exact nothing v value behind
  · rw [objGetString,got]
    refine iff_of_false (fun same => by cases same) ?_
    rintro ⟨⟨value,behind⟩,_⟩
    exact behind_not_last behind last
  · obtain ⟨place,spelt⟩ := behind.spelt
    rw [objGetString,got,except_ok_bind,tokToString_spelt spelt]
    constructor
    · intro same
      split at same
      · rename_i short
        cases same
        refine ⟨⟨value,behind⟩,?_⟩
        intro n limit
        cases limit
        exact short
      · cases same
    · rintro ⟨⟨value',other⟩,short⟩
      obtain ⟨_,rfl⟩ := behind_unique behind other
      rw [if_pos (short size rfl)]

theorem objGetString_outside (size : Nat) :
    objGetString ctx key size = .error .outside ↔ Last ctx.js ctx.tokens key := by
  rcases objGetValTok_cases key tokenized start with
    ⟨got,inside,_⟩ | ⟨got,last⟩ | ⟨w,value,got,behind⟩
  · rw [objGetString,got]
    exact iff_of_false (fun same => by cases same) inside
  · rw [objGetString,got]
    exact iff_of_true rfl last
  · obtain ⟨place,spelt⟩ := behind.spelt
    rw [objGetString,got,except_ok_bind,tokToString_spelt spelt]
    refine iff_of_false ?_ (behind_not_last behind)
    intro same
    split at same <;> cases same

theorem objGetStrlen_taken {length : Int} :
    objGetStrlen ctx key = .ok length ↔
      ∃ v, Taken ctx.js ctx.tokens key none v ∧ length = v.length := by
  rcases objGetValTok_cases key tokenized start with
    ⟨got,_,nothing⟩ | ⟨got,last⟩ | ⟨w,value,got,behind⟩
  · rw [objGetStrlen,got]
    refine iff_of_false (fun same => by cases same) ?_
    rintro ⟨v,⟨⟨value,behind⟩,_⟩,_⟩
    exact nothing v value behind
  · rw [objGetStrlen,got]
    refine iff_of_false (fun same => by cases same) ?_
    rintro ⟨v,⟨⟨value,behind⟩,_⟩,_⟩
    exact behind_not_last behind last
  · obtain ⟨place,first,last,_⟩ := behind.spelt
    have span : value.stop - value.start = w.length := by omega
    rw [objGetStrlen,got,except_ok_bind,span]
    constructor
    · intro same
      cases same
      exact ⟨w,⟨⟨value,behind⟩,fun n none => by cases none⟩,rfl⟩
    · rintro ⟨v,⟨⟨value',other⟩,_⟩,rfl⟩
      obtain ⟨_,rfl⟩ := behind_unique behind other
      rfl

theorem objGetStrlen_outside :
    objGetStrlen ctx key = .error .outside ↔ Last ctx.js ctx.tokens key := by
  rcases objGetValTok_cases key tokenized start with
    ⟨got,inside,_⟩ | ⟨got,last⟩ | ⟨w,value,got,behind⟩
  · rw [objGetStrlen,got]
    exact iff_of_false (fun same => by cases same) inside
  · rw [objGetStrlen,got]
    exact iff_of_true rfl last
  · rw [objGetStrlen,got]
    exact iff_of_false (fun same => by cases same) (behind_not_last behind)

end Search
section Member

/-- A character that a value can begin with. -/
def starts : Label → Bool
  | .opening _ => true
  | .closing _ => false
  | .quote => true
  | .blank => false
  | .colon => false
  | .comma => false
  | .literal => true
  | .unexpected => false

def Blank (s : Str) : Prop := ∀ c ∈ s, label c = .blank

/-- The name is followed by a colon and a value. -/
def Coloned (js : Str) (name : Token) : Prop :=
  ∃ before after c rest, js.drop name.stop.toNat = quote :: (before ++ 58 :: after ++ c :: rest) ∧
    Blank before ∧ Blank after ∧ starts (label c) = true

/-- A member from the closing quote of its name to the closing quote of its string value. -/
def memberEnd (before after v : Str) : Str :=
  quote :: (before ++ 58 :: after ++ quote :: (v ++ [quote]))

/-- The first root is an object, and between its braces there is a member with this name,
a colon and this string. -/
def HasMember (js : Str) (tokens : List Token) (key v : Str) : Prop :=
  ∃ (i : Nat) (name root : Token) (before after rest : Str), Named js tokens key i ∧
    tokens[i]? = some name ∧ tokens[0]? = some root ∧
    js.drop name.stop.toNat = memberEnd before after v ++ rest ∧ Blank before ∧ Blank after ∧
    StringBody v ∧ root.start < name.start ∧
    name.stop + (memberEnd before after v).length < root.stop

/-- The name stands between the braces of the first root. -/
def Within (tokens : List Token) (name : Token) : Prop :=
  ∀ root, tokens[0]? = some root → name.stop < root.stop

theorem split_unique {α : Type} {P : α → Prop} {a b s t : List α} {x y : α}
    (same : a ++ x :: s = b ++ y :: t) (front : ∀ c ∈ a, P c) (front' : ∀ c ∈ b, P c)
    (ends : ¬P x) (ends' : ¬P y) : a = b ∧ x = y ∧ s = t := by
  induction a generalizing b with
  | nil =>
    cases b with
    | nil =>
      obtain ⟨rfl,rfl⟩ := List.cons.inj same
      exact ⟨rfl,rfl,rfl⟩
    | cons d b =>
      obtain ⟨rfl,_⟩ := List.cons.inj same
      exact absurd (front' x List.mem_cons_self) ends
  | cons c a ih =>
    cases b with
    | nil =>
      obtain ⟨rfl,_⟩ := List.cons.inj same
      exact absurd (front c List.mem_cons_self) ends'
    | cons d b =>
      obtain ⟨rfl,rest⟩ := List.cons.inj same
      obtain ⟨rfl,rfl,rfl⟩ := ih rest (fun c inside => front c (List.mem_cons_of_mem _ inside))
        (fun c inside => front' c (List.mem_cons_of_mem _ inside))
      exact ⟨rfl,rfl,rfl⟩

variable {js key v : Str} {tokens : List Token} {i : Nat} {name value root : Token}

/-- A name in an object is a string token. -/
theorem named_string (tokenized : Tokenized js tokens) (named : Named js tokens key i)
    (found : tokens[i]? = some name) : name.type = .string := by
  obtain ⟨parser,full,forest⟩ := tokenized.forest
  obtain ⟨root,first,object⟩ := named.object
  obtain ⟨token,there,under,_⟩ := named.child
  cases found.symm.trans there
  exact forest.keys i name 0 root (full ▸ (List.getElem?_eq_some_iff.mp found).1) found under first
    object

theorem starts_not_between {l : Label} (start : starts l = true) : ¬l.between = true := by
  intro between
  cases l <;> first | exact Bool.noConfusion start | exact Bool.noConfusion between

theorem blank_or_colon {before after : Str} (first : Blank before) (second : Blank after) :
    ∀ c ∈ before ++ 58 :: after, label c = .blank ∨ label c = .colon := by
  intro c inside
  rcases List.mem_append.mp inside with inside | inside
  · exact Or.inl (first c inside)
  · rcases List.mem_cons.mp inside with rfl | inside
    · exact Or.inr rfl
    · exact Or.inl (second c inside)

theorem blank_colon_between {before after : Str} (first : Blank before) (second : Blank after) :
    ∀ c ∈ before ++ 58 :: after, (label c).between = true := by
  intro c inside
  rcases blank_or_colon first second c inside with same | same <;> rw [same] <;> rfl

/-- Where the name is followed by a colon and a value, the token behind it is that value. -/
theorem coloned_value (tokenized : Tokenized js tokens) (named : Named js tokens key i)
    (found : tokens[i]? = some name) (coloned : Coloned js name)
    (behind : tokens[i + 1]? = some value) (string : value.type = .string) {place : Nat}
    (spelt : Spelt js value place v) :
    ∃ (stop : Nat) (before after rest : Str), name.stop = stop ∧
      js.drop stop = memberEnd before after v ++ rest ∧ Blank before ∧ Blank after ∧
      place = stop + 1 + (before ++ 58 :: after).length := by
  obtain ⟨pos,spans⟩ := tokenized.spans
  have kind := named_string tokenized named found
  obtain ⟨start,k,opens⟩ := spans.spelt i name (List.getElem?_eq_some_iff.mp found).1 found kind
  obtain ⟨before,after,c,rest,text,first,second,starting⟩ := coloned
  have gap := spans.gaps i name value (List.getElem?_eq_some_iff.mp behind).1 found behind kind
  have here : value.place = place := by
    rw [Token.place,if_pos string,spelt.start]
    rfl
  rw [here,opens.stop,Int.toNat_natCast] at gap
  rw [opens.stop,Int.toNat_natCast] at text
  obtain ⟨front,remaining,length,between⟩ := gap
  obtain ⟨last,quoted⟩ := spelt.text
  rw [remaining_next text,quoted] at remaining
  have quotes : ¬(label quote).between = true := fun other => Bool.noConfusion other
  obtain ⟨rfl,rfl,rfl⟩ := split_unique (P := fun c => (label c).between = true) remaining
    (blank_colon_between first second) between (starts_not_between starting) quotes
  refine ⟨_,before,after,last,opens.stop,?_,first,second,length⟩
  rw [text,memberEnd]
  simp

/-- A closed object ends with a bracket that stands in none of the strings. -/
theorem root_closed (tokenized : Tokenized js tokens) (first : tokens[0]? = some root)
    (object : root.type = .object) :
    ∃ brace : Nat, root.stop = (brace + 1 : Nat) ∧ ClosedAt js tokens.length tokens brace := by
  obtain ⟨pos,spans⟩ := tokenized.spans
  have some' : 0 < tokens.length := (List.getElem?_eq_some_iff.mp first).1
  have closed : root.stop ≠ -1 := by
    intro opened
    have low := (spans.started 0 root some' first).1
    have isOpen : root.isOpen = true := by
      have started : root.start ≠ -1 := by omega
      rw [Token.isOpen,opened]
      simpa using started
    rw [tokenized.closed 0 root first] at isOpen
    cases isOpen
  obtain ⟨brace,ends,_,outside⟩ := spans.root root some' first object closed
  exact ⟨brace,ends,outside⟩

/-- No bracket is between a name and its value. -/
theorem colon_unclosed {before after rest : Str} {stop j : Nat} {type : TokenType}
    (first : Blank before) (second : Blank after)
    (remaining : js.drop stop = (before ++ 58 :: after) ++ rest)
    (short : j < (before ++ 58 :: after).length) :
    label (js[stop + j]?.getD 0) ≠ .closing type := by
  have here : js[stop + j]? = some (before ++ 58 :: after)[j] := by
    rw [← List.getElem?_drop,remaining,List.getElem?_append_left short,
      List.getElem?_eq_getElem short]
  rw [here,Option.getD_some]
  intro bracket
  rcases blank_or_colon first second _ (List.getElem_mem short) with same | same
  · cases same.symm.trans bracket
  · cases same.symm.trans bracket

/-- The member is whole between the braces, if its name is. -/
theorem coloned_member (tokenized : Tokenized js tokens) (named : Named js tokens key i)
    (found : tokens[i]? = some name) (coloned : Coloned js name) (within : Within tokens name)
    (behind : tokens[i + 1]? = some value) (string : value.type = .string) {place : Nat}
    (spelt : Spelt js value place v) : HasMember js tokens key v := by
  obtain ⟨root,first,object⟩ := named.object
  obtain ⟨stop,before,after,rest,stops,text,blank,blank',starts⟩ :=
    coloned_value tokenized named found coloned behind string spelt
  obtain ⟨brace,ends,⟨type,bracket⟩,apart⟩ := root_closed tokenized first object
  obtain ⟨pos,spans⟩ := tokenized.spans
  have kind := named_string tokenized named found
  have inside := (List.getElem?_eq_some_iff.mp found).1
  have inside' := (List.getElem?_eq_some_iff.mp behind).1
  have before' := within root first
  have order := (spans.ordered 0 i root name (named_after_root tokenized named).1 inside first
    found).1
  refine ⟨i,name,root,before,after,rest,named,found,first,?_,blank,blank',spelt.valid,order,?_⟩
  · rw [stops,Int.toNat_natCast]
    exact text
  have ended : value.stop < brace := by
    rcases apart (i + 1) value inside' behind string with ended | later
    · exact ended
    · -- The brace would be one of the blanks or the colon.
      exfalso
      obtain ⟨place',k,opens⟩ := spans.spelt i name inside found kind
      have start := opens.start
      have past : stop < brace := by
        rcases apart i name inside found kind with early | late
        · omega
        · rw [Token.place,if_pos kind,start] at late
          have length := opens.stop
          omega
      rw [Token.place,if_pos string,spelt.start] at later
      obtain ⟨j,rfl⟩ := Nat.exists_eq_add_of_le (Nat.succ_le_of_lt past)
      have remaining : js.drop (stop + 1) =
          (before ++ 58 :: after) ++ (quote :: (v ++ [quote]) ++ rest) := by
        apply remaining_next (c := quote)
        rw [text,memberEnd]
        simp
      exact colon_unclosed blank blank' remaining (by omega) bracket
  have last := spelt.stop
  rw [stops,ends,memberEnd]
  simp only [List.length_append,List.length_cons,List.length_nil] at starts ⊢
  push_cast at last ⊢
  omega

end Member
end QuickConnect.JsonParser
