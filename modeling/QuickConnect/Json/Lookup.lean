import QuickConnect.Json.FlatObject

/-! Lookups of json_parser.c in an object of string members: the parser accepts the text,
and the lookups are those of the association list of its members. -/
namespace QuickConnect.JsonParser
open Jsmn Text ScanLoop

def objectCtx (m : Member) (ms : List Member) : Ctx := ⟨objectText m ms,objectTokens m ms,0⟩

theorem parseStart_object {m : Member} {ms : List Member} (valid : ∀ x ∈ m :: ms, StringMember x) :
    parseStart true (objectText m ms) = .ok (objectCtx m ms) := by
  have several : 1 + 2 * (m :: ms).length ≠ 0 := by omega
  rw [parseStart,jsmnParse,parse_counting valid]
  simp only [counting,several,if_false]
  change jsmnParse _ _ >>= _ = _
  rw [jsmnParse,parse_building valid]
  simp only [built,several,if_false]
  rfl

/-- The members stand in the text one behind the other, a separator between them. -/
def Spells (js : Str) : Nat → List Member → Prop
  | _, [] => True
  | pos, m :: ms => (∃ rest, js.drop pos = memberText m ++ rest) ∧
      Spells js (pos + (memberText m).length + 1) ms

theorem spells_tail {js : Str} {ms : List Member} : ∀ {pos : Nat}, js.drop pos = tailText ms →
    Spells js (pos + 1) ms := by
  induction ms with
  | nil =>
    intro pos _
    trivial
  | cons m ms ih =>
    intro pos remaining
    rw [tailText,List.cons_append] at remaining
    have member := remaining_next remaining
    exact ⟨⟨_,member⟩,ih (remaining_add member)⟩

theorem spells_object (m : Member) (ms : List Member) : Spells (objectText m ms) 1 (m :: ms) := by
  have start : (objectText m ms).drop 1 = memberText m ++ tailText ms := rfl
  exact ⟨⟨_,start⟩,spells_tail (remaining_add start)⟩

theorem tokenOf_middle (front : List Token) (token : Token) (back : List Token) :
    tokenOf (front ++ token :: back) front.length = .ok token := by
  rw [tokenOf,List.getElem?_append_right (Nat.le_refl _),Nat.sub_self]
  rfl

section Member
variable {js rest : Str} {pos : Nat} {m : Member}

theorem member_name (spelt : js.drop pos = memberText m ++ rest) :
    js.drop (pos + 1) = m.1 ++ quote :: 58 :: quote :: m.2 ++ quote :: rest := by
  have whole : js.drop pos = quote :: (m.1 ++ quote :: 58 :: quote :: m.2 ++ quote :: rest) := by
    rw [spelt,memberText]
    simp
  exact remaining_next whole

theorem member_value (spelt : js.drop pos = memberText m ++ rest) :
    js.drop (pos + m.1.length + 4) = m.2 ++ quote :: rest := by
  have name := member_name spelt
  rw [List.append_assoc] at name
  have behind := remaining_next (remaining_next (remaining_next (remaining_add name)))
  have spot : pos + m.1.length + 4 = pos + 1 + m.1.length + 1 + 1 + 1 := by omega
  rw [spot]
  exact behind

theorem tokenMatchesStr_name (spelt : js.drop pos = memberText m ++ rest) (key : Str) :
    tokenMatchesStr js (nameToken pos m) key = (key == m.1) := by
  have name := member_name spelt
  rw [List.append_assoc] at name
  have span : (nameToken pos m).stop - (nameToken pos m).start = m.1.length := by
    simp only [nameToken]
    omega
  rw [tokenMatchesStr,span]
  change (decide ((js.drop (pos + 1)).take key.length = key) && _) = _
  rw [name]
  by_cases same : key = m.1
  · subst same
    simp
  · have differs : (key == m.1) = false := by simpa using same
    rw [differs]
    by_cases long : (key.length : Int) = m.1.length
    · have long' : key.length = m.1.length := by omega
      rw [long',List.take_left]
      simp [Ne.symm same]
    · simp [long]

end Member

theorem skipElem_member {tokens : List Token} {fuel tok start key : Nat} {m : Member}
    (name : tokenOf tokens tok = .ok (nameToken start m))
    (value : tokenOf tokens (tok + 1) = .ok (valueToken start key m)) :
    skipElem tokens (fuel + 2) tok = .ok (tok + 1) := by
  rw [skipElem,name,except_ok_bind]
  change skipTimes _ 1 tok = _
  rw [skipTimes,skipElem,value]
  rfl

/-- What the search for a key finds: the value of the first member with that name. -/
def Finds (ctx : Ctx) (found : Option Str) (result : Except Failure Nat) : Prop :=
  match found with
  | none => result = .error .fail
  | some v => ∃ index start : Nat, result = .ok index ∧ (∃ rest, ctx.js.drop start = v ++ rest) ∧
      ∃ key, tokenOf ctx.tokens (index + 1) = .ok ⟨.string,start,(start + v.length : Nat),0,key⟩

theorem searchMembers_members (ctx : Ctx) (key : Str) (ms : List Member) :
    ∀ (pos tok : Nat) (front : List Token), Spells ctx.js pos ms → front.length = tok + 1 →
      ctx.tokens = front ++ memberTokens pos front.length ms →
      Finds ctx (ms.lookup key) (searchMembers ctx key ms.length tok) := by
  induction ms with
  | nil =>
    intro pos tok front _ _ _
    rfl
  | cons m ms ih =>
    intro pos tok front spelt length tokens
    obtain ⟨⟨rest,spelt⟩,others⟩ := spelt
    rw [memberTokens] at tokens
    have name : tokenOf ctx.tokens (tok + 1) = .ok (nameToken pos m) := by
      rw [tokens,← length]
      exact tokenOf_middle _ _ _
    have regrouped : ctx.tokens = (front ++ [nameToken pos m]) ++ valueToken pos front.length m ::
        memberTokens (pos + (memberText m).length + 1) (front.length + 2) ms := by
      rw [tokens]
      simp
    have value : tokenOf ctx.tokens (tok + 2) = .ok (valueToken pos front.length m) := by
      rw [regrouped]
      have second := tokenOf_middle (front ++ [nameToken pos m]) (valueToken pos front.length m)
        (memberTokens (pos + (memberText m).length + 1) (front.length + 2) ms)
      rw [List.length_append,List.length_singleton,length] at second
      rw [length]
      exact second
    rw [List.length_cons,searchMembers,name,except_ok_bind,tokenMatchesStr_name spelt,
      List.lookup_cons]
    cases same : key == m.1 with
    | true =>
      refine ⟨tok + 1,pos + m.1.length + 4,rfl,⟨_,member_value spelt⟩,front.length,?_⟩
      rw [value]
      rfl
    | false =>
      obtain ⟨fuel,more⟩ : ∃ fuel, ctx.tokens.length + 1 = fuel + 2 := by
        refine ⟨ctx.tokens.length - 1,?_⟩
        rw [tokens]
        simp only [List.length_append,List.length_cons]
        omega
      change Finds ctx _ (skipElem ctx.tokens (ctx.tokens.length + 1) (tok + 1) >>= _)
      rw [more,skipElem_member name value,except_ok_bind]
      apply ih (pos + (memberText m).length + 1) (tok + 2)
        (front ++ [nameToken pos m,valueToken pos front.length m]) others
      · simp only [List.length_append,List.length_cons,List.length_nil]
        omega
      · rw [tokens]
        simp

theorem objGetValTok_object (m : Member) (ms : List Member) (name : Str) :
    match (m :: ms).lookup name with
    | none => objGetValTok (objectCtx m ms) name .string = .error .fail
    | some v => ∃ start key, (∃ rest, (objectText m ms).drop start = v ++ rest) ∧
        objGetValTok (objectCtx m ms) name .string =
          .ok ⟨.string,(start : Nat),(start + v.length : Nat),0,key⟩ := by
  have search := searchMembers_members (objectCtx m ms) name (m :: ms) 1 0
    [closedObject (objectText m ms).length (m :: ms).length] (spells_object m ms) rfl rfl
  have found : objSearch (objectCtx m ms) name =
      searchMembers (objectCtx m ms) name (m :: ms).length 0 := rfl
  cases listed : (m :: ms).lookup name with
  | none =>
    rw [listed] at search
    change objSearch _ _ >>= _ = _
    rw [found,search]
    rfl
  | some v =>
    rw [listed] at search
    obtain ⟨index,start,result,spelt,key,token⟩ := search
    refine ⟨start,key,spelt,?_⟩
    rw [objGetValTok,found,result,except_ok_bind,token]
    rfl

/-- A lookup in an object of string members is the lookup in the list of its members. -/
theorem objGetString_object (m : Member) (ms : List Member) (name : Str) (size : Nat) :
    objGetString (objectCtx m ms) name size =
      match (m :: ms).lookup name with
      | none => .error .fail
      | some v => if v.length < size then .ok v else .error .fail := by
  have token := objGetValTok_object m ms name
  cases listed : (m :: ms).lookup name with
  | none =>
    rw [listed] at token
    rw [objGetString,token]
    rfl
  | some v =>
    rw [listed] at token
    obtain ⟨start,key,⟨rest,spelt⟩,got⟩ := token
    have span : ((start + v.length : Nat) : Int) - (start : Int) = v.length := by omega
    rw [objGetString,got,except_ok_bind,tokToString]
    simp only [span]
    by_cases fits : v.length < size
    · have enough : ¬((v.length : Int) > size - 1) := by omega
      rw [if_neg enough,if_pos fits,Int.toNat_natCast,Int.toNat_natCast]
      change Except.ok (((objectText m ms).drop start).take v.length) = _
      rw [spelt,List.take_left]
    · have short : (v.length : Int) > size - 1 := by omega
      rw [if_pos short,if_neg fits]

theorem objGetStrlen_object (m : Member) (ms : List Member) (name : Str) :
    objGetStrlen (objectCtx m ms) name =
      match (m :: ms).lookup name with
      | none => .error .fail
      | some v => .ok v.length := by
  have token := objGetValTok_object m ms name
  cases listed : (m :: ms).lookup name with
  | none =>
    rw [listed] at token
    rw [objGetStrlen,token]
    rfl
  | some v =>
    rw [listed] at token
    obtain ⟨start,key,_,got⟩ := token
    have span : ((start + v.length : Nat) : Int) - (start : Int) = v.length := by omega
    rw [objGetStrlen,got,except_ok_bind,span]

end QuickConnect.JsonParser
