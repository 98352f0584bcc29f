import QuickConnect.Json.Spans

/-! The tokenizer stays in its token array, for every text and every array: the tokens it comes
back to are the newest one, its super token and the parents of these. It runs out of tokens
only where the pass that counts them counts more. -/
namespace QuickConnect.Jsmn
open Text ScanLoop QuickConnect.Numbering

/-- Every error of this computation is one of these. -/
def Fails {α : Type} (P : Err → Prop) (x : Except Err α) : Prop := ∀ e, x = .error e → P e

section Fails
variable {α β : Type} {P : Err → Prop}

theorem fails_ok (a : α) : Fails P (.ok a : Except Err α) := fun _ same => by cases same

theorem fails_error {e : Err} (allowed : P e) : Fails P (.error e : Except Err α) := by
  intro e' same
  cases same
  exact allowed

theorem Fails.bind {x : Except Err α} {f : α → Except Err β} (first : Fails P x)
    (rest : ∀ a, x = .ok a → Fails P (f a)) : Fails P (x >>= f) := by
  cases x with
  | error e => exact fails_error (first e rfl)
  | ok a => exact rest a rfl

end Fails

variable {js : Str} {parser : Parser} {tokens tokens' : List Token} {s s' : Scan}
  {P : Err → Prop} {index : Int}

section Access

theorem tokenAt_inside (low : 0 ≤ index) (high : index < tokens.length) :
    ∃ token, tokenAt tokens index = .ok token := by
  obtain ⟨place,rfl⟩ := Int.eq_ofNat_of_zero_le low
  have found := List.getElem?_eq_getElem (Int.ofNat_lt.mp high)
  exact ⟨_,by rw [tokenAt,if_neg (Int.not_lt.mpr low),Int.toNat_natCast,found]⟩

theorem update_inside (low : 0 ≤ index) (high : index < tokens.length) (change : Token → Token) :
    Fails P (update tokens index change) := by
  obtain ⟨token,read⟩ := tokenAt_inside low high
  rw [update,read]
  exact fails_ok _

theorem update_length {change : Token → Token} (updated : update tokens index change = .ok tokens') :
    tokens'.length = tokens.length := by
  obtain ⟨token,_,rfl⟩ := update_ok updated
  exact List.length_set

theorem link_length (linked : link parser index tokens = .ok tokens') :
    tokens'.length = tokens.length := by
  rw [link] at linked
  split at linked
  · obtain ⟨super,_,rest⟩ := except_bind linked
    split at rest
    · cases rest
    · obtain ⟨sized,counted,rest⟩ := except_bind rest
      exact (update_length rest).trans (update_length counted)
  · cases linked
    rfl

/-- The super token stands in the array. -/
theorem Forest.super_inside (forest : Forest parser tokens) (some' : parser.toksuper ≠ -1) :
    0 ≤ parser.toksuper ∧ parser.toksuper < tokens.length := by
  have low := forest.super.low
  have high := forest.super.high
  have filled := forest.filled
  exact ⟨by omega,by omega⟩

theorem allocToken_inside (full : tokens.length ≤ parser.toknext → P .noMem) :
    Fails P (allocToken parser tokens) := by
  rw [allocToken]
  split
  · rename_i none
    exact fails_error (full (List.getElem?_eq_none_iff.mp none))
  · exact fails_ok _

end Access
section Words
variable (part : P .part) (inval : P .inval)
include part inval

theorem primitiveEnd_fails {fuel pos : Nat} : Fails P (primitiveEnd js fuel pos) := by
  induction fuel generalizing pos with
  | zero => exact fails_error part
  | succ fuel ih =>
    rw [primitiveEnd]
    split
    · exact fails_error part
    · split
      · exact fails_error part
      · split
        · exact fails_ok _
        · split
          · exact fails_error inval
          · exact ih

omit part in
theorem hexEnd_fails {i pos : Nat} : Fails P (hexEnd js i pos) := by
  induction i generalizing pos with
  | zero => exact fails_ok _
  | succ i ih =>
    rw [hexEnd]
    split
    · exact fails_ok _
    · split
      · exact fails_ok _
      · split
        · exact ih
        · exact fails_error inval

theorem stringEnd_fails {fuel pos : Nat} : Fails P (stringEnd js fuel pos) := by
  induction fuel generalizing pos with
  | zero => exact fails_error part
  | succ fuel ih =>
    rw [stringEnd]
    split
    · exact fails_error part
    · split
      · exact fails_error part
      · split
        · exact fails_ok _
        · split
          · split
            · exact ih
            · split
              · exact ih
              · split
                · exact (hexEnd_fails inval).bind fun _ _ => ih
                · exact fails_error inval
          · exact ih

end Words
section Steps

theorem addToken_inside (type : TokenType) (start stop : Nat)
    (full : tokens.length ≤ parser.toknext → P .noMem) :
    Fails P (addToken type start stop parser (some tokens)) := by
  rw [addToken]
  refine (allocToken_inside full).bind ?_
  rintro ⟨parser',fresh⟩ allocated
  obtain ⟨room,rfl,_,rfl⟩ := allocToken_eq allocated
  refine Fails.bind (update_inside (by simp only [newest]; omega) ?_ _) fun _ _ => fails_ok _
  rw [List.length_set]
  simp only [newest]
  omega

/-- A token added under the super token is counted there. -/
theorem added_inside {type : TokenType} {start stop count : Nat} (forest : Forest parser tokens)
    {found : Parser × Option (List Token)}
    (added : addToken type start stop parser (some tokens) = .ok found) (pos : Nat) :
    Fails P (counted ({ found.1 with pos := pos },found.2) count) := by
  obtain ⟨room,same,stored⟩ := addToken_eq added
  rw [counted,stored]
  simp only [same]
  split
  · rename_i other
    obtain ⟨low,high⟩ := forest.super_inside other
    refine (update_inside low (by rw [List.length_set]; exact high) _).bind ?_
    exact fun _ _ => fails_ok _
  · exact fails_ok _

theorem string_inside (part : P .part) (inval : P .inval) (stored : s.tokens = some tokens)
    (forest : Forest s.parser tokens) (full : tokens.length ≤ s.parser.toknext → P .noMem) :
    Fails P (string js s) := by
  rw [string,parseString,stored,bind_assoc]
  refine (stringEnd_fails part inval).bind ?_
  intro stop _
  rw [bind_assoc]
  refine (addToken_inside _ _ _ full).bind ?_
  rintro ⟨parser,found⟩ added
  exact added_inside forest added stop

theorem literal_inside (part : P .part) (inval : P .inval) (stored : s.tokens = some tokens)
    (forest : Forest s.parser tokens) (full : tokens.length ≤ s.parser.toknext → P .noMem) :
    Fails P (literal js s) := by
  rw [literal]
  apply Fails.bind
  · rw [literalAllowed,stored]
    simp only
    split
    · rename_i other
      obtain ⟨low,high⟩ := forest.super_inside other
      obtain ⟨super,read⟩ := tokenAt_inside low high
      rw [read,except_ok_bind]
      split
      · exact fails_error inval
      · exact fails_ok _
    · exact fails_ok _
  · intro _ _
    rw [parsePrimitive,stored,bind_assoc]
    refine (primitiveEnd_fails part inval).bind ?_
    intro stop _
    rw [bind_assoc]
    refine (addToken_inside _ _ _ full).bind ?_
    rintro ⟨parser,found⟩ added
    exact added_inside forest added (stop - 1)

theorem comma_inside (stored : s.tokens = some tokens) (forest : Forest s.parser tokens) :
    Fails P (comma s) := by
  rw [comma,stored]
  simp only
  split
  · rename_i other
    obtain ⟨low,high⟩ := forest.super_inside other
    obtain ⟨super,read⟩ := tokenAt_inside low high
    rw [read,except_ok_bind]
    split <;> exact fails_ok _
  · exact fails_ok _

theorem opening_inside {type : TokenType} (inval : P .inval) (stored : s.tokens = some tokens)
    (forest : Forest s.parser tokens) (full : tokens.length ≤ s.parser.toknext → P .noMem) :
    Fails P (opening type s) := by
  rw [opening,stored]
  simp only
  refine (allocToken_inside full).bind ?_
  rintro ⟨parser,fresh⟩ allocated
  obtain ⟨room,rfl,old,rfl⟩ := allocToken_eq allocated
  have length : (tokens.set s.parser.toknext (⟨old,-1,-1,0,-1⟩ : Token)).length = tokens.length :=
    List.length_set
  have newest' : 0 ≤ ((s.parser.toknext + 1 : Nat) : Int) - 1 ∧
      ((s.parser.toknext + 1 : Nat) : Int) - 1 < tokens.length := ⟨by omega,by omega⟩
  rw [← length] at newest'
  apply Fails.bind
  · rw [link]
    split
    · rename_i other
      obtain ⟨low,high⟩ := forest.super_inside other
      rw [← length] at high
      obtain ⟨super,read⟩ := tokenAt_inside low high
      rw [read,except_ok_bind]
      split
      · exact fails_error inval
      · refine (update_inside low high _).bind ?_
        intro sized updated
        rw [← update_length updated] at newest'
        exact update_inside newest'.1 newest'.2 _
    · exact fails_ok _
  · intro linked linking
    rw [← link_length linking] at newest'
    refine (update_inside newest'.1 newest'.2 _).bind ?_
    exact fun _ _ => fails_ok _

/-- The loop of a closing bracket goes up the parents, and there are fewer of them than tokens. -/
theorem close_parents {type : TokenType} {pos : Nat} {toksuper : Int} (inval : P .inval)
    (forest : Forest parser tokens) {fuel index : Nat} (before : index < parser.toknext)
    (enough : index < fuel) : Fails P (close type pos toksuper tokens fuel index) := by
  induction fuel generalizing index with
  | zero => exact absurd enough (Nat.not_lt_zero _)
  | succ fuel ih =>
    have high : (index : Int) < tokens.length := Int.ofNat_lt.mpr (before.trans_le forest.filled)
    obtain ⟨token,read⟩ := tokenAt_inside (Int.natCast_nonneg index) high
    have found := tokenAt_ok read
    rw [Int.toNat_natCast] at found
    have link := forest.numbered index before
    rw [parentAt_found found] at link
    rw [close,read,except_ok_bind]
    split
    · split
      · exact fails_error inval
      · refine (update_inside (Int.natCast_nonneg index) high _).bind ?_
        exact fun _ _ => fails_ok _
    · split
      · split
        · exact fails_error inval
        · exact fails_ok _
      · rename_i other
        have low := link.low
        have upper := link.high
        obtain ⟨place,same⟩ := Int.eq_ofNat_of_zero_le (show 0 ≤ token.parent by omega)
        rw [same] at upper ⊢
        exact ih (by omega) (by omega)

theorem closing_inside {type : TokenType} (inval : P .inval) (stored : s.tokens = some tokens)
    (forest : Forest s.parser tokens) : Fails P (closing type s) := by
  rw [closing,stored]
  simp only
  split
  · exact fails_error inval
  · rename_i some'
    obtain ⟨last,same⟩ := Nat.exists_eq_succ_of_ne_zero (show s.parser.toknext ≠ 0 by omega)
    have filled := forest.filled
    rw [same,newest]
    refine (close_parents inval forest (by omega) (by omega)).bind ?_
    exact fun _ _ => fails_ok _

def Label.adds : Label → Bool
  | .opening _ => true
  | .quote => true
  | .literal => true
  | _ => false

/-- A step fails because of the text, or because it needs a token and there is none left. -/
theorem step_inside (part : P .part) (inval : P .inval) (stored : s.tokens = some tokens)
    (forest : Forest s.parser tokens)
    (full : (label (js[s.parser.pos]?.getD 0)).adds = true → tokens.length ≤ s.parser.toknext →
      P .noMem) : Fails P (step js s) := by
  rw [step]
  apply Fails.bind
  · cases found : label (js[s.parser.pos]?.getD 0) with
    | opening type => exact opening_inside inval stored forest (full (by rw [found]; rfl))
    | closing type => exact closing_inside inval stored forest
    | quote => exact string_inside part inval stored forest (full (by rw [found]; rfl))
    | blank => exact fails_ok _
    | colon => exact fails_ok _
    | comma => exact comma_inside stored forest
    | literal => exact literal_inside part inval stored forest (full (by rw [found]; rfl))
    | unexpected => exact fails_error inval
  · exact fun _ _ => fails_ok _

/-- The pass that only counts fails because of the text. -/
theorem step_bare_inside (part : P .part) (inval : P .inval) (bare : s.tokens = none) :
    Fails P (step js s) := by
  rw [step]
  apply Fails.bind
  · cases label (js[s.parser.pos]?.getD 0) with
    | opening type =>
      rw [switch,opening,bare]
      exact fails_ok _
    | closing type =>
      rw [switch,closing,bare]
      exact fails_ok _
    | quote =>
      rw [switch,string,parseString,bare,bind_assoc]
      exact (stringEnd_fails part inval).bind fun _ _ => fails_ok _
    | blank => exact fails_ok _
    | colon => exact fails_ok _
    | comma =>
      rw [switch,comma,bare]
      exact fails_ok _
    | literal =>
      rw [switch,literal,literalAllowed,bare]
      simp only [except_ok_bind]
      rw [parsePrimitive,bind_assoc]
      exact (primitiveEnd_fails part inval).bind fun _ _ => fails_ok _
    | unexpected => exact fails_error inval
  · exact fun _ _ => fails_ok _

/-- The pass that only counts makes the same choice as the other one. -/
theorem step_bare_count (bare : s.tokens = none) (ran : step js s = .ok s') : s'.tokens = none ∧
    s'.count = s.count + (label (js[s.parser.pos]?.getD 0)).adds.toNat := by
  obtain ⟨after,switched,same⟩ := except_bind ran
  cases same
  cases found : label (js[s.parser.pos]?.getD 0) with
  | opening type =>
    rw [found,switch,opening] at switched
    simp only [bare] at switched
    cases switched
    exact ⟨rfl,rfl⟩
  | closing type =>
    rw [found,switch,closing,bare] at switched
    cases switched
    exact ⟨bare,rfl⟩
  | quote =>
    rw [found,switch,string,parseString,bare] at switched
    obtain ⟨_,parsed,done⟩ := except_bind switched
    obtain ⟨stop,_,rest⟩ := except_bind parsed
    cases rest
    cases done
    exact ⟨rfl,rfl⟩
  | blank =>
    rw [found] at switched
    cases switched
    exact ⟨bare,rfl⟩
  | colon =>
    rw [found] at switched
    cases switched
    exact ⟨bare,rfl⟩
  | comma =>
    rw [found,switch,comma,bare] at switched
    cases switched
    exact ⟨bare,rfl⟩
  | literal =>
    rw [found,switch,literal,parsePrimitive,bare] at switched
    obtain ⟨_,_,rest⟩ := except_bind switched
    obtain ⟨_,parsed,done⟩ := except_bind rest
    obtain ⟨stop,_,rest⟩ := except_bind parsed
    cases rest
    cases done
    exact ⟨rfl,rfl⟩
  | unexpected =>
    rw [found] at switched
    cases switched

end Steps
section Passes

theorem scan_bare_count {fuel : Nat} (bare : s.tokens = none)
    (ran : scan (more js) (step js) fuel s = .ok s') : s'.tokens = none ∧ s.count ≤ s'.count := by
  have kept : ∀ u next, more js u = true → step js u = .ok next →
      (u.tokens = none ∧ s.count ≤ u.count) → next.tokens = none ∧ s.count ≤ next.count := by
    rintro u next _ stepped ⟨none,least⟩
    obtain ⟨none',count⟩ := step_bare_count none stepped
    exact ⟨none',by omega⟩
  have done := scan_invariant kept ran
  exact done ⟨bare,Nat.le_refl _⟩

/-- Whatever the array is, the pass that fills it fails because of the text, or because it comes
to a token behind the last one. -/
theorem parse_fails {e : Err} (tokens : List Token) (failed : parse init js (some tokens) = .error e) :
    e ≠ .outside ∧ (e = .noMem → ∀ counted, parse init js none = .ok counted →
      tokens.length < counted.count) := by
  rw [parse] at failed
  cases ran : scan (more js) (step js) js.length ⟨init,some tokens,init.toknext⟩ with
  | ok last =>
    rw [ran,except_ok_bind] at failed
    split at failed
    · cases failed
    · split at failed
      · cases failed
        exact ⟨(fun same => by cases same),(fun same => by cases same)⟩
      · cases failed
  | error e' =>
    rw [ran] at failed
    cases failed
    have counts : CountsWith tokens.length ⟨init,some tokens,0⟩ ⟨init,none,0⟩ :=
      ⟨⟨rfl,_,rfl,rfl,forest_init _⟩,rfl,rfl,rfl⟩
    obtain ⟨s,u,left,⟨⟨counted,array,stored,length,forest⟩,bare,place,same⟩,going,wrong,reached⟩ :=
      scan_fails (fun _ _ related => more_same related)
        (fun _ _ _ ran related => step_counts ran related) ran counts
    have cause : e ≠ .outside ∧ (e = .noMem →
        (label (js[s.parser.pos]?.getD 0)).adds = true ∧ tokens.length ≤ s.parser.toknext) := by
      apply step_inside ⟨(fun same => by cases same),(fun same => by cases same)⟩
        ⟨(fun same => by cases same),(fun same => by cases same)⟩ stored forest _ e wrong
      intro adds full
      rw [length] at full
      exact ⟨(fun same => by cases same),fun _ => ⟨adds,full⟩⟩
    refine ⟨cause.1,?_⟩
    intro full last first
    obtain ⟨adds,least⟩ := cause.2 full
    obtain ⟨done,first,rest⟩ := except_bind first
    change scan (more js) (step js) js.length ⟨init,none,0⟩ = .ok done at first
    have going' : more js u = true := (more_same ⟨⟨counted,array,stored,length,forest⟩,bare,place,
      same⟩).trans going
    rw [reached,scan,if_pos going'] at first
    obtain ⟨next,stepped,first⟩ := except_bind first
    obtain ⟨bare',more'⟩ := step_bare_count bare stepped
    obtain ⟨bare'',least'⟩ := scan_bare_count bare' first
    rw [bare''] at rest
    cases rest
    rw [place,adds] at more'
    change _ = _ + 1 at more'
    omega

/-- The pass that counts touches no token. -/
theorem parse_bare_fails {e : Err} (failed : parse init js none = .error e) :
    e = .part ∨ e = .inval := by
  have never : ∀ fuel s, s.tokens = none → Fails (fun e => e = .part ∨ e = .inval)
      (scan (more js) (step js) fuel s) := by
    intro fuel
    induction fuel with
    | zero => exact fun s _ => fails_ok s
    | succ fuel ih =>
      intro s bare
      rw [scan]
      split
      · exact (step_bare_inside (Or.inl rfl) (Or.inr rfl) bare).bind fun next stepped =>
          ih next (step_bare_count bare stepped).1
      · exact fails_ok s
  rw [parse] at failed
  cases ran : scan (more js) (step js) js.length ⟨init,none,init.toknext⟩ with
  | error e' =>
    rw [ran] at failed
    cases failed
    exact never _ _ rfl e ran
  | ok last =>
    obtain ⟨bare,_⟩ := scan_bare_count rfl ran
    rw [ran,except_ok_bind] at failed
    simp only [bare] at failed
    cases failed

/-- Reading a text, whatever it is and whatever the array is, no token outside the array is
touched, and the array is too short only where the pass that counts comes to more tokens. -/
theorem parse_inside (js : Str) (tokens : Option (List Token)) :
    parse init js tokens ≠ .error .outside ∧ (parse init js tokens = .error .noMem →
      ∃ array, tokens = some array ∧ ∀ counted, parse init js none = .ok counted →
        array.length < counted.count) := by
  cases tokens with
  | none =>
    constructor
    · intro failed
      rcases parse_bare_fails failed with same | same <;> cases same
    · intro failed
      rcases parse_bare_fails failed with same | same <;> cases same
  | some array =>
    exact ⟨fun failed => (parse_fails array failed).1 rfl,
      fun failed => ⟨array,rfl,(parse_fails array failed).2 rfl⟩⟩

end Passes

end QuickConnect.Jsmn

namespace QuickConnect.JsonParser
open Jsmn ScanLoop

theorem jsmnParse_fails {js : Str} {e : Failure} {tokens : Option (List Token)}
    (failed : jsmnParse js tokens = .error e) : e = .fail := by
  rw [jsmnParse] at failed
  split at failed
  · rename_i e' wrong
    cases failed
    cases e' with
    | noMem => rfl
    | inval => rfl
    | part => rfl
    | outside =>
      cases tokens with
      | none => rcases parse_bare_fails wrong with same | same <;> cases same
      | some array => exact absurd rfl (parse_fails array wrong).1
  · split at failed
    · cases failed
      rfl
    · cases failed

theorem parseStart_fails {allocated : Bool} {js : Str} {e : Failure}
    (failed : parseStart allocated js = .error e) : e = .fail := by
  rw [parseStart] at failed
  cases first : jsmnParse js none with
  | error e' =>
    rw [first] at failed
    cases failed
    exact jsmnParse_fails first
  | ok counted =>
    rw [first,except_ok_bind] at failed
    split at failed
    · cases failed
      rfl
    · cases second : jsmnParse js (some (List.replicate counted.count Token.blank)) with
      | error e' =>
        rw [second] at failed
        cases failed
        exact jsmnParse_fails second
      | ok last =>
        rw [second] at failed
        cases failed

end QuickConnect.JsonParser
