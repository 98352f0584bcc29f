import QuickConnect.Json.StringBody
import QuickConnect.Json.JsonParser

/-! What stands behind the string tokens of an accepted text: the bytes from the start to
the end of each one are a string body. Every step of the tokenizer moves forward, so that
an accepted text was read to its end. -/
namespace QuickConnect.Jsmn
open Text ScanLoop

def Quoted (js : Str) (token : Token) : Prop :=
  ∃ (start : Nat) (body rest : Str), token.start = start ∧ token.stop = start + body.length ∧
    StringBody body ∧ js.drop start = body ++ rest

/-- Every string token but the one spared is quoted. -/
def SoundBut (js : Str) (spared : Option Nat) (tokens : List Token) : Prop :=
  ∀ i token, tokens[i]? = some token → spared ≠ some i → token.type = .string → Quoted js token

def Sound (js : Str) : List Token → Prop := SoundBut js none

variable {js : Str} {spared : Option Nat} {tokens tokens' : List Token}

theorem Sound.but (sound : Sound js tokens) (spared : Option Nat) : SoundBut js spared tokens :=
  fun i token found _ => sound i token found (by simp)

theorem sound_blank (n : Nat) : Sound js (List.replicate n Token.blank) := by
  intro i token found _ string
  obtain ⟨_,same⟩ := List.getElem?_eq_some_iff.mp found
  rw [List.getElem_replicate] at same
  subst same
  cases string

theorem tokenAt_ok {index : Int} {token : Token} (read : tokenAt tokens index = .ok token) :
    tokens[index.toNat]? = some token := by
  rw [tokenAt] at read
  split at read
  · cases read
  cases found : tokens[index.toNat]? with
  | none =>
    rw [found] at read
    cases read
  | some other =>
    rw [found] at read
    cases read
    rfl

theorem update_ok {index : Int} {change : Token → Token}
    (updated : update tokens index change = .ok tokens') :
    ∃ token, tokenAt tokens index = .ok token ∧
      tokens' = tokens.set index.toNat (change token) := by
  obtain ⟨token,read,set⟩ := except_bind updated
  cases set
  exact ⟨token,read,rfl⟩

theorem SoundBut.set {k : Nat} {token : Token} (sound : SoundBut js spared tokens)
    (quoted : spared ≠ some k → token.type = .string → Quoted js token) :
    SoundBut js spared (tokens.set k token) := by
  intro i other found apart string
  by_cases same : k = i
  · subst same
    rw [List.getElem?_set_self'] at found
    obtain ⟨_,_,rfl⟩ := Option.map_eq_some_iff.mp found
    exact quoted apart string
  · rw [List.getElem?_set_ne same] at found
    exact sound i other found apart string

theorem SoundBut.fill {k : Nat} {token : Token} (sound : SoundBut js (some k) tokens)
    (quoted : token.type = .string → Quoted js token) : Sound js (tokens.set k token) := by
  intro i other found _ string
  by_cases same : k = i
  · subst same
    rw [List.getElem?_set_self'] at found
    obtain ⟨_,_,rfl⟩ := Option.map_eq_some_iff.mp found
    exact quoted string
  · rw [List.getElem?_set_ne same] at found
    exact sound i other found (by simpa using same) string

/-- A change that leaves the type and the span of the token alone. -/
theorem SoundBut.update {index : Int} {change : Token → Token}
    (sound : SoundBut js spared tokens) (updated : Jsmn.update tokens index change = .ok tokens')
    (type : ∀ t, (change t).type = t.type) (start : ∀ t, (change t).start = t.start)
    (stop : ∀ t, (change t).stop = t.stop) : SoundBut js spared tokens' := by
  obtain ⟨token,read,rfl⟩ := update_ok updated
  apply sound.set
  intro apart string
  rw [type] at string
  obtain ⟨place,body,rest,starts,stops,valid,remaining⟩ :=
    sound _ token (tokenAt_ok read) apart string
  exact ⟨place,body,rest,by rw [start,starts],by rw [stop,stops],valid,remaining⟩

theorem allocToken_ok {parser parser' : Parser}
    (allocated : allocToken parser tokens = .ok (parser',tokens')) :
    parser' = { parser with toknext := parser.toknext + 1 } ∧
      ∃ token, tokens' = tokens.set parser.toknext token := by
  rw [allocToken] at allocated
  split at allocated
  · cases allocated
  · cases allocated
    exact ⟨rfl,_,rfl⟩

theorem Sound.alloc {parser parser' : Parser} (sound : Sound js tokens)
    (allocated : allocToken parser tokens = .ok (parser',tokens')) :
    SoundBut js (some parser.toknext) tokens' := by
  obtain ⟨_,token,rfl⟩ := allocToken_ok allocated
  apply (sound.but _).set
  intro apart
  exact absurd rfl apart

theorem newest (k : Nat) : ((k + 1 : Nat) : Int) - 1 = k := by omega

theorem newest_toNat (k : Nat) : (((k + 1 : Nat) : Int) - 1).toNat = k := by
  rw [newest]
  rfl

theorem Sound.addToken {type : TokenType} {start stop : Nat} {parser parser' : Parser}
    (sound : Sound js tokens)
    (added : Jsmn.addToken type start stop parser (some tokens) = .ok (parser',some tokens'))
    (quoted : type = .string → ∀ parent, Quoted js ⟨type,start,stop,0,parent⟩) :
    Sound js tokens' := by
  obtain ⟨⟨middle,between⟩,allocated,rest⟩ := except_bind added
  obtain ⟨last,updated,same⟩ := except_bind rest
  cases same
  have spared := sound.alloc allocated
  obtain ⟨rfl,_⟩ := allocToken_ok allocated
  obtain ⟨token,_,rfl⟩ := update_ok updated
  rw [newest_toNat]
  apply spared.fill
  intro string
  exact quoted string parser.toksuper

def SoundScan (js : Str) (s : Scan) : Prop := ∀ tokens, s.tokens = some tokens → Sound js tokens

variable {s s' : Scan}

theorem link_sound {parser : Parser} {index : Int} (sound : SoundBut js spared tokens)
    (linked : link parser index tokens = .ok tokens') : SoundBut js spared tokens' := by
  rw [link] at linked
  split at linked
  · obtain ⟨super,_,rest⟩ := except_bind linked
    split at rest
    · cases rest
    · obtain ⟨sized,counting,linking⟩ := except_bind rest
      have kept := sound.update counting (fun _ => rfl) (fun _ => rfl) (fun _ => rfl)
      exact kept.update linking (fun _ => rfl) (fun _ => rfl) (fun _ => rfl)
  · cases linked
    exact sound

theorem opening_sound {type : TokenType} (sound : SoundScan js s) (bracket : type ≠ .string)
    (opened : opening type s = .ok s') : SoundScan js s' := by
  rw [opening] at opened
  split at opened
  · rename_i none
    cases opened
    intro tokens same
    exact sound tokens same
  · rename_i tokens stored
    obtain ⟨⟨parser,fresh⟩,allocated,rest⟩ := except_bind opened
    obtain ⟨linked,linking,rest⟩ := except_bind rest
    obtain ⟨last,updated,same⟩ := except_bind rest
    cases same
    have kept := link_sound ((sound tokens stored).alloc allocated) linking
    obtain ⟨rfl,_⟩ := allocToken_ok allocated
    obtain ⟨token,_,rfl⟩ := update_ok updated
    intro tokens same
    cases same
    rw [newest_toNat]
    apply kept.fill
    intro string
    exact absurd string bracket

theorem close_sound {type : TokenType} {pos fuel : Nat} {toksuper toksuper' index : Int}
    (sound : Sound js tokens) (bracket : type ≠ .string)
    (closed : close type pos toksuper tokens fuel index = .ok (toksuper',tokens')) :
    Sound js tokens' := by
  induction fuel generalizing index with
  | zero => cases closed
  | succ fuel ih =>
    obtain ⟨token,read,rest⟩ := except_bind closed
    split at rest
    · split at rest
      · cases rest
      · rename_i same
        obtain ⟨last,updated,done⟩ := except_bind rest
        cases done
        obtain ⟨other,again,rfl⟩ := update_ok updated
        cases read.symm.trans again
        apply sound.set
        intro _ string
        exact absurd (string.symm.trans (not_not.mp same)).symm bracket
    · split at rest
      · split at rest
        · cases rest
        · cases rest
          exact sound
      · exact ih rest

theorem closing_sound {type : TokenType} (sound : SoundScan js s) (bracket : type ≠ .string)
    (closed : closing type s = .ok s') : SoundScan js s' := by
  rw [closing] at closed
  split at closed
  · cases closed
    exact sound
  · rename_i tokens stored
    split at closed
    · cases closed
    · obtain ⟨⟨toksuper,last⟩,ran,done⟩ := except_bind closed
      cases done
      intro tokens same
      cases same
      exact close_sound (sound _ stored) bracket ran

theorem counted_sound {found : Parser × Option (List Token)} {count : Nat}
    (sound : ∀ tokens, found.2 = some tokens → Sound js tokens)
    (done : counted found count = .ok s') : SoundScan js s' := by
  rw [counted] at done
  split at done
  · cases done
    intro tokens same
    cases same
  · rename_i tokens stored
    split at done
    · obtain ⟨last,updated,done⟩ := except_bind done
      cases done
      intro tokens same
      cases same
      exact (sound _ stored).update updated (fun _ => rfl) (fun _ => rfl) (fun _ => rfl)
    · cases done
      intro tokens same
      cases same
      exact sound _ stored

theorem added_sound {type : TokenType} {start stop : Nat} {parser parser' : Parser}
    {found : Option (List Token)} (sound : SoundScan js s)
    (added : addToken type start stop parser s.tokens = .ok (parser',found))
    (quoted : type = .string → ∀ parent, Quoted js ⟨type,start,stop,0,parent⟩) :
    ∀ tokens, found = some tokens → Sound js tokens := by
  rintro tokens rfl
  cases stored : s.tokens with
  | none =>
    rw [stored] at added
    cases added
  | some old =>
    rw [stored] at added
    exact (sound _ stored).addToken added quoted

theorem string_sound (sound : SoundScan js s) (ran : string js s = .ok s') : SoundScan js s' := by
  obtain ⟨found,parsed,done⟩ := except_bind ran
  obtain ⟨stop,ended,rest⟩ := except_bind parsed
  obtain ⟨⟨parser,tokens⟩,added,same⟩ := except_bind rest
  cases same
  apply counted_sound _ done
  apply added_sound sound added
  intro _ parent
  obtain ⟨body,rest,valid,remaining,rfl⟩ := stringEnd_sound ended
  exact ⟨_,body,_,rfl,by push_cast; rfl,valid,remaining⟩

theorem literal_sound (sound : SoundScan js s) (ran : literal js s = .ok s') :
    SoundScan js s' := by
  rw [literal] at ran
  obtain ⟨_,_,rest⟩ := except_bind ran
  obtain ⟨found,parsed,done⟩ := except_bind rest
  obtain ⟨stop,_,rest⟩ := except_bind parsed
  obtain ⟨⟨parser,tokens⟩,added,same⟩ := except_bind rest
  cases same
  apply counted_sound _ done
  apply added_sound sound added
  intro other
  cases other

theorem comma_sound (sound : SoundScan js s) (ran : comma s = .ok s') : SoundScan js s' := by
  rw [comma] at ran
  split at ran
  · cases ran
    exact sound
  · split at ran
    · obtain ⟨super,_,rest⟩ := except_bind ran
      split at rest <;> (cases rest; exact sound)
    · cases ran
      exact sound

theorem label_opening {c : UInt8} {type : TokenType} (same : label c = .opening type) :
    type ≠ .string := by
  rintro rfl
  revert same
  rw [label]
  repeat' split
  all_goals intro same; cases same

theorem label_closing {c : UInt8} {type : TokenType} (same : label c = .closing type) :
    type ≠ .string := by
  rintro rfl
  revert same
  rw [label]
  repeat' split
  all_goals intro same; cases same

theorem switch_sound {c : UInt8} (sound : SoundScan js s)
    (ran : switch js s (label c) = .ok s') : SoundScan js s' := by
  cases same : label c with
  | opening type =>
    rw [same] at ran
    exact opening_sound sound (label_opening same) ran
  | closing type =>
    rw [same] at ran
    exact closing_sound sound (label_closing same) ran
  | quote =>
    rw [same] at ran
    exact string_sound sound ran
  | blank =>
    rw [same] at ran
    cases ran
    exact sound
  | colon =>
    rw [same] at ran
    cases ran
    exact sound
  | comma =>
    rw [same] at ran
    exact comma_sound sound ran
  | literal =>
    rw [same] at ran
    exact literal_sound sound ran
  | unexpected =>
    rw [same] at ran
    cases ran

theorem step_sound (sound : SoundScan js s) (ran : step js s = .ok s') : SoundScan js s' := by
  obtain ⟨after,switched,same⟩ := except_bind ran
  cases same
  have sound' : SoundScan js after := switch_sound sound switched
  intro tokens stored
  exact sound' tokens stored

theorem parse_sound {parser : Parser} {n : Nat}
    (parsed : parse parser js (some (List.replicate n Token.blank)) = .ok s') :
    SoundScan js s' := by
  obtain ⟨last,ran,rest⟩ := except_bind parsed
  have sound : SoundScan js last := by
    apply scan_invariant (fun s next _ ran sound => step_sound sound ran) ran
    intro tokens same
    cases same
    exact sound_blank n
  split at rest
  · cases rest
    exact sound
  · split at rest
    · cases rest
    · cases rest
      exact sound

theorem opening_place {type : TokenType} (opened : opening type s = .ok s') :
    s'.parser.pos = s.parser.pos := by
  rw [opening] at opened
  split at opened
  · cases opened
    rfl
  · obtain ⟨⟨parser,fresh⟩,allocated,rest⟩ := except_bind opened
    obtain ⟨linked,_,rest⟩ := except_bind rest
    obtain ⟨last,_,same⟩ := except_bind rest
    cases same
    obtain ⟨rfl,_⟩ := allocToken_ok allocated
    rfl

theorem closing_place {type : TokenType} (closed : closing type s = .ok s') :
    s'.parser.pos = s.parser.pos := by
  rw [closing] at closed
  split at closed
  · cases closed
    rfl
  · split at closed
    · cases closed
    · obtain ⟨_,_,done⟩ := except_bind closed
      cases done
      rfl

theorem comma_place (ran : comma s = .ok s') : s'.parser.pos = s.parser.pos := by
  rw [comma] at ran
  split at ran
  · cases ran
    rfl
  · split at ran
    · obtain ⟨super,_,rest⟩ := except_bind ran
      split at rest <;> (cases rest; rfl)
    · cases ran
      rfl

theorem counted_place {found : Parser × Option (List Token)} {count : Nat}
    (done : counted found count = .ok s') : s'.parser.pos = found.1.pos := by
  rw [counted] at done
  split at done
  · cases done
    rfl
  · split at done
    · obtain ⟨_,_,done⟩ := except_bind done
      cases done
      rfl
    · cases done
      rfl

theorem string_forward (ran : string js s = .ok s') : s.parser.pos < s'.parser.pos := by
  obtain ⟨found,parsed,done⟩ := except_bind ran
  obtain ⟨stop,ended,rest⟩ := except_bind parsed
  obtain ⟨⟨parser,tokens⟩,_,same⟩ := except_bind rest
  cases same
  obtain ⟨body,_,_,_,rfl⟩ := stringEnd_sound ended
  rw [counted_place done]
  change s.parser.pos < s.parser.pos + 1 + body.length
  omega

theorem primitiveEnd_forward {fuel pos stop : Nat} (ended : primitiveEnd js fuel pos = .ok stop) :
    pos ≤ stop := by
  induction fuel generalizing pos with
  | zero => cases ended
  | succ fuel ih =>
    rw [primitiveEnd] at ended
    split at ended
    · cases ended
    · split at ended
      · cases ended
      · split at ended
        · cases ended
          exact Nat.le_refl _
        · split at ended
          · cases ended
          · exact Nat.le_of_succ_le (ih ended)

theorem label_literal {c : UInt8} (same : label c = .literal) :
    c ∉ [9,13,10,32,44,93,125] := by
  intro inside
  simp only [List.mem_cons,List.not_mem_nil,or_false] at inside
  rcases inside with rfl | rfl | rfl | rfl | rfl | rfl | rfl <;> cases same

/-- The first character of a literal is no end of it. -/
theorem primitiveEnd_literal {fuel pos stop : Nat} {c : UInt8} (found : js[pos]? = some c)
    (same : label c = .literal) (ended : primitiveEnd js fuel pos = .ok stop) : pos < stop := by
  cases fuel with
  | zero => cases ended
  | succ fuel =>
    rw [primitiveEnd,found] at ended
    simp only [if_neg (label_literal same)] at ended
    split at ended
    · cases ended
    · split at ended
      · cases ended
      · exact primitiveEnd_forward ended

theorem literal_forward {c : UInt8} (found : js[s.parser.pos]? = some c)
    (same : label c = .literal) (ran : literal js s = .ok s') :
    s.parser.pos ≤ s'.parser.pos := by
  rw [literal] at ran
  obtain ⟨_,_,rest⟩ := except_bind ran
  obtain ⟨found',parsed,done⟩ := except_bind rest
  obtain ⟨stop,ended,rest⟩ := except_bind parsed
  obtain ⟨⟨parser,tokens⟩,_,last⟩ := except_bind rest
  cases last
  rw [counted_place done]
  exact Nat.le_sub_one_of_lt (primitiveEnd_literal found same ended)

theorem switch_forward {c : UInt8} (found : js[s.parser.pos]? = some c)
    (ran : switch js s (label c) = .ok s') : s.parser.pos ≤ s'.parser.pos := by
  cases same : label c <;> rw [same] at ran
  case opening type => exact Nat.le_of_eq (opening_place ran).symm
  case closing type => exact Nat.le_of_eq (closing_place ran).symm
  case quote => exact Nat.le_of_lt (string_forward ran)
  case blank =>
    cases ran
    exact Nat.le_refl _
  case colon =>
    cases ran
    exact Nat.le_refl _
  case comma => exact Nat.le_of_eq (comma_place ran).symm
  case literal => exact literal_forward found same ran
  case unexpected => cases ran

theorem more_inside (going : more js s = true) : s.parser.pos < js.length := by
  rw [more] at going
  cases found : js[s.parser.pos]? with
  | none =>
    rw [found] at going
    cases going
  | some c => exact (List.getElem?_eq_some_iff.mp found).1

theorem step_forward (going : more js s = true) (ran : step js s = .ok s') :
    s.parser.pos < s'.parser.pos := by
  obtain ⟨after,switched,same⟩ := except_bind ran
  cases same
  have found := List.getElem?_eq_getElem (more_inside going)
  rw [found] at switched
  exact Nat.lt_succ_of_le (switch_forward found switched)

/-- An accepted text was read up to its end or its terminator. -/
theorem parse_ended {parser : Parser} {tokens : Option (List Token)}
    (parsed : parse parser js tokens = .ok s') : more js s' = false := by
  obtain ⟨last,ran,rest⟩ := except_bind parsed
  have ended := scan_ended (fun s => s.parser.pos) (fun _ => more_inside)
    (fun _ _ => step_forward) ran (Nat.le_add_left _ _)
  split at rest
  · cases rest
    exact ended
  · split at rest
    · cases rest
    · cases rest
      exact ended

end QuickConnect.Jsmn

namespace QuickConnect.JsonParser
open Jsmn ScanLoop

theorem jsmnParse_ok {js : Str} {tokens : Option (List Token)} {last : Scan}
    (parsed : jsmnParse js tokens = .ok last) : parse init js tokens = .ok last := by
  rw [jsmnParse] at parsed
  split at parsed
  · cases parsed
  · rename_i same
    split at parsed
    · cases parsed
    · cases parsed
      exact same

theorem parseStart_sound {allocated : Bool} {js : Str} {ctx : Ctx}
    (started : parseStart allocated js = .ok ctx) : ctx.js = js ∧ Sound js ctx.tokens := by
  obtain ⟨counted,_,rest⟩ := except_bind started
  split at rest
  · cases rest
  · obtain ⟨last,parsed,same⟩ := except_bind rest
    cases same
    refine ⟨rfl,?_⟩
    have sound := parse_sound (jsmnParse_ok parsed)
    cases stored : last.tokens with
    | none => exact sound_blank 0
    | some tokens => exact sound tokens stored

theorem objGetValTok_quoted {allocated : Bool} {js : Str} {ctx : Ctx} {name : Str} {token : Token}
    (started : parseStart allocated js = .ok ctx)
    (found : objGetValTok ctx name .string = .ok token) : ctx.js = js ∧ Quoted js token := by
  obtain ⟨same,sound⟩ := parseStart_sound started
  obtain ⟨index,_,rest⟩ := except_bind found
  obtain ⟨other,inside,rest⟩ := except_bind rest
  split at rest
  · cases rest
  rename_i string
  cases rest
  rw [tokenOf] at inside
  split at inside
  · cases inside
  rename_i stored
  cases inside
  exact ⟨same,sound _ token stored (by simp) (not_not.mp string)⟩

theorem tokToString_quoted {js body rest : Str} {token : Token} {start : Nat}
    (starts : token.start = start) (stops : token.stop = start + body.length)
    (remaining : js.drop start = body ++ rest) (size : Nat) :
    tokToString js token size = if body.length < size then .ok body else .error .fail := by
  have span : ((start : Int) + body.length - start).toNat = body.length := by omega
  rw [tokToString,starts,stops,span,Int.toNat_natCast,remaining,List.take_left]
  by_cases short : body.length < size
  · rw [if_pos short,if_neg (by omega)]
  · rw [if_neg short,if_pos (by omega)]

/-- A string that a lookup in an accepted text returns is a string body and fits the buffer. -/
theorem objGetString_body {allocated : Bool} {js : Str} {ctx : Ctx} {name value : Str} {size : Nat}
    (started : parseStart allocated js = .ok ctx) (got : objGetString ctx name size = .ok value) :
    StringBody value ∧ value.length < size := by
  obtain ⟨token,found,read⟩ := except_bind got
  obtain ⟨same,start,body,tail,starts,stops,valid,remaining⟩ := objGetValTok_quoted started found
  rw [same,tokToString_quoted starts stops remaining] at read
  split at read
  · rename_i short
    cases read
    exact ⟨valid,short⟩
  · cases read

/-- A length that a lookup in an accepted text returns is that of a string body, which is
copied to every buffer with room for its terminator. -/
theorem objGetStrlen_body {allocated : Bool} {js : Str} {ctx : Ctx} {name : Str} {length : Int}
    (started : parseStart allocated js = .ok ctx) (got : objGetStrlen ctx name = .ok length) :
    ∃ body, StringBody body ∧ length = body.length ∧
      ∀ size, body.length < size → objGetString ctx name size = .ok body := by
  obtain ⟨token,found,read⟩ := except_bind got
  obtain ⟨same,start,body,tail,starts,stops,valid,remaining⟩ := objGetValTok_quoted started found
  cases read
  refine ⟨body,valid,by rw [starts,stops]; omega,?_⟩
  intro size short
  rw [objGetString,found,except_ok_bind,same,tokToString_quoted starts stops remaining,
    if_pos short]

end QuickConnect.JsonParser
