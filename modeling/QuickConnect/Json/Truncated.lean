import QuickConnect.Json.Bounds
import QuickConnect.Json.DocumentParse

/-! A text that is cut off: what the tokenizer has read of it, it reads in the same way when the
text goes on, and an array with more room does not change what it writes. -/
namespace QuickConnect.Jsmn
open Text ScanLoop

variable {js p : Str} {parser parser' : Parser} {tokens tokens' : List Token} {s s' : Scan}
  {index : Int}

section Room
variable (extra : List Token)

def Scan.room (s : Scan) : Scan := { s with tokens := s.tokens.map (· ++ extra) }

variable {extra}

theorem tokenAt_room {token : Token} (read : tokenAt tokens index = .ok token) :
    tokenAt (tokens ++ extra) index = .ok token := by
  have found := tokenAt_ok read
  have inside := (List.getElem?_eq_some_iff.mp found).1
  rw [tokenAt,if_neg (Int.not_lt.mpr (tokenAt_nonneg read)),List.getElem?_append_left inside,found]

theorem update_room {change : Token → Token} (updated : update tokens index change = .ok tokens') :
    update (tokens ++ extra) index change = .ok (tokens' ++ extra) := by
  obtain ⟨token,read,rfl⟩ := update_ok updated
  have inside := (List.getElem?_eq_some_iff.mp (tokenAt_ok read)).1
  rw [update,tokenAt_room read,except_ok_bind,List.set_append_left _ _ inside]

theorem allocToken_room (allocated : allocToken parser tokens = .ok (parser',tokens')) :
    allocToken parser (tokens ++ extra) = .ok (parser',tokens' ++ extra) := by
  rw [allocToken] at allocated ⊢
  cases found : tokens[parser.toknext]? with
  | none =>
    rw [found] at allocated
    cases allocated
  | some token =>
    have inside := (List.getElem?_eq_some_iff.mp found).1
    rw [found] at allocated
    cases allocated
    rw [List.getElem?_append_left inside,found]
    simp only [List.set_append_left _ _ inside]

theorem link_room (linked : link parser index tokens = .ok tokens') :
    link parser index (tokens ++ extra) = .ok (tokens' ++ extra) := by
  rw [link] at linked ⊢
  split at linked
  · rename_i other
    obtain ⟨super,read,rest⟩ := except_bind linked
    split at rest
    · cases rest
    · rename_i plain
      obtain ⟨sized,counted,rest⟩ := except_bind rest
      rw [if_pos other,tokenAt_room read,except_ok_bind,if_neg plain,update_room counted,
        except_ok_bind,update_room rest]
  · rename_i root
    cases linked
    rw [if_neg root]

theorem close_room {type : TokenType} {pos fuel fuel' : Nat} {toksuper toksuper' : Int}
    (closed : close type pos toksuper tokens fuel index = .ok (toksuper',tokens'))
    (enough : fuel ≤ fuel') :
    close type pos toksuper (tokens ++ extra) fuel' index = .ok (toksuper',tokens' ++ extra) := by
  induction fuel generalizing fuel' index with
  | zero => cases closed
  | succ fuel ih =>
    obtain ⟨fuel',rfl⟩ := Nat.exists_eq_add_of_le' (Nat.succ_le_iff.mpr (Nat.lt_of_lt_of_le
      (Nat.succ_pos fuel) enough))
    obtain ⟨token,read,rest⟩ := except_bind closed
    rw [close,tokenAt_room read,except_ok_bind]
    split at rest
    · rename_i opened
      split at rest
      · cases rest
      · rename_i same
        obtain ⟨last,updated,done⟩ := except_bind rest
        cases done
        rw [if_pos opened,if_neg same,update_room updated]
        rfl
    · rename_i shut
      split at rest
      · rename_i root
        split at rest
        · cases rest
        · rename_i same
          cases rest
          rw [if_neg shut,if_pos root,if_neg same]
      · rename_i child
        rw [if_neg shut,if_neg child]
        exact ih rest (by omega)

theorem addToken_room {type : TokenType} {start stop : Nat}
    (added : addToken type start stop parser (some tokens) = .ok (parser',some tokens')) :
    addToken type start stop parser (some (tokens ++ extra)) =
      .ok (parser',some (tokens' ++ extra)) := by
  obtain ⟨⟨middle,fresh⟩,allocated,rest⟩ := except_bind added
  obtain ⟨last,updated,same⟩ := except_bind rest
  cases same
  rw [addToken,allocToken_room allocated,except_ok_bind]
  simp only [update_room updated,except_ok_bind]

theorem counted_room {count : Nat} (done : counted (parser,some tokens) count = .ok s') :
    counted (parser,some (tokens ++ extra)) count = .ok (s'.room extra) := by
  rw [counted] at done ⊢
  simp only at done ⊢
  split at done
  · rename_i other
    obtain ⟨last,updated,same⟩ := except_bind done
    cases same
    rw [if_pos other,update_room updated]
    rfl
  · rename_i root
    cases done
    rw [if_neg root]
    rfl

theorem string_room (ran : string js s = .ok s') :
    string js (s.room extra) = .ok (s'.room extra) := by
  obtain ⟨⟨found,array⟩,parsed,done⟩ := except_bind ran
  obtain ⟨stop,ended,rest⟩ := except_bind parsed
  obtain ⟨⟨parser,array'⟩,added,same⟩ := except_bind rest
  cases same
  rw [string,parseString]
  change (stringEnd js js.length (s.parser.pos + 1) >>= _) >>= _ = _
  rw [ended,except_ok_bind]
  cases stored : s.tokens with
  | none =>
    rw [stored] at added
    cases added
    cases done
    rw [Scan.room,stored]
    rfl
  | some tokens =>
    rw [stored] at added
    obtain ⟨_,_,rfl⟩ := addToken_eq added
    rw [Scan.room,stored]
    simp only [Option.map_some,addToken_room added,except_ok_bind]
    exact counted_room done

theorem literal_room (ran : literal js s = .ok s') :
    literal js (s.room extra) = .ok (s'.room extra) := by
  rw [literal] at ran
  obtain ⟨_,allowed,rest⟩ := except_bind ran
  obtain ⟨⟨found,array⟩,parsed,done⟩ := except_bind rest
  obtain ⟨stop,ended,rest⟩ := except_bind parsed
  obtain ⟨⟨parser,array'⟩,added,same⟩ := except_bind rest
  cases same
  have allowed' : literalAllowed (s.room extra) = .ok () := by
    rw [literalAllowed] at allowed ⊢
    cases stored : s.tokens with
    | none =>
      rw [Scan.room,stored]
      rfl
    | some tokens =>
      rw [stored] at allowed
      rw [Scan.room,stored]
      simp only [Option.map_some] at allowed ⊢
      split at allowed
      · rename_i other
        obtain ⟨super,read,rest⟩ := except_bind allowed
        rw [if_pos other,tokenAt_room read,except_ok_bind]
        exact rest
      · rename_i root
        rw [if_neg root]
  rw [literal,allowed',except_ok_bind,parsePrimitive]
  change (primitiveEnd js js.length s.parser.pos >>= _) >>= _ = _
  rw [ended,except_ok_bind]
  cases stored : s.tokens with
  | none =>
    rw [stored] at added
    cases added
    cases done
    rw [Scan.room,stored]
    rfl
  | some tokens =>
    rw [stored] at added
    obtain ⟨_,_,rfl⟩ := addToken_eq added
    rw [Scan.room,stored]
    simp only [Option.map_some,addToken_room added,except_ok_bind]
    exact counted_room done

theorem comma_room (ran : comma s = .ok s') : comma (s.room extra) = .ok (s'.room extra) := by
  rw [comma] at ran ⊢
  cases stored : s.tokens with
  | none =>
    rw [stored] at ran
    cases ran
    rw [Scan.room,stored]
    rfl
  | some tokens =>
    rw [stored] at ran
    simp only [Scan.room,stored,Option.map_some] at ran ⊢
    split at ran
    · rename_i other
      obtain ⟨super,read,rest⟩ := except_bind ran
      rw [if_pos other,tokenAt_room read,except_ok_bind]
      split at rest
      · rename_i kind
        cases rest
        rw [if_pos kind]
        rfl
      · rename_i kind
        cases rest
        rw [if_neg kind,stored]
        rfl
    · rename_i root
      cases ran
      rw [if_neg root,stored]
      rfl

theorem opening_room {type : TokenType} (ran : opening type s = .ok s') :
    opening type (s.room extra) = .ok (s'.room extra) := by
  rw [opening] at ran ⊢
  cases stored : s.tokens with
  | none =>
    rw [stored] at ran
    cases ran
    rw [Scan.room,stored]
    rfl
  | some tokens =>
    rw [stored] at ran
    obtain ⟨⟨parser,fresh⟩,allocated,rest⟩ := except_bind ran
    obtain ⟨linked,linking,rest⟩ := except_bind rest
    obtain ⟨last,updated,same⟩ := except_bind rest
    cases same
    simp only [Scan.room,stored,Option.map_some,allocToken_room allocated,except_ok_bind,
      link_room linking,update_room updated]

theorem closing_room {type : TokenType} (ran : closing type s = .ok s') :
    closing type (s.room extra) = .ok (s'.room extra) := by
  rw [closing] at ran ⊢
  cases stored : s.tokens with
  | none =>
    rw [stored] at ran
    cases ran
    rw [Scan.room,stored]
    rfl
  | some tokens =>
    rw [stored] at ran
    simp only [Scan.room,stored,Option.map_some] at ran ⊢
    split at ran
    · cases ran
    · rename_i some'
      obtain ⟨⟨toksuper,last⟩,closed,done⟩ := except_bind ran
      cases done
      rw [if_neg some',close_room closed (by rw [List.length_append]; omega)]
      rfl

/-- A step is the same in an array with more room. -/
theorem step_room (ran : step js s = .ok s') : step js (s.room extra) = .ok (s'.room extra) := by
  obtain ⟨after,switched,same⟩ := except_bind ran
  cases same
  have switched' : switch js (s.room extra) (label (js[s.parser.pos]?.getD 0)) =
      .ok (after.room extra) := by
    cases found : label (js[s.parser.pos]?.getD 0) <;> rw [found] at switched
    case opening type => exact opening_room switched
    case closing type => exact closing_room switched
    case quote => exact string_room switched
    case blank =>
      cases switched
      rfl
    case colon =>
      cases switched
      rfl
    case comma => exact comma_room switched
    case literal => exact literal_room switched
    case unexpected => cases switched
  rw [step]
  change switch js (s.room extra) (label (js[s.parser.pos]?.getD 0)) >>= _ = _
  rw [switched']
  rfl

variable (extra) in
theorem scan_room {fuel : Nat} (ran : scan (more js) (step js) fuel s = .ok s') :
    scan (more js) (step js) fuel (s.room extra) = .ok (s'.room extra) := by
  obtain ⟨last,followed,rfl⟩ : ∃ last, scan (more js) (step js) fuel (s.room extra) = .ok last ∧
      last = s'.room extra :=
    scan_followed (R := fun s t => t = s.room extra) (fun s t same => by rw [same]; rfl)
      (fun s next t stepped same => ⟨_,by rw [same]; exact step_room stepped,rfl⟩) ran rfl
  exact followed

end Room
section Front
variable (tail : Str) {pos stop : Nat}

theorem primitiveEnd_front {fuel fuel' : Nat} (ended : primitiveEnd p fuel pos = .ok stop)
    (enough : fuel ≤ fuel') : primitiveEnd (p ++ tail) fuel' pos = .ok stop ∧ stop < p.length := by
  induction fuel generalizing fuel' pos with
  | zero => cases ended
  | succ fuel ih =>
    obtain ⟨fuel',rfl⟩ := Nat.exists_eq_add_of_le' (Nat.le_trans (Nat.le_add_left 1 fuel) enough)
    rw [primitiveEnd] at ended ⊢
    cases found : p[pos]? with
    | none =>
      rw [found] at ended
      cases ended
    | some c =>
      have inside := (List.getElem?_eq_some_iff.mp found).1
      rw [found] at ended
      rw [List.getElem?_append_left inside,found]
      simp only at ended ⊢
      by_cases zero : c = 0
      · rw [if_pos zero] at ended
        cases ended
      rw [if_neg zero] at ended ⊢
      by_cases stops : c ∈ [9,13,10,32,44,93,125]
      · rw [if_pos stops] at ended ⊢
        cases ended
        exact ⟨rfl,inside⟩
      rw [if_neg stops] at ended ⊢
      by_cases odd : c < 32 ∨ 127 ≤ c
      · rw [if_pos odd] at ended
        cases ended
      · rw [if_neg odd] at ended ⊢
        exact ih ended (Nat.le_of_add_le_add_right enough)

theorem stringEnd_front {fuel fuel' : Nat} (ended : stringEnd p fuel pos = .ok stop)
    (enough : p.length ≤ fuel') :
    stringEnd (p ++ tail) fuel' pos = .ok stop ∧ stop < p.length := by
  obtain ⟨body,rest,valid,remaining,rfl⟩ := stringEnd_sound ended
  have length := congrArg List.length remaining
  rw [List.length_drop,List.length_append,List.length_cons] at length
  have whole : (p ++ tail).drop pos = body ++ quote :: (rest ++ tail) := by
    rw [List.drop_append_of_le_length (by omega),remaining,List.append_assoc]
    rfl
  exact ⟨stringEnd_body valid whole (by omega),by omega⟩

theorem string_front (ran : string p s = .ok s') :
    string (p ++ tail) s = .ok s' ∧ s'.parser.pos < p.length := by
  rw [string,parseString] at ran ⊢
  obtain ⟨found,parsed,done⟩ := except_bind ran
  obtain ⟨stop,ended,rest⟩ := except_bind parsed
  obtain ⟨ended',inside⟩ := stringEnd_front tail ended
    (show p.length ≤ (p ++ tail).length by rw [List.length_append]; omega)
  rw [ended',except_ok_bind,rest,except_ok_bind]
  obtain ⟨_,_,same⟩ := except_bind rest
  cases same
  exact ⟨done,by rw [counted_place done]; exact inside⟩

theorem literal_front (ran : literal p s = .ok s') :
    literal (p ++ tail) s = .ok s' ∧ s'.parser.pos < p.length := by
  rw [literal] at ran ⊢
  obtain ⟨_,allowed,rest⟩ := except_bind ran
  obtain ⟨found,parsed,done⟩ := except_bind rest
  rw [parsePrimitive] at parsed ⊢
  obtain ⟨stop,ended,rest⟩ := except_bind parsed
  obtain ⟨ended',inside⟩ := primitiveEnd_front tail ended
    (show p.length ≤ (p ++ tail).length by rw [List.length_append]; omega)
  rw [allowed,except_ok_bind,ended',except_ok_bind,rest,except_ok_bind]
  obtain ⟨_,_,same⟩ := except_bind rest
  cases same
  refine ⟨done,?_⟩
  rw [counted_place done]
  change stop - 1 < p.length
  omega

/-- A step inside the front of a text is a step of the whole text. -/
theorem step_front (going : more p s = true) (ran : step p s = .ok s') :
    more (p ++ tail) s = true ∧ step (p ++ tail) s = .ok s' ∧ s'.parser.pos ≤ p.length := by
  have inside := more_inside going
  have same : (p ++ tail)[s.parser.pos]? = p[s.parser.pos]? := List.getElem?_append_left inside
  obtain ⟨after,switched,last⟩ := except_bind ran
  cases last
  have switched' : switch (p ++ tail) s (label (p[s.parser.pos]?.getD 0)) = .ok after ∧
      after.parser.pos < p.length := by
    cases found : label (p[s.parser.pos]?.getD 0) <;> rw [found] at switched
    case opening type => exact ⟨switched,(opening_place switched).trans_lt inside⟩
    case closing type => exact ⟨switched,(closing_place switched).trans_lt inside⟩
    case quote => exact string_front tail switched
    case blank =>
      cases switched
      exact ⟨rfl,inside⟩
    case colon =>
      cases switched
      exact ⟨rfl,inside⟩
    case comma => exact ⟨switched,(comma_place switched).trans_lt inside⟩
    case literal => exact literal_front tail switched
    case unexpected => cases switched
  rw [more,same,step,same,switched'.1]
  exact ⟨going,rfl,switched'.2⟩

end Front
section Root

/-- The first token is closed with this stop. -/
def RootStops (stop : Int) (s : Scan) : Prop :=
  ∃ tokens t, s.tokens = some tokens ∧ Forest s.parser tokens ∧ 0 < s.parser.toknext ∧
    tokens[0]? = some t ∧ t.stop = stop

/-- No token ends behind the place that is reached. -/
def Reached (s : Scan) : Prop :=
  ∃ tokens, s.tokens = some tokens ∧ Forest s.parser tokens ∧ ∀ i token, i < s.parser.toknext →
    tokens[i]? = some token → token.stop ≤ s.parser.pos

theorem Grown.kept {n : Nat} {child t : Token} (grown : Grown tokens tokens' n child) {q : Nat}
    (before : q < n) (found : tokens[q]? = some t) :
    ∃ t', tokens'[q]? = some t' ∧ t'.stop = t.stop := by
  rw [grown.older q before,found]
  refine ⟨_,rfl,?_⟩
  split <;> rfl

theorem turn_root {t : Token} (turn : Turn js parser tokens parser' tokens')
    (some' : 0 < parser.toknext) (found : tokens[0]? = some t) (closed : t.stop ≠ -1) :
    0 < parser'.toknext ∧ ∃ t', tokens'[0]? = some t' ∧ t'.stop = t.stop := by
  cases turn with
  | blank => exact ⟨some',t,found,rfl⟩
  | colon => exact ⟨some',t,found,rfl⟩
  | comma => exact ⟨some',t,found,rfl⟩
  | string stop quoted ended grown => exact ⟨Nat.succ_pos _,grown.kept some' found⟩
  | literal stop start allowed ended grown => exact ⟨Nat.succ_pos _,grown.kept some' found⟩
  | opening type bracket allowed grown => exact ⟨Nat.succ_pos _,grown.kept some' found⟩
  | closing type k token bracket path read opened same =>
    refine ⟨some',t,?_,rfl⟩
    rw [List.getElem?_set_ne,found]
    intro root
    have there := tokenAt_ok read
    rw [root,found] at there
    cases there
    exact closed opened

theorem step_root {stop : Int} (closed : stop ≠ -1) (root : RootStops stop s)
    (ran : step js s = .ok s') : RootStops stop s' := by
  obtain ⟨tokens,t,stored,forest,some',found,rfl⟩ := root
  obtain ⟨after,⟨tokens',kept,_,turn⟩,rfl⟩ := step_turn stored forest.super.high ran
  have grown := forest.turn turn
  obtain ⟨more',t',found',same⟩ := turn_root turn some' found closed
  exact ⟨tokens',t',kept,grown.moved rfl grown.super,more',found',same⟩

theorem grown_reached {n pos pos' : Nat} {child : Token} (grown : Grown tokens tokens' n child)
    (bound : ∀ (i : Nat) (t : Token), i < n → tokens[i]? = some t → t.stop ≤ pos)
    (forward : pos ≤ pos') (last : child.stop ≤ pos') (i : Nat) (t : Token) (inside : i < n + 1)
    (found : tokens'[i]? = some t) : t.stop ≤ pos' := by
  rcases Nat.lt_succ_iff_lt_or_eq.mp inside with before | rfl
  · obtain ⟨old,was,_,_,same,_⟩ := grown.found before found
    have least := bound i old before was
    omega
  · cases grown.fresh.symm.trans found
    exact last

theorem turn_reached (turn : Turn js parser tokens parser' tokens')
    (bound : ∀ (i : Nat) (t : Token), i < parser.toknext → tokens[i]? = some t →
      t.stop ≤ parser.pos) (i : Nat) (t : Token) (inside : i < parser'.toknext)
    (found : tokens'[i]? = some t) : t.stop ≤ (parser'.pos + 1 : Nat) := by
  have later : ∀ t : Token, t.stop ≤ parser.pos → t.stop ≤ (parser.pos + 1 : Nat) := by
    intro t least
    omega
  cases turn with
  | blank => exact later t (bound i t inside found)
  | colon => exact later t (bound i t inside found)
  | comma => exact later t (bound i t inside found)
  | string stop quoted ended grown =>
    obtain ⟨body,_,_,_,rfl⟩ := stringEnd_sound ended
    exact grown_reached grown bound (by dsimp only; omega) (by dsimp only; omega) i t inside found
  | literal stop start allowed ended grown =>
    have forward := primitiveEnd_forward ended
    exact grown_reached grown bound (by dsimp only; omega) (by dsimp only; omega) i t inside found
  | opening type bracket allowed grown =>
    exact grown_reached grown bound (Nat.le_succ _) (by dsimp only; omega) i t inside found
  | closing type k token bracket path read opened same =>
    by_cases here : k.toNat = i
    · subst here
      rw [List.getElem?_set_self (List.getElem?_eq_some_iff.mp (tokenAt_ok read)).1] at found
      cases found
      exact Int.le_refl _
    · rw [List.getElem?_set_ne here] at found
      exact later t (bound i t inside found)

theorem step_reached (reached : Reached s) (ran : step js s = .ok s') : Reached s' := by
  obtain ⟨tokens,stored,forest,bound⟩ := reached
  obtain ⟨after,⟨tokens',kept,_,turn⟩,rfl⟩ := step_turn stored forest.super.high ran
  have grown := forest.turn turn
  exact ⟨tokens',kept,grown.moved rfl grown.super,turn_reached turn bound⟩

theorem reached_init (tokens : List Token) (count : Nat) : Reached ⟨init,some tokens,count⟩ :=
  ⟨tokens,rfl,forest_init tokens,fun i _ inside => absurd inside (Nat.not_lt_zero i)⟩

theorem parse_ran {array : List Token} {last : Scan} (parsed : parse init p (some array) = .ok last) :
    scan (more p) (step p) p.length ⟨init,some array,0⟩ = .ok last := by
  obtain ⟨done,ran,rest⟩ := except_bind parsed
  split at rest
  · cases rest
    exact ran
  · split at rest
    · cases rest
    · cases rest
      exact ran

theorem room_blanks (n m : Nat) :
    Scan.room (List.replicate m Token.blank) ⟨init,some (List.replicate n Token.blank),0⟩ =
      ⟨init,some (List.replicate (n + m) Token.blank),0⟩ := by
  rw [Scan.room,Option.map_some,List.replicate_append_replicate]

/-- Where the front of a text is accepted, the first token stops in it in every run over the
whole text. -/
theorem root_in_front {tail : Str} {array tokens : List Token} {count : Nat} {last done : Scan}
    (ran : scan (more p) (step p) p.length ⟨init,some array,count⟩ = .ok last)
    (stored : last.tokens = some tokens) (some' : 0 < last.parser.toknext)
    (closed : ∀ (i : Nat) (t : Token), tokens[i]? = some t → t.stop ≠ -1)
    (whole : scan (more (p ++ tail)) (step (p ++ tail)) (p ++ tail).length
      ⟨init,some array,count⟩ = .ok done) :
    ∃ stop, RootStops stop done ∧ stop ≤ p.length := by
  have kept : ∀ s next, more p s = true → step p s = .ok next →
      (Reached s ∧ s.parser.pos ≤ p.length) → more (p ++ tail) s = true ∧
      step (p ++ tail) s = .ok next ∧ s.parser.pos < next.parser.pos ∧
      (Reached next ∧ next.parser.pos ≤ p.length) := by
    intro s next going stepped inv
    obtain ⟨going',stepped',inside⟩ := step_front tail going stepped
    exact ⟨going',stepped',step_forward going stepped,step_reached inv.1 stepped,inside⟩
  obtain ⟨advances,reached,inside⟩ : Advances (more (p ++ tail)) (step (p ++ tail))
      (fun s => s.parser.pos) ⟨init,some array,count⟩ last ∧
      (Reached last ∧ last.parser.pos ≤ p.length) :=
    scan_advances kept ran ⟨reached_init array count,Nat.zero_le _⟩
  obtain ⟨tokens',stored',forest,bound⟩ := reached
  cases stored.symm.trans stored'
  have found := List.getElem?_eq_getElem (some'.trans_le forest.filled)
  have root : RootStops _ last := ⟨tokens,_,stored,forest,some',found,rfl⟩
  have enough : last.parser.pos ≤ init.pos + (p ++ tail).length := by
    rw [List.length_append]
    omega
  obtain ⟨left,same⟩ := advances.scan_on enough
  rw [same] at whole
  have least := bound 0 _ some' found
  exact ⟨_,scan_invariant (fun _ _ _ stepped root => step_root (closed 0 _ found) root stepped)
    whole root,by omega⟩

end Root

theorem Document.text_take (d : Document) {n : Nat}
    (whole : (d.lead.1 ++ d.root.text).length ≤ n) : ∃ behind : Blanks,
      d.text.take n = (⟨d.lead,d.root,d.container,behind⟩ : Document).text := by
  refine ⟨⟨d.behind.1.take (n - (d.lead.1 ++ d.root.text).length),?_⟩,?_⟩
  · intro c inside
    exact d.behind.2 c (List.mem_of_mem_take inside)
  · rw [Document.text,Document.text,List.take_append,List.take_of_length_le whole]

theorem Document.root_stop (d : Document) (extra : List Token) {stop : Int}
    {done : Scan} (stored : done.tokens = some (d.tokens ++ extra)) (root : RootStops stop done) :
    stop = (d.lead.1 ++ d.root.text).length := by
  obtain ⟨tokens,t,stored',_,_,found,rfl⟩ := root
  cases stored.symm.trans stored'
  obtain ⟨inner,own⟩ := d.root.tokens_cons d.lead.1.length 0 (-1)
  rw [Document.tokens,own] at found
  cases found
  have container := d.container
  rw [List.length_append]
  cases kind : d.root with
  | string => rw [kind] at container; rcases container with k | k <;> cases k
  | literal => rw [kind] at container; rcases container with k | k <;> cases k
  | object => rfl
  | array => rfl

end QuickConnect.Jsmn

namespace QuickConnect.JsonParser
open Jsmn ScanLoop

/-- Without its last bracket a document is not accepted, wherever it is cut off. -/
theorem cut_rejected (d : Document) {n : Nat} (short : n < (d.lead.1 ++ d.root.text).length)
    (ctx : Ctx) : parseStart true (d.text.take n) ≠ .ok ctx := by
  intro started
  obtain ⟨counted,first,rest⟩ := except_bind started
  obtain ⟨last,second,_⟩ := except_bind rest
  have first := jsmnParse_ok first
  have count := jsmnParse_count second
  have second := jsmnParse_ok second
  obtain ⟨tokens,stored,forest,full,same,closed⟩ := parse_shaped first second
  obtain ⟨_,stored',tokenized⟩ := parse_tokenized first second count
  cases stored.symm.trans stored'
  obtain ⟨pos,spans⟩ := tokenized.spans
  -- Both runs on an array that is long enough for both of them.
  have ran := scan_room (List.replicate d.root.count Token.blank) (parse_ran second)
  have whole := scan_room (List.replicate counted.count Token.blank) (parse_ran d.parsed.2)
  rw [room_blanks] at ran whole
  rw [Nat.add_comm d.root.count,← List.take_append_drop n d.text] at whole
  have some' : 0 < last.parser.toknext := by
    rw [← same]
    exact Nat.pos_of_ne_zero count
  have shut : ∀ (i : Nat) (t : Token),
      (tokens ++ List.replicate d.root.count Token.blank)[i]? = some t → t.stop ≠ -1 := by
    intro i t found opened
    rcases List.mem_append.mp (List.mem_of_getElem? found) with own | blank
    · obtain ⟨j,there⟩ := List.mem_iff_getElem?.mp own
      have inside := (List.getElem?_eq_some_iff.mp there).1
      have low := (spans.started j t inside there).1
      have is := closed j t there
      rw [Token.isOpen,opened] at is
      simp only [Bool.and_eq_false_iff,decide_eq_false_iff_not,not_not,not_true,or_false] at is
      omega
    · rw [List.eq_of_mem_replicate blank] at opened
      cases opened
  have stored'' : (Scan.room (List.replicate d.root.count Token.blank) last).tokens =
      some (tokens ++ List.replicate d.root.count Token.blank) := by
    rw [Scan.room,stored,Option.map_some]
  obtain ⟨stop,root,least⟩ := root_in_front ran stored'' some' shut whole
  have ends := d.root_stop (List.replicate counted.count Token.blank) (by
    simp only [Scan.room,scanning,Option.map_some,List.replicate_zero,List.append_nil]) root
  rw [List.length_take] at least
  omega

/-- A document that is cut off is accepted exactly where its last bracket is still there, and
then with the same tokens. -/
theorem parseStart_take (d : Document) (n : Nat) : parseStart true (d.text.take n) =
    if (d.lead.1 ++ d.root.text).length ≤ n then .ok ⟨d.text.take n,d.tokens,0⟩
    else .error .fail := by
  split
  · rename_i whole
    obtain ⟨behind,same⟩ := d.text_take whole
    rw [same,parseStart_document]
    rfl
  · rename_i short
    cases started : parseStart true (d.text.take n) with
    | error e => rw [parseStart_fails started]
    | ok ctx => exact absurd started (cut_rejected d (Nat.lt_of_not_le short) ctx)

end QuickConnect.JsonParser
