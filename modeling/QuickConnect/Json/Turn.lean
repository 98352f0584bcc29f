import QuickConnect.Json.Accepted
import Mathlib.Logic.Relation

/-! What one character does to the parser and its tokens, when there is an array for them. -/
namespace QuickConnect.Jsmn
open Text ScanLoop

/-- The token at `n` is new and counted as a child of its parent; the older ones are as they were. -/
structure Grown (tokens tokens' : List Token) (n : Nat) (child : Token) : Prop where
  length : tokens'.length = tokens.length
  fresh : tokens'[n]? = some child
  older : ∀ q < n, tokens'[q]? = tokens[q]?.map fun t =>
    if (q : Int) = child.parent then { t with size := t.size + 1 } else t

/-- The parent link of one token to another. -/
def Under (tokens : List Token) (i p : Int) : Prop :=
  ∃ token, tokenAt tokens i = .ok token ∧ token.parent = p

inductive Turn (js : Str) : Parser → List Token → Parser → List Token → Prop
  | blank {parser : Parser} {tokens : List Token}
      (gap : label (js[parser.pos]?.getD 0) = .blank ∨ label (js[parser.pos]?.getD 0) = .comma ∨
        ∃ type, label (js[parser.pos]?.getD 0) = .closing type) :
      Turn js parser tokens parser tokens
  | colon {parser : Parser} {tokens : List Token}
      (gap : label (js[parser.pos]?.getD 0) = .colon) :
      Turn js parser tokens { parser with toksuper := parser.toknext - 1 } tokens
  | comma {parser : Parser} {tokens : List Token} (super : Token)
      (gap : label (js[parser.pos]?.getD 0) = .comma)
      (read : tokenAt tokens parser.toksuper = .ok super) :
      Turn js parser tokens { parser with toksuper := super.parent } tokens
  | string {parser : Parser} {tokens tokens' : List Token} (stop : Nat)
      (quoted : label (js[parser.pos]?.getD 0) = .quote)
      (ended : stringEnd js js.length (parser.pos + 1) = .ok stop)
      (grown : Grown tokens tokens' parser.toknext
        ⟨.string,(parser.pos + 1 : Nat),stop,0,parser.toksuper⟩) :
      Turn js parser tokens { parser with toknext := parser.toknext + 1, pos := stop } tokens'
  | literal {parser : Parser} {tokens tokens' : List Token} (stop : Nat)
      (start : label (js[parser.pos]?.getD 0) = .literal)
      (allowed : ∀ super, tokenAt tokens parser.toksuper = .ok super → super.type ≠ .object)
      (ended : primitiveEnd js js.length parser.pos = .ok stop)
      (grown : Grown tokens tokens' parser.toknext
        ⟨.primitive,parser.pos,stop,0,parser.toksuper⟩) :
      Turn js parser tokens { parser with toknext := parser.toknext + 1, pos := stop - 1 } tokens'
  | opening {parser : Parser} {tokens tokens' : List Token} (type : TokenType)
      (bracket : label (js[parser.pos]?.getD 0) = .opening type)
      (allowed : ∀ super, tokenAt tokens parser.toksuper = .ok super → super.type ≠ .object)
      (grown : Grown tokens tokens' parser.toknext ⟨type,parser.pos,-1,0,parser.toksuper⟩) :
      Turn js parser tokens
        { parser with toknext := parser.toknext + 1, toksuper := parser.toknext } tokens'
  | closing {parser : Parser} {tokens : List Token} (type : TokenType) (k : Int) (token : Token)
      (bracket : label (js[parser.pos]?.getD 0) = .closing type)
      (above : Relation.ReflTransGen (Under tokens) (parser.toknext - 1) k)
      (read : tokenAt tokens k = .ok token) (opened : token.stop = -1) (same : token.type = type) :
      Turn js parser tokens { parser with toksuper := token.parent }
        (tokens.set k.toNat { token with stop := parser.pos + 1 })

variable {js : Str} {tokens tokens' : List Token} {child t : Token} {n : Nat}

theorem tokenAt_nonneg {index : Int} (read : tokenAt tokens index = .ok t) : 0 ≤ index := by
  rw [tokenAt] at read
  split at read
  · cases read
  · omega

/-- A stop filled in for the token `k` leaves the rest of it and the other tokens. -/
theorem stopped_found {k q : Nat} {stop : Int} {t' : Token} (found : tokens[k]? = some t)
    (there : (tokens.set k { t with stop := stop })[q]? = some t') :
    ∃ old, tokens[q]? = some old ∧ t'.type = old.type ∧ t'.start = old.start ∧
      t'.parent = old.parent ∧ t'.size = old.size ∧ (q = k ∧ old = t ∨ t' = old) := by
  by_cases here : k = q
  · subst here
    rw [List.getElem?_set_self (List.getElem?_eq_some_iff.mp found).1] at there
    cases there
    exact ⟨t,found,rfl,rfl,rfl,rfl,Or.inl ⟨rfl,rfl⟩⟩
  · rw [List.getElem?_set_ne here] at there
    exact ⟨t',there,rfl,rfl,rfl,rfl,Or.inr rfl⟩

theorem grown_root (room : n < tokens.length) (root : child.parent = -1) :
    Grown tokens (tokens.set n child) n child where
  length := List.length_set
  fresh := List.getElem?_set_self room
  older q before := by
    rw [List.getElem?_set_ne (Nat.ne_of_gt before),root]
    cases tokens[q]? <;> simp

theorem grown_child {super : Nat} (room : n < tokens.length) (under : child.parent = super)
    (before : super < n) (found : tokens[super]? = some t) :
    Grown tokens ((tokens.set n child).set super { t with size := t.size + 1 }) n child where
  length := List.length_set.trans List.length_set
  fresh := by rw [List.getElem?_set_ne (Nat.ne_of_lt before),List.getElem?_set_self room]
  older q earlier := by
    rw [under]
    by_cases same : super = q
    · subst same
      rw [List.getElem?_set_self (by rw [List.length_set]; omega),found]
      simp
    · rw [List.getElem?_set_ne same,List.getElem?_set_ne (Nat.ne_of_gt earlier)]
      have apart : ¬(q : Int) = super := fun equal => same (Int.ofNat.inj equal).symm
      simp only [apart,if_false]
      cases tokens[q]? <;> rfl

/-- A new token is counted at its parent, if it has one. -/
theorem counted_grown {parser : Parser} {count : Nat} {s' : Scan}
    (done : counted (parser,some (tokens.set n child)) count = .ok s') (room : n < tokens.length)
    (under : child.parent = parser.toksuper) (before : parser.toksuper < n) :
    ∃ tokens', s' = ⟨parser,some tokens',count + 1⟩ ∧ Grown tokens tokens' n child := by
  rw [counted] at done
  simp only at done
  split at done
  · rename_i other
    obtain ⟨last,updated,same⟩ := except_bind done
    cases same
    obtain ⟨super,read,rfl⟩ := update_ok updated
    have nonneg := tokenAt_nonneg read
    obtain ⟨place,same⟩ := Int.eq_ofNat_of_zero_le nonneg
    rw [same] at before under read
    have earlier : place < n := Int.ofNat_lt.mp before
    have found := tokenAt_ok read
    rw [Int.toNat_natCast,List.getElem?_set_ne (Nat.ne_of_gt earlier)] at found
    refine ⟨_,rfl,?_⟩
    rw [same]
    exact grown_child room under earlier found
  · rename_i root
    cases done
    exact ⟨_,rfl,grown_root room (under.trans (not_not.mp root))⟩

theorem allocToken_eq {parser parser' : Parser}
    (allocated : allocToken parser tokens = .ok (parser',tokens')) :
    parser.toknext < tokens.length ∧ parser' = { parser with toknext := parser.toknext + 1 } ∧
      ∃ type, tokens' = tokens.set parser.toknext ⟨type,-1,-1,0,-1⟩ := by
  rw [allocToken] at allocated
  split at allocated
  · cases allocated
  · rename_i old found
    cases allocated
    exact ⟨(List.getElem?_eq_some_iff.mp found).1,rfl,_,rfl⟩

theorem addToken_eq {type : TokenType} {start stop : Nat} {parser parser' : Parser}
    {found : Option (List Token)}
    (added : addToken type start stop parser (some tokens) = .ok (parser',found)) :
    parser.toknext < tokens.length ∧ parser' = { parser with toknext := parser.toknext + 1 } ∧
      found = some (tokens.set parser.toknext ⟨type,start,stop,0,parser.toksuper⟩) := by
  obtain ⟨⟨middle,between⟩,allocated,rest⟩ := except_bind added
  obtain ⟨last,updated,same⟩ := except_bind rest
  cases same
  obtain ⟨room,rfl,old,rfl⟩ := allocToken_eq allocated
  obtain ⟨token,_,rfl⟩ := update_ok updated
  refine ⟨room,rfl,?_⟩
  rw [newest_toNat,List.set_set]
  rfl

variable {s s' : Scan}

/-- A turn of the parser that counts every token it adds. -/
def Turns (js : Str) (tokens : List Token) (s s' : Scan) : Prop :=
  ∃ tokens', s'.tokens = some tokens' ∧
    s'.count + s.parser.toknext = s.count + s'.parser.toknext ∧
    Turn js s.parser tokens s'.parser tokens'

theorem turns_added (stored : s'.tokens = some tokens') (counted : s'.count = s.count + 1)
    (next : s'.parser.toknext = s.parser.toknext + 1)
    (turn : Turn js s.parser tokens s'.parser tokens') : Turns js tokens s s' :=
  ⟨tokens',stored,by omega,turn⟩

theorem turns_kept (stored : s'.tokens = some tokens') (counted : s'.count = s.count)
    (next : s'.parser.toknext = s.parser.toknext)
    (turn : Turn js s.parser tokens s'.parser tokens') : Turns js tokens s s' :=
  ⟨tokens',stored,by omega,turn⟩

theorem string_turn (stored : s.tokens = some tokens)
    (before : s.parser.toksuper < s.parser.toknext)
    (quoted : label (js[s.parser.pos]?.getD 0) = .quote) (ran : string js s = .ok s') :
    Turns js tokens s s' := by
  obtain ⟨found,parsed,done⟩ := except_bind ran
  obtain ⟨stop,ended,rest⟩ := except_bind parsed
  obtain ⟨⟨parser,added⟩,adding,same⟩ := except_bind rest
  cases same
  rw [stored] at adding
  obtain ⟨room,rfl,rfl⟩ := addToken_eq adding
  obtain ⟨tokens',rfl,grown⟩ := counted_grown done room rfl before
  exact turns_added rfl rfl rfl (.string stop quoted ended grown)

theorem literalAllowed_ok {done : Unit} (stored : s.tokens = some tokens)
    (allowed : literalAllowed s = .ok done) :
    ∀ super, tokenAt tokens s.parser.toksuper = .ok super → super.type ≠ .object := by
  intro super read object
  rw [literalAllowed,stored] at allowed
  simp only at allowed
  split at allowed
  · rw [read,except_ok_bind,if_pos (Or.inl object)] at allowed
    cases allowed
  · rename_i root
    have nonneg := tokenAt_nonneg read
    rw [not_not.mp root] at nonneg
    exact absurd nonneg (by decide)

theorem literal_turn (stored : s.tokens = some tokens)
    (before : s.parser.toksuper < s.parser.toknext)
    (start : label (js[s.parser.pos]?.getD 0) = .literal) (ran : literal js s = .ok s') :
    Turns js tokens s s' := by
  rw [literal] at ran
  obtain ⟨_,allowed,rest⟩ := except_bind ran
  obtain ⟨found,parsed,done⟩ := except_bind rest
  obtain ⟨stop,ended,rest⟩ := except_bind parsed
  obtain ⟨⟨parser,added⟩,adding,same⟩ := except_bind rest
  cases same
  rw [stored] at adding
  obtain ⟨room,rfl,rfl⟩ := addToken_eq adding
  obtain ⟨tokens',rfl,grown⟩ := counted_grown done room rfl before
  exact turns_added rfl rfl rfl (.literal stop start
    (literalAllowed_ok stored allowed) ended grown)

theorem update_fresh {change : Token → Token} {old : Token} (found : tokens[n]? = some old)
    (updated : update tokens (n : Int) change = .ok tokens') : tokens' = tokens.set n (change old) := by
  obtain ⟨token,read,rfl⟩ := update_ok updated
  have held := tokenAt_ok read
  rw [Int.toNat_natCast] at held ⊢
  cases held.symm.trans found
  rfl

/-- An opening bracket linked to its parent; an object is no parent for it. -/
theorem link_grown {parser : Parser} {old type : TokenType} {linked last : List Token}
    (linking : link parser n (tokens.set n ⟨old,-1,-1,0,-1⟩) = .ok linked)
    (updated : update linked n (fun t => { t with type := type, start := parser.pos }) = .ok last)
    (room : n < tokens.length) (before : parser.toksuper < n) :
    Grown tokens last n ⟨type,parser.pos,-1,0,parser.toksuper⟩ ∧
      ∀ super, tokenAt tokens parser.toksuper = .ok super → super.type ≠ .object := by
  rw [link] at linking
  split at linking
  · obtain ⟨super,reading,rest⟩ := except_bind linking
    split at rest
    · cases rest
    rename_i plain
    obtain ⟨sized,counting,linking⟩ := except_bind rest
    obtain ⟨place,same⟩ := Int.eq_ofNat_of_zero_le (tokenAt_nonneg reading)
    rw [same] at before reading counting
    have earlier : place < n := Int.ofNat_lt.mp before
    have found := tokenAt_ok reading
    rw [Int.toNat_natCast] at found
    cases update_fresh found counting
    rw [List.getElem?_set_ne (Nat.ne_of_gt earlier)] at found
    have fresh : ((tokens.set n ⟨old,-1,-1,0,-1⟩).set place
        { super with size := super.size + 1 })[n]? = some ⟨old,-1,-1,0,-1⟩ := by
      rw [List.getElem?_set_ne (Nat.ne_of_lt earlier),List.getElem?_set_self room]
    cases update_fresh fresh linking
    cases update_fresh (List.getElem?_set_self (by simpa using room)) updated
    rw [List.set_set,List.set_comm _ _ (Nat.ne_of_lt earlier),List.set_set,same]
    refine ⟨grown_child room rfl earlier found,?_⟩
    intro other read
    have again := tokenAt_ok read
    rw [Int.toNat_natCast] at again
    cases found.symm.trans again
    exact plain
  · rename_i root
    cases linking
    have none := not_not.mp root
    cases update_fresh (List.getElem?_set_self room) updated
    rw [List.set_set,none]
    refine ⟨grown_root room rfl,?_⟩
    intro super read
    exact absurd (tokenAt_nonneg read) (by decide)

theorem opening_turn {type : TokenType} (stored : s.tokens = some tokens)
    (before : s.parser.toksuper < s.parser.toknext)
    (bracket : label (js[s.parser.pos]?.getD 0) = .opening type)
    (ran : opening type s = .ok s') : Turns js tokens s s' := by
  rw [opening,stored] at ran
  simp only at ran
  obtain ⟨⟨parser,fresh⟩,allocated,rest⟩ := except_bind ran
  obtain ⟨linked,linking,rest⟩ := except_bind rest
  obtain ⟨last,updated,same⟩ := except_bind rest
  cases same
  obtain ⟨room,rfl,old,rfl⟩ := allocToken_eq allocated
  simp only [newest] at linking updated
  obtain ⟨grown,allowed⟩ := link_grown linking updated room before
  have turn := Turn.opening type bracket allowed grown
  rw [← newest s.parser.toknext] at turn
  exact turns_added rfl rfl rfl turn

theorem close_turn {type : TokenType} {pos fuel : Nat} {toksuper toksuper' index : Int}
    (closed : close type pos toksuper tokens fuel index = .ok (toksuper',tokens')) :
    (toksuper' = toksuper ∧ tokens' = tokens) ∨
      ∃ k token, Relation.ReflTransGen (Under tokens) index k ∧ tokenAt tokens k = .ok token ∧
        token.stop = -1 ∧ token.type = type ∧ toksuper' = token.parent ∧
        tokens' = tokens.set k.toNat { token with stop := pos + 1 } := by
  induction fuel generalizing index with
  | zero => cases closed
  | succ fuel ih =>
    obtain ⟨token,read,rest⟩ := except_bind closed
    split at rest
    · rename_i opened
      split at rest
      · cases rest
      · rename_i same
        obtain ⟨last,updated,done⟩ := except_bind rest
        cases done
        obtain ⟨other,again,rfl⟩ := update_ok updated
        cases read.symm.trans again
        exact Or.inr ⟨index,token,.refl,read,opened.2,not_not.mp same,rfl,rfl⟩
    · split at rest
      · split at rest
        · cases rest
        · cases rest
          exact Or.inl ⟨rfl,rfl⟩
      · rcases ih rest with unchanged | ⟨k,other,above,found⟩
        · exact Or.inl unchanged
        · exact Or.inr ⟨k,other,.head ⟨token,read,rfl⟩ above,found⟩

theorem closing_turn {type : TokenType} (stored : s.tokens = some tokens)
    (bracket : label (js[s.parser.pos]?.getD 0) = .closing type)
    (ran : closing type s = .ok s') : Turns js tokens s s' := by
  rw [closing,stored] at ran
  simp only at ran
  split at ran
  · cases ran
  obtain ⟨⟨toksuper,last⟩,closed,done⟩ := except_bind ran
  cases done
  rcases close_turn closed with ⟨rfl,rfl⟩ | ⟨k,token,above,read,opened,same,rfl,rfl⟩
  · exact turns_kept rfl rfl rfl (.blank (Or.inr (Or.inr ⟨type,bracket⟩)))
  · exact turns_kept rfl rfl rfl (.closing type k token bracket above read opened same)

theorem comma_turn (stored : s.tokens = some tokens)
    (gap : label (js[s.parser.pos]?.getD 0) = .comma) (ran : comma s = .ok s') :
    Turns js tokens s s' := by
  have stays : Turn js s.parser tokens s.parser tokens := .blank (Or.inr (Or.inl gap))
  rw [comma,stored] at ran
  simp only at ran
  split at ran
  · obtain ⟨super,read,rest⟩ := except_bind ran
    split at rest
    · cases rest
      exact turns_kept rfl rfl rfl (.comma super gap read)
    · cases rest
      exact turns_kept stored rfl rfl stays
  · cases ran
    exact turns_kept stored rfl rfl stays

/-- Every step on an array of tokens is a turn, with the position moved on by one. -/
theorem step_turn (stored : s.tokens = some tokens)
    (before : s.parser.toksuper < s.parser.toknext) (ran : step js s = .ok s') :
    ∃ after, Turns js tokens s after ∧ s' = next after := by
  obtain ⟨after,switched,same⟩ := except_bind ran
  cases same
  refine ⟨after,?_,rfl⟩
  cases here : label (js[s.parser.pos]?.getD 0) with
  | opening type =>
    rw [here] at switched
    exact opening_turn stored before here switched
  | closing type =>
    rw [here] at switched
    exact closing_turn stored here switched
  | quote =>
    rw [here] at switched
    exact string_turn stored before here switched
  | blank =>
    rw [here] at switched
    cases switched
    exact turns_kept stored rfl rfl (.blank (Or.inl here))
  | colon =>
    rw [here] at switched
    cases switched
    exact turns_kept stored rfl rfl (.colon here)
  | comma =>
    rw [here] at switched
    exact comma_turn stored here switched
  | literal =>
    rw [here] at switched
    exact literal_turn stored before here switched
  | unexpected =>
    rw [here] at switched
    cases switched

end QuickConnect.Jsmn
