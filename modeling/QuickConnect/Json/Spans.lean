import QuickConnect.Json.Shape

/-! Where the tokens of a text stand in it, for every text: what is between the quotes of a
string token, what can be between it and the next token, and where the first root ends. -/
namespace QuickConnect.Jsmn
open Text ScanLoop

/-- A character that adds no token. -/
def Label.between : Label → Bool
  | .opening _ => false
  | .closing _ => true
  | .quote => false
  | .blank => true
  | .colon => true
  | .comma => true
  | .literal => false
  | .unexpected => false

/-- From one place to another no token begins. -/
def Gap (js : Str) (start stop : Nat) : Prop :=
  ∃ gap, js.drop start = gap ++ js.drop stop ∧ stop = start + gap.length ∧
    ∀ c ∈ gap, (label c).between = true

/-- The token of the string with this body and its opening quote at this place. -/
structure Spelt (js : Str) (token : Token) (place : Nat) (body : Str) : Prop where
  start : token.start = (place + 1 : Nat)
  stop : token.stop = (place + 1 + body.length : Nat)
  valid : StringBody body
  text : ∃ rest, js.drop place = quote :: body ++ quote :: rest

/-- The place of the first character of a token. -/
def Token.place (token : Token) : Nat :=
  if token.type = .string then token.start.toNat - 1 else token.start.toNat

/-- The object was closed at this place, outside every string. -/
structure ClosedAt (js : Str) (n : Nat) (tokens : List Token) (place : Nat) : Prop where
  bracket : ∃ type, label (js[place]?.getD 0) = .closing type
  apart : ∀ i token, i < n → tokens[i]? = some token → token.type = .string →
    token.stop < place ∨ place < token.place

structure Spans (js : Str) (pos n : Nat) (tokens : List Token) : Prop where
  spelt : ∀ i token, i < n → tokens[i]? = some token → token.type = .string →
    ∃ place body, Spelt js token place body
  started : ∀ i token, i < n → tokens[i]? = some token → 0 ≤ token.start ∧ token.start < pos
  stopped : ∀ i token, i < n → tokens[i]? = some token → token.type = .string → token.stop < pos
  ordered : ∀ i j first second, i < j → j < n → tokens[i]? = some first →
    tokens[j]? = some second → first.start < second.start ∧
      (first.type = .string → first.stop < second.start)
  gaps : ∀ i first second, i + 1 < n → tokens[i]? = some first →
    tokens[i + 1]? = some second → first.type = .string →
    Gap js (first.stop.toNat + 1) second.place
  last : ∀ i token, i + 1 = n → tokens[i]? = some token → token.type = .string →
    Gap js (token.stop.toNat + 1) pos
  root : ∀ root : Token, 0 < n → tokens[0]? = some root → root.type = .object → root.stop ≠ -1 →
    ∃ place : Nat, root.stop = ((place + 1 : Nat) : Int) ∧ place < pos ∧ ClosedAt js n tokens place

variable {js : Str} {pos n start stop : Nat} {tokens tokens' : List Token} {c : UInt8}

theorem Gap.refl (js : Str) (start : Nat) : Gap js start start :=
  ⟨[],rfl,rfl,fun _ none => absurd none List.not_mem_nil⟩

theorem Gap.next (gap : Gap js start stop) (found : js[stop]? = some c)
    (between : (label c).between = true) : Gap js start (stop + 1) := by
  obtain ⟨front,remaining,length,every⟩ := gap
  refine ⟨front ++ [c],?_,?_,?_⟩
  · rw [remaining,remaining_peek found,List.append_assoc]
    rfl
  · rw [length,List.length_append,List.length_singleton,Nat.add_assoc]
  · intro d inside
    rcases List.mem_append.mp inside with inside | inside
    · exact every d inside
    · rw [List.mem_singleton.mp inside]
      exact between

theorem between_found (between : (label (js[pos]?.getD 0)).between = true) :
    ∃ c, js[pos]? = some c ∧ (label c).between = true := by
  cases found : js[pos]? with
  | none =>
    rw [found] at between
    cases between
  | some c =>
    rw [found] at between
    exact ⟨c,rfl,between⟩

/-- A character that adds no token is passed. -/
theorem Spans.pass (spans : Spans js pos n tokens)
    (between : (label (js[pos]?.getD 0)).between = true) : Spans js (pos + 1) n tokens where
  spelt := spans.spelt
  started i token inside found := by
    obtain ⟨low,high⟩ := spans.started i token inside found
    exact ⟨low,by omega⟩
  stopped i token inside found string := by
    have high := spans.stopped i token inside found string
    omega
  ordered := spans.ordered
  gaps := spans.gaps
  last i token final found string := by
    obtain ⟨c,here,kind⟩ := between_found between
    exact (spans.last i token final found string).next here kind
  root root inside found object closed := by
    obtain ⟨place,stop,before,apart⟩ := spans.root root inside found object closed
    exact ⟨place,stop,before.trans (Nat.lt_succ_self _),apart⟩

/-- A stop that is filled in is not the stop of a string. -/
theorem stopped_string {k i : Nat} {token t' : Token} {stop : Int}
    (found : tokens[k]? = some token) (same : token.type ≠ .string)
    (there : (tokens.set k { token with stop := stop })[i]? = some t') (string : t'.type = .string) :
    tokens[i]? = some t' := by
  obtain ⟨t,was,type,_,_,_,changed⟩ := stopped_found found there
  rcases changed with ⟨_,rfl⟩ | rfl
  · exact absurd (type.symm.trans string) same
  · exact was

theorem ClosedAt.stopped {k place : Nat} {token : Token} {stop : Int}
    (closed : ClosedAt js n tokens place) (found : tokens[k]? = some token)
    (same : token.type ≠ .string) :
    ClosedAt js n (tokens.set k { token with stop := stop }) place where
  bracket := closed.bracket
  apart i t' inside there string :=
    closed.apart i t' inside (stopped_string found same there string) string

/-- The bracket at this place closes the token `k`. -/
theorem Spans.close {k : Nat} {token : Token} {type : TokenType} (spans : Spans js pos n tokens)
    (bracket : label (js[pos]?.getD 0) = .closing type) (found : tokens[k]? = some token)
    (same : token.type ≠ .string) :
    Spans js (pos + 1) n (tokens.set k { token with stop := pos + 1 }) := by
  have passed : Spans js (pos + 1) n tokens := by
    apply spans.pass
    rw [bracket]
    rfl
  refine ⟨?_,?_,?_,?_,?_,?_,?_⟩
  · intro i t' inside there string
    exact passed.spelt i t' inside (stopped_string found same there string) string
  · intro i t' inside there
    obtain ⟨t,was,_,start,_⟩ := stopped_found found there
    rw [start]
    exact passed.started i t inside was
  · intro i t' inside there string
    exact passed.stopped i t' inside (stopped_string found same there string) string
  · intro i j first second before inside there behind
    obtain ⟨a,was,type,start,_⟩ := stopped_found found there
    obtain ⟨b,was',_,start',_⟩ := stopped_found found behind
    rw [start,start']
    obtain ⟨less,stops⟩ := passed.ordered i j a b before inside was was'
    refine ⟨less,?_⟩
    intro string
    cases (stopped_string found same there string).symm.trans was
    exact stops string
  · intro i first second inside there behind string
    obtain ⟨b,was,type,start,_⟩ := stopped_found found behind
    rw [Token.place,type,start]
    exact passed.gaps i first b inside (stopped_string found same there string) was string
  · intro i t' final there string
    exact passed.last i t' final (stopped_string found same there string) string
  · intro root inside there object closed
    obtain ⟨t,was,_,_,_,_,changed⟩ := stopped_found found there
    rcases changed with ⟨rfl,rfl⟩ | rfl
    · rw [List.getElem?_set_self (List.getElem?_eq_some_iff.mp found).1] at there
      cases there
      have here : ClosedAt js n tokens pos := by
        refine ⟨⟨type,bracket⟩,?_⟩
        intro i t' inside' found' string
        exact Or.inl (spans.stopped i t' inside' found' string)
      exact ⟨pos,rfl,Nat.lt_succ_self _,here.stopped found same⟩
    · obtain ⟨place,stop,before,outside⟩ := passed.root root inside was object closed
      exact ⟨place,stop,before,outside.stopped found same⟩

/-- A token that is added while the parser moves from one place to another. -/
structure Fresh (js : Str) (pos pos' : Nat) (child : Token) : Prop where
  low : (pos : Int) ≤ child.start
  high : child.start < pos'
  place : child.place = pos
  string : child.type = .string → (∃ body, Spelt js child pos body) ∧ child.stop + 1 = pos'
  opened : child.type = .object → child.stop = -1

/-- A token of the grown array was there before or is the new one. -/
theorem Grown.either {child t' : Token} {i : Nat} (grown : Grown tokens tokens' n child)
    (inside : i < n + 1) (found : tokens'[i]? = some t') :
    (i < n ∧ ∃ t, tokens[i]? = some t ∧ t'.type = t.type ∧ t'.start = t.start ∧
      t'.stop = t.stop) ∨ i = n ∧ t' = child := by
  rcases Nat.lt_succ_iff_lt_or_eq.mp inside with before | rfl
  · obtain ⟨t,was,type,start,stop,_⟩ := grown.found before found
    exact Or.inl ⟨before,t,was,type,start,stop⟩
  · exact Or.inr ⟨rfl,Option.some.inj (found.symm.trans grown.fresh)⟩

/-- A token added behind it leaves the closing bracket outside every string. -/
theorem ClosedAt.grow {pos' place : Nat} {child : Token} (closed : ClosedAt js n tokens place)
    (grown : Grown tokens tokens' n child) (fresh : Fresh js pos pos' child) (before : place < pos) :
    ClosedAt js (n + 1) tokens' place where
  bracket := closed.bracket
  apart i t' inside found string := by
    rcases grown.either inside found with ⟨earlier,t,was,type,start,stop⟩ | ⟨rfl,rfl⟩
    · rw [Token.place,type,start,stop]
      exact closed.apart i t earlier was (type ▸ string)
    · rw [fresh.place]
      exact Or.inr before

theorem Spans.grow {pos' : Nat} {child : Token} (spans : Spans js pos n tokens)
    (grown : Grown tokens tokens' n child) (fresh : Fresh js pos pos' child)
    (forward : pos ≤ pos') : Spans js pos' (n + 1) tokens' where
  spelt i t' inside found string := by
    rcases grown.either inside found with ⟨before,t,was,type,start,stop⟩ | ⟨rfl,rfl⟩
    · obtain ⟨place,body,starts,stops,valid,text⟩ := spans.spelt i t before was (type ▸ string)
      exact ⟨place,body,start.trans starts,stop.trans stops,valid,text⟩
    · obtain ⟨body,spelt⟩ := (fresh.string string).1
      exact ⟨pos,body,spelt⟩
  started i t' inside found := by
    rcases grown.either inside found with ⟨before,t,was,_,start,_⟩ | ⟨rfl,rfl⟩
    · obtain ⟨zero,high⟩ := spans.started i t before was
      rw [start]
      exact ⟨zero,by omega⟩
    · have low := fresh.low
      exact ⟨by omega,fresh.high⟩
  stopped i t' inside found string := by
    rcases grown.either inside found with ⟨before,t,was,type,_,stop⟩ | ⟨rfl,rfl⟩
    · have high := spans.stopped i t before was (type ▸ string)
      omega
    · have ends := (fresh.string string).2
      omega
  ordered i j first second before inside there behind := by
    rcases grown.either (before.trans inside) there with ⟨earlier,a,was,type,start,stop⟩ | ⟨rfl,rfl⟩
    · rcases grown.either inside behind with ⟨later,b,was',_,start',_⟩ | ⟨rfl,rfl⟩
      · rw [type,start,stop,start']
        exact spans.ordered i j a b before later was was'
      · have low := fresh.low
        have high := (spans.started i a earlier was).2
        refine ⟨by omega,?_⟩
        intro string
        have ends := spans.stopped i a earlier was (type ▸ string)
        omega
    · omega
  gaps i first second inside there behind string := by
    obtain ⟨a,was,type,_,stop,_⟩ := grown.found (Nat.lt_of_succ_lt_succ inside) there
    rw [stop]
    rcases grown.either inside behind with ⟨later,b,was',kind,start,_⟩ | ⟨same,rfl⟩
    · rw [Token.place,kind,start]
      exact spans.gaps i a b later was was' (type ▸ string)
    · rw [fresh.place]
      exact spans.last i a same was (type ▸ string)
  last i t' final found string := by
    cases Nat.succ.inj final
    cases found.symm.trans grown.fresh
    obtain ⟨⟨body,spelt⟩,ends⟩ := fresh.string string
    have stop := spelt.stop
    have same : child.stop.toNat + 1 = pos' := by omega
    rw [same]
    exact Gap.refl js pos'
  root root inside found object closed := by
    rcases grown.either inside found with ⟨some',t,was,type,_,stop⟩ | ⟨_,rfl⟩
    · rw [stop] at closed
      obtain ⟨place,ends,before,outside⟩ := spans.root t some' was (type ▸ object) closed
      exact ⟨place,stop.trans ends,by omega,outside.grow grown fresh before⟩
    · exact absurd (fresh.opened object) closed

theorem label_quote (same : label c = .quote) : c = quote := by
  by_contra other
  revert same
  rw [label]
  repeat' split
  all_goals first
    | exact absurd ‹c = quote› other
    | (intro same; cases same)

theorem label_found {kind : Label} (same : label (js[pos]?.getD 0) = kind)
    (expected : kind ≠ .unexpected) : ∃ c, js[pos]? = some c ∧ label c = kind := by
  cases found : js[pos]? with
  | none =>
    rw [found] at same
    exact absurd same.symm expected
  | some c =>
    rw [found] at same
    exact ⟨c,rfl,same⟩

theorem fresh_string {parent : Int} (quoted : label (js[pos]?.getD 0) = .quote)
    (ended : stringEnd js js.length (pos + 1) = .ok stop) :
    Fresh js pos (stop + 1) ⟨.string,(pos + 1 : Nat),stop,0,parent⟩ := by
  obtain ⟨c,found,same⟩ := label_found quoted (fun other => by cases other)
  obtain ⟨body,rest,valid,remaining,rfl⟩ := stringEnd_sound ended
  rw [label_quote same] at found
  have spelt : Spelt js ⟨.string,(pos + 1 : Nat),(pos + 1 + body.length : Nat),0,parent⟩ pos body :=
    ⟨rfl,rfl,valid,rest,by rw [remaining_peek found,remaining]; rfl⟩
  refine ⟨by dsimp only; omega,by dsimp only; omega,rfl,fun _ => ⟨⟨body,spelt⟩,rfl⟩,?_⟩
  intro other
  cases other

theorem fresh_literal {parent : Int} (start : label (js[pos]?.getD 0) = .literal)
    (ended : primitiveEnd js js.length pos = .ok stop) :
    Fresh js pos (stop - 1 + 1) ⟨.primitive,pos,stop,0,parent⟩ ∧ pos < stop := by
  obtain ⟨c,found,same⟩ := label_found start (fun other => by cases other)
  have forward := primitiveEnd_literal found same ended
  refine ⟨⟨Int.le_refl _,by dsimp only; omega,rfl,?_,?_⟩,forward⟩
  · intro other
    cases other
  · intro other
    cases other

theorem fresh_opening {type : TokenType} {parent : Int} (plain : type ≠ .string) :
    Fresh js pos (pos + 1) ⟨type,pos,-1,0,parent⟩ where
  low := Int.le_refl _
  high := by dsimp only; omega
  place := if_neg plain
  string other := absurd other plain
  opened _ := rfl

variable {parser parser' : Parser}

theorem Spans.turn (spans : Spans js parser.pos parser.toknext tokens)
    (turn : Turn js parser tokens parser' tokens') :
    Spans js (parser'.pos + 1) parser'.toknext tokens' := by
  cases turn with
  | blank gap =>
    apply spans.pass
    rcases gap with kind | kind | ⟨type,kind⟩ <;> rw [kind] <;> rfl
  | colon gap =>
    apply spans.pass
    rw [gap]
    rfl
  | comma super gap read =>
    apply spans.pass
    rw [gap]
    rfl
  | string stop quoted ended grown =>
    obtain ⟨body,_,_,_,rfl⟩ := stringEnd_sound ended
    exact spans.grow grown (fresh_string quoted ended) (by dsimp only; omega)
  | literal stop start allowed ended grown =>
    obtain ⟨fresh,forward⟩ := fresh_literal start ended
    exact spans.grow grown fresh (by dsimp only; omega)
  | opening type bracket allowed grown =>
    have plain : type ≠ .string := label_opening bracket
    exact spans.grow grown (fresh_opening plain) (Nat.le_succ _)
  | closing type k token bracket path read opened same =>
    apply spans.close bracket (tokenAt_ok read)
    rw [same]
    exact label_closing bracket

theorem spans_init (tokens : List Token) : Spans js 0 0 tokens where
  spelt i _ inside := absurd inside (Nat.not_lt_zero i)
  started i _ inside := absurd inside (Nat.not_lt_zero i)
  stopped i _ inside := absurd inside (Nat.not_lt_zero i)
  ordered _ j _ _ _ inside := absurd inside (Nat.not_lt_zero j)
  gaps i _ _ inside := absurd inside (Nat.not_lt_zero (i + 1))
  last i _ inside := absurd inside (Nat.succ_ne_zero i)
  root _ inside := absurd inside (Nat.lt_irrefl 0)

/-- A run on an array, with its tokens in their places. -/
def Placed (js : Str) (s : Scan) : Prop :=
  ∃ tokens, s.tokens = some tokens ∧ Forest s.parser tokens ∧
    Spans js s.parser.pos s.parser.toknext tokens

theorem step_placed {s s' : Scan} (placed : Placed js s) (ran : step js s = .ok s') :
    Placed js s' := by
  obtain ⟨tokens,stored,forest,spans⟩ := placed
  obtain ⟨after,⟨tokens',kept,_,turn⟩,rfl⟩ := step_turn stored forest.super.high ran
  have grown := forest.turn turn
  exact ⟨tokens',kept,grown.moved rfl grown.super,spans.turn turn⟩

/-- What every accepted text has in its token array. -/
structure Tokenized (js : Str) (tokens : List Token) : Prop where
  filled : tokens ≠ []
  forest : ∃ parser, parser.toknext = tokens.length ∧ Forest parser tokens
  spans : ∃ pos, Spans js pos tokens.length tokens
  closed : ∀ (i : Nat) (token : Token), tokens[i]? = some token → token.isOpen = false

theorem parse_tokenized {counted last : Scan} (first : parse init js none = .ok counted)
    (second : parse init js (some (List.replicate counted.count Token.blank)) = .ok last)
    (nonzero : last.count ≠ 0) : ∃ tokens, last.tokens = some tokens ∧ Tokenized js tokens := by
  obtain ⟨tokens,stored,forest,full,count,closed⟩ := parse_shaped first second
  refine ⟨tokens,stored,?_,⟨last.parser,full.symm,forest⟩,?_,closed⟩
  · rintro rfl
    exact nonzero (count.trans full.symm)
  · obtain ⟨done,ran,rest⟩ := except_bind second
    have placed : Placed js done := scan_invariant (fun _ _ _ ran placed => step_placed placed ran)
      ran ⟨_,rfl,forest_init _,spans_init _⟩
    have same : last = done := by
      split at rest
      · cases rest
        rfl
      · split at rest
        · cases rest
        · cases rest
          rfl
    subst same
    obtain ⟨tokens',again,_,spans⟩ := placed
    cases stored.symm.trans again
    rw [full]
    exact ⟨last.parser.pos,spans⟩

end QuickConnect.Jsmn

namespace QuickConnect.JsonParser
open Jsmn ScanLoop

theorem jsmnParse_count {js : Str} {tokens : Option (List Token)} {last : Scan}
    (parsed : jsmnParse js tokens = .ok last) : last.count ≠ 0 := by
  rw [jsmnParse] at parsed
  split at parsed
  · cases parsed
  · split at parsed
    · cases parsed
    · rename_i nonzero
      cases parsed
      exact nonzero

theorem parseStart_tokenized {allocated : Bool} {js : Str} {ctx : Ctx}
    (started : parseStart allocated js = .ok ctx) :
    ctx.js = js ∧ ctx.cur = 0 ∧ Tokenized js ctx.tokens := by
  obtain ⟨counted,first,rest⟩ := except_bind started
  split at rest
  · cases rest
  · obtain ⟨last,second,same⟩ := except_bind rest
    cases same
    obtain ⟨tokens,stored,tokenized⟩ := parse_tokenized (jsmnParse_ok first) (jsmnParse_ok second)
      (jsmnParse_count second)
    refine ⟨rfl,rfl,?_⟩
    rw [stored]
    exact tokenized

end QuickConnect.JsonParser
