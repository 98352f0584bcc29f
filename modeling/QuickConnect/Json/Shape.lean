import QuickConnect.Json.Turn
import QuickConnect.Lib.Numbering

/-! The shape of the token array, for every text: a forest in the order in which its tokens
were added, each with the number of its children, and no child of an object but strings. -/
namespace QuickConnect.Jsmn
open Text ScanLoop QuickConnect.Numbering

def parentAt (tokens : List Token) (q : Nat) : Int := (tokens[q]?.map Token.parent).getD (-1)

structure Forest (parser : Parser) (tokens : List Token) : Prop where
  filled : parser.toknext ≤ tokens.length
  numbered : Numbered (parentAt tokens) parser.toknext
  super : Above (parentAt tokens) parser.toknext parser.toksuper
  sizes : ∀ i token, i < parser.toknext → tokens[i]? = some token →
    token.size = children (parentAt tokens) parser.toknext i
  keys : ∀ i child p super, i < parser.toknext → tokens[i]? = some child →
    child.parent = (p : Nat) → tokens[p]? = some super → super.type = .object →
    child.type = .string

variable {js : Str} {parser parser' : Parser} {tokens tokens' : List Token} {child t : Token}
  {n : Nat}

theorem parentAt_found {q : Nat} (found : tokens[q]? = some t) : parentAt tokens q = t.parent := by
  rw [parentAt,found]
  rfl

theorem Grown.found (grown : Grown tokens tokens' n child) {q : Nat} {t' : Token} (before : q < n)
    (found : tokens'[q]? = some t') : ∃ t, tokens[q]? = some t ∧ t'.type = t.type ∧
      t'.start = t.start ∧ t'.stop = t.stop ∧ t'.parent = t.parent ∧
      t'.size = t.size + if (q : Int) = child.parent then 1 else 0 := by
  rw [grown.older q before] at found
  obtain ⟨t,old,rfl⟩ := Option.map_eq_some_iff.mp found
  refine ⟨t,old,?_⟩
  by_cases parent : (q : Int) = child.parent
  · simp only [if_pos parent,and_self]
  · simp only [if_neg parent,and_self,Nat.add_zero]

theorem Grown.parentAt_older (grown : Grown tokens tokens' n child) :
    ∀ q < n, parentAt tokens' q = parentAt tokens q := by
  intro q before
  rw [parentAt,grown.older q before,parentAt]
  cases tokens[q]? with
  | none => rfl
  | some t =>
    simp only [Option.map_some,Option.getD_some]
    split <;> rfl

theorem Forest.moved (forest : Forest parser tokens) (next : parser'.toknext = parser.toknext)
    (super : Above (parentAt tokens) parser.toknext parser'.toksuper) : Forest parser' tokens where
  filled := next ▸ forest.filled
  numbered := next ▸ forest.numbered
  super := next ▸ super
  sizes := next ▸ forest.sizes
  keys := next ▸ forest.keys

theorem Forest.grow (forest : Forest parser tokens)
    (grown : Grown tokens tokens' parser.toknext child) (parent : child.parent = parser.toksuper)
    (childless : child.size = 0)
    (typed : child.type = .string ∨
      ∀ super, tokenAt tokens parser.toksuper = .ok super → super.type ≠ .object)
    (next : parser'.toknext = parser.toknext + 1)
    (super : parser'.toksuper = parser.toksuper ∨ parser'.toksuper = parser.toknext) :
    Forest parser' tokens' := by
  have older := grown.parentAt_older
  have own : parentAt tokens' parser.toknext = parser.toksuper :=
    (parentAt_found grown.fresh).trans parent
  have kept := forest.super.congr older
  have numbered : Numbered (parentAt tokens') (parser.toknext + 1) := by
    apply (forest.numbered.congr older).push
    rw [own]
    exact kept
  refine ⟨?_,?_,?_,?_,?_⟩
  · rw [next,grown.length]
    exact (List.getElem?_eq_some_iff.mp grown.fresh).1.trans_eq grown.length
  · rw [next]
    exact numbered
  · rw [next]
    rcases super with same | same
    · rw [same]
      exact kept.push (Int.le_of_eq own.symm)
    · rw [same,← newest]
      exact above_newest _ _
  · intro i token inside found
    rw [next] at inside ⊢
    rcases Nat.lt_succ_iff_lt_or_eq.mp inside with before | rfl
    · obtain ⟨old,was,_,_,_,_,size⟩ := grown.found before found
      rw [size,forest.sizes i old before was,children_push,children_congr older,own,parent]
      simp only [eq_comm]
    · cases found.symm.trans grown.fresh
      rw [childless,numbered.childless]
  · intro i token p super inside found under above object
    rw [next] at inside
    rcases Nat.lt_succ_iff_lt_or_eq.mp inside with before | rfl
    · obtain ⟨old,was,type,_,_,link,_⟩ := grown.found before found
      rw [link] at under
      have earlier : p < parser.toknext := by
        have high := (forest.numbered i before).high
        rw [parentAt_found was,under] at high
        exact (Int.ofNat_lt.mp high).trans before
      obtain ⟨upper,there,kind,_⟩ := grown.found earlier above
      rw [type]
      exact forest.keys i old p upper before was under there (kind ▸ object)
    · cases found.symm.trans grown.fresh
      rcases typed with string | allowed
      · exact string
      · have earlier : p < parser.toknext := by
          have high := forest.super.high
          rw [← parent,under] at high
          exact Int.ofNat_lt.mp high
        obtain ⟨upper,there,kind,_⟩ := grown.found earlier above
        rw [← parent,under] at allowed
        refine absurd (kind ▸ object) (allowed upper ?_)
        rw [tokenAt,if_neg (by omega),Int.toNat_natCast,there]

/-- A stop filled in leaves the shape. -/
theorem Forest.stopped {k : Nat} {stop : Int} (forest : Forest parser tokens)
    (found : tokens[k]? = some t) : Forest parser (tokens.set k { t with stop := stop }) := by
  have room := (List.getElem?_eq_some_iff.mp found).1
  have parents : parentAt (tokens.set k { t with stop := stop }) = parentAt tokens := by
    funext q
    by_cases same : k = q
    · subst same
      rw [parentAt_found (List.getElem?_set_self room),parentAt_found found]
    · rw [parentAt,List.getElem?_set_ne same,parentAt]
  refine ⟨?_,?_,?_,?_,?_⟩
  · rw [List.length_set]
    exact forest.filled
  · rw [parents]
    exact forest.numbered
  · rw [parents]
    exact forest.super
  · intro i token inside there
    obtain ⟨old,was,_,_,_,size,_⟩ := stopped_found found there
    rw [parents,size]
    exact forest.sizes i old inside was
  · intro i token p super inside there under above object
    obtain ⟨old,was,type,_,link,_⟩ := stopped_found found there
    obtain ⟨upper,up,kind,_⟩ := stopped_found found above
    rw [type]
    exact forest.keys i old p upper inside was (link ▸ under) up (kind ▸ object)

theorem Forest.above {i k : Int} (forest : Forest parser tokens)
    (path : Relation.ReflTransGen (Under tokens) i k)
    (above : Above (parentAt tokens) parser.toknext i) :
    Above (parentAt tokens) parser.toknext k := by
  induction path with
  | refl => exact above
  | tail _ link ih =>
    obtain ⟨token,read,rfl⟩ := link
    obtain ⟨place,rfl⟩ := Int.eq_ofNat_of_zero_le (tokenAt_nonneg read)
    rw [← parentAt_found (tokenAt_ok read)]
    exact ih.up forest.numbered

theorem Forest.turn (forest : Forest parser tokens)
    (turn : Turn js parser tokens parser' tokens') : Forest parser' tokens' := by
  cases turn with
  | blank => exact forest
  | colon => exact forest.moved rfl (above_newest _ _)
  | comma super gap read =>
    have link : Under tokens parser.toksuper super.parent := ⟨super,read,rfl⟩
    exact forest.moved rfl (forest.above (.single link) forest.super)
  | string stop quoted ended grown =>
    exact forest.grow grown rfl rfl (Or.inl rfl) rfl (Or.inl rfl)
  | literal stop start allowed ended grown =>
    exact forest.grow grown rfl rfl (Or.inr allowed) rfl (Or.inl rfl)
  | opening type bracket allowed grown =>
    exact forest.grow grown rfl rfl (Or.inr allowed) rfl (Or.inr rfl)
  | closing type k token bracket path read opened same =>
    have above := forest.above path (above_newest _ _)
    have link : Under tokens k token.parent := ⟨token,read,rfl⟩
    have moved : Forest { parser with toksuper := token.parent } tokens :=
      forest.moved rfl (forest.above (.single link) above)
    exact moved.stopped (tokenAt_ok read)

theorem forest_init (tokens : List Token) : Forest init tokens where
  filled := Nat.zero_le _
  numbered j inside := absurd inside (Nat.not_lt_zero j)
  super := above_newest _ 0
  sizes i _ inside := absurd inside (Nat.not_lt_zero i)
  keys i _ _ _ inside := absurd inside (Nat.not_lt_zero i)

theorem turn_length (turn : Turn js parser tokens parser' tokens') :
    tokens'.length = tokens.length := by
  cases turn with
  | blank => rfl
  | colon => rfl
  | comma => rfl
  | string stop quoted ended grown => exact grown.length
  | literal stop start allowed ended grown => exact grown.length
  | opening type bracket allowed grown => exact grown.length
  | closing => exact List.length_set

variable {s s' : Scan} {size : Nat}

/-- A run on an array of the given size: the tokens it has added are a forest, and it has
counted them. -/
def Shaped (size : Nat) (s : Scan) : Prop :=
  s.count = s.parser.toknext ∧
    ∃ tokens, s.tokens = some tokens ∧ tokens.length = size ∧ Forest s.parser tokens

theorem step_shaped (shaped : Shaped size s) (ran : step js s = .ok s') : Shaped size s' := by
  obtain ⟨counted,tokens,stored,length,forest⟩ := shaped
  obtain ⟨after,⟨tokens',kept,added,turn⟩,rfl⟩ := step_turn stored forest.super.high ran
  have grown := forest.turn turn
  refine ⟨?_,tokens',kept,(turn_length turn).trans length,grown.moved rfl grown.super⟩
  change after.count = after.parser.toknext
  omega

/-- A run without an array at the same place, with the same count. -/
def CountsWith (size : Nat) (s u : Scan) : Prop :=
  Shaped size s ∧ u.tokens = none ∧ u.parser.pos = s.parser.pos ∧ u.count = s.count

theorem turn_counts {u : Scan} (bare : u.tokens = none) (place : u.parser.pos = parser.pos)
    (turn : Turn js parser tokens parser' tokens') :
    ∃ after, switch js u (label (js[parser.pos]?.getD 0)) = .ok after ∧ after.tokens = none ∧
      after.parser.pos = parser'.pos ∧ after.count + parser.toknext = u.count + parser'.toknext := by
  cases turn with
  | blank gap =>
    refine ⟨u,?_,bare,place,rfl⟩
    rcases gap with blank | comma | ⟨type,closing⟩
    · rw [blank,switch]
    · rw [comma,switch,Jsmn.comma,bare]
    · rw [closing,switch,Jsmn.closing,bare]
  | colon gap =>
    rw [gap]
    exact ⟨_,rfl,bare,place,rfl⟩
  | comma super gap read =>
    refine ⟨u,?_,bare,place,rfl⟩
    rw [gap,switch,Jsmn.comma,bare]
  | string stop quoted ended grown =>
    refine ⟨⟨{ u.parser with pos := stop },none,u.count + 1⟩,?_,rfl,rfl,by dsimp only; omega⟩
    rw [quoted,switch,Jsmn.string,parseString,place,ended,bare]
    rfl
  | literal stop start allowed ended grown =>
    refine ⟨⟨{ u.parser with pos := stop - 1 },none,u.count + 1⟩,?_,rfl,rfl,by dsimp only; omega⟩
    rw [start,switch,Jsmn.literal,literalAllowed,parsePrimitive,place,ended,bare]
    rfl
  | opening type bracket allowed grown =>
    refine ⟨{ u with count := u.count + 1 },?_,bare,place,by dsimp only; omega⟩
    rw [bracket,switch,Jsmn.opening,bare]
  | closing type k token bracket path read opened same =>
    refine ⟨u,?_,bare,place,rfl⟩
    rw [bracket,switch,Jsmn.closing,bare]

theorem step_counts {u : Scan} (ran : step js s = .ok s') (counts : CountsWith size s u) :
    ∃ u', step js u = .ok u' ∧ CountsWith size s' u' := by
  obtain ⟨shaped,bare,place,same⟩ := counts
  have shaped' := step_shaped shaped ran
  obtain ⟨counted,tokens,stored,_,forest⟩ := shaped
  obtain ⟨middle,⟨tokens',kept,added,turn⟩,rfl⟩ := step_turn stored forest.super.high ran
  obtain ⟨after,switched,bare',place',more⟩ := turn_counts bare place turn
  refine ⟨next after,?_,shaped',bare',congrArg (· + 1) place',?_⟩
  · rw [step,place,switched]
    rfl
  · change after.count = middle.count
    omega

theorem more_same {u : Scan} (counts : CountsWith size s u) : more js u = more js s := by
  rw [more,more,counts.2.2.1]

/-- Both passes over a text count the same tokens, so that the second one fills the array. -/
theorem parse_shaped {counted last : Scan} (first : parse init js none = .ok counted)
    (second : parse init js (some (List.replicate counted.count Token.blank)) = .ok last) :
    ∃ tokens, last.tokens = some tokens ∧ Forest last.parser tokens ∧
      tokens.length = last.parser.toknext ∧ last.count = last.parser.toknext ∧
      ∀ (i : Nat) (token : Token), tokens[i]? = some token → token.isOpen = false := by
  obtain ⟨done,ran,rest⟩ := except_bind second
  have counts : CountsWith counted.count
      ⟨init,some (List.replicate counted.count Token.blank),0⟩ ⟨init,none,0⟩ :=
    ⟨⟨rfl,_,rfl,List.length_replicate,forest_init _⟩,rfl,rfl,rfl⟩
  obtain ⟨bare,followed,⟨same,tokens,stored,length,forest⟩,unstored,_,count⟩ := scan_followed
    (fun _ _ related => more_same related) (fun _ _ _ ran related => step_counts ran related) ran
    counts
  obtain ⟨done',ran',rest'⟩ := except_bind first
  change scan (more js) (step js) js.length ⟨init,none,0⟩ = .ok done' at ran'
  cases followed.symm.trans ran'
  simp only [unstored] at rest'
  cases rest'
  rw [stored] at rest
  simp only at rest
  split at rest
  · cases rest
  · rename_i closed
    cases rest
    have full : tokens.length = last.parser.toknext := by omega
    refine ⟨tokens,stored,forest,full,same,?_⟩
    intro i token found
    rw [← full,List.take_length,List.any_eq_true] at closed
    cases opened : token.isOpen with
    | false => rfl
    | true => exact absurd ⟨token,List.mem_of_getElem? found,opened⟩ closed

end QuickConnect.Jsmn
