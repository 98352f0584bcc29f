import QuickConnect.Claim.Data
import Mathlib.Data.List.Induction
import Mathlib.Data.List.Infix

/-! escape_new_line and unescape_new_line: the line breaks of a PEM text as the claim
service wants them. -/
namespace QuickConnect.Claim
open Text
variable {Key : Type}

section Escape

/-- The loop of escape_new_line: `str` indexes the CSR and `target` the payload. -/
def escapeLoop (csr : Region maxCsrSize) : Nat → Nat → Region maxPayloadSize → Nat →
    Option (Region maxPayloadSize × Nat)
  | 0, _, _, _ => none
  | fuel + 1, str, payload, target => do
    let byte ← csr.bytes[str]?
    if byte = 0 then some (payload,target)
    else if byte = newLine then do
      let payload ← payload.write target [backslash,110]
      escapeLoop csr fuel (str + 1) payload (target + 2)
    else do
      let payload ← payload.write target [byte]
      escapeLoop csr fuel (str + 1) payload (target + 1)

def escapeNewLine (d : ClaimData Key) : Option (ClaimData Key) := do
  let str ← d.csr.text
  -- An empty text has no last byte to look at.
  let last ← str.getLast?
  let csr := if last = newLine then d.csr.store (str.length - 1) 0 else d.csr
  let (payload,target) ← escapeLoop csr maxCsrSize 0 (.zeroed maxPayloadSize) 0
  let payload ← payload.write target [0]
  let escaped ← payload.text
  let csr ← csr.write 0 (escaped ++ [0])
  some { d with csr := csr, payload := payload }

def escapeByte (byte : UInt8) : Str := if byte = newLine then [backslash,110] else [byte]

/-- Every line break spelt as the two characters `\n`. -/
def escape (text : Str) : Str := text.flatMap escapeByte

/-- The text without its one trailing line break. -/
def trimmed (text : Str) : Str := if text.getLast? = some newLine then text.dropLast else text

@[simp] theorem escape_nil : escape [] = [] := rfl

theorem escape_cons (byte : UInt8) (text : Str) :
    escape (byte :: text) = escapeByte byte ++ escape text := rfl

theorem escape_newLine (text : Str) : escape (newLine :: text) = backslash :: 110 :: escape text := rfl

theorem escape_other {byte : UInt8} (other : byte ≠ newLine) (text : Str) :
    escape (byte :: text) = byte :: escape text := by
  rw [escape_cons,escapeByte,if_neg other]
  rfl

theorem mem_escape {byte : UInt8} {text : Str} (inside : byte ∈ escape text) :
    byte = backslash ∨ byte = 110 ∨ byte ∈ text := by
  obtain ⟨source,found,inside⟩ := List.mem_flatMap.mp inside
  rw [escapeByte] at inside
  split at inside
  · rcases List.mem_cons.mp inside with same | inside
    · exact Or.inl same
    · exact Or.inr (Or.inl (List.mem_singleton.mp inside))
  · rw [List.mem_singleton.mp inside]
    exact Or.inr (Or.inr found)

theorem escape_clean {text : Str} (clean : 0 ∉ text) : 0 ∉ escape text := by
  intro inside
  rcases mem_escape inside with same | same | inside
  · cases same
  · cases same
  · exact clean inside

/-- Writing behind what is written already leaves that and the new bytes in front. -/
theorem written_front {r r' : Region maxPayloadSize} {front bytes : Str}
    (held : r.bytes.take front.length = front) (fits : front.length + bytes.length ≤ maxPayloadSize)
    (written : r.write front.length bytes = some r') :
    r'.bytes.take (front ++ bytes).length = front ++ bytes := by
  obtain ⟨found,same,whole⟩ := r.write_some fits
  cases Option.some.inj (same.symm.trans written)
  rw [whole,held]
  exact List.take_left

theorem escapeLoop_text (csr : Region maxCsrSize) (text behind : Str) (clean : 0 ∉ text) :
    ∀ (fuel str : Nat) (payload : Region maxPayloadSize) (front : Str),
      csr.bytes.drop str = text ++ 0 :: behind → text.length < fuel →
      payload.bytes.take front.length = front →
      (front ++ escape text).length ≤ maxPayloadSize →
      ∃ payload', escapeLoop csr fuel str payload front.length =
          some (payload',(front ++ escape text).length) ∧
        payload'.bytes.take (front ++ escape text).length = front ++ escape text := by
  induction text with
  | nil =>
    intro fuel str payload front rest enough held fits
    cases fuel with
    | zero => exact absurd enough (Nat.not_lt_zero _)
    | succ fuel =>
      have byte : csr.bytes[str]? = some 0 := by
        rw [← List.head?_drop,rest]
        rfl
      refine ⟨payload,?_,?_⟩
      · rw [escapeLoop,byte]
        simp
      · rw [escape_nil,List.append_nil]
        exact held
  | cons byte text ih =>
    intro fuel str payload front rest enough held fits
    cases fuel with
    | zero => exact absurd enough (Nat.not_lt_zero _)
    | succ fuel =>
      have next : csr.bytes[str]? = some byte := by
        rw [← List.head?_drop,rest]
        rfl
      have tail : csr.bytes.drop (str + 1) = text ++ 0 :: behind := by
        rw [← List.drop_drop,rest]
        rfl
      have nonzero : byte ≠ 0 := by
        intro zero
        apply clean
        simp [zero]
      have fewer : text.length < fuel := by
        simp only [List.length_cons] at enough
        omega
      have step : ∀ bytes, escape (byte :: text) = bytes ++ escape text →
          ∃ written, payload.write front.length bytes = some written ∧
            ∃ payload', escapeLoop csr fuel (str + 1) written (front ++ bytes).length =
                some (payload',(front ++ escape (byte :: text)).length) ∧
              payload'.bytes.take (front ++ escape (byte :: text)).length =
                front ++ escape (byte :: text) := by
        intro bytes same
        rw [same] at fits
        have room : front.length + bytes.length ≤ maxPayloadSize := by
          simp only [List.length_append] at fits
          omega
        obtain ⟨written,wrote,_⟩ := payload.write_some room
        obtain ⟨payload',ran,whole⟩ := ih (fun inside => clean (List.mem_cons_of_mem _ inside))
          fuel (str + 1) written (front ++ bytes) tail fewer
          (written_front held room wrote) (by rw [List.append_assoc]; exact fits)
        rw [List.append_assoc,← same] at ran whole
        exact ⟨written,wrote,payload',ran,whole⟩
      by_cases line : byte = newLine
      · subst line
        obtain ⟨written,wrote,payload',ran,whole⟩ := step [backslash,110] rfl
        rw [List.length_append] at ran
        refine ⟨payload',?_,whole⟩
        rw [escapeLoop,next]
        simpa [nonzero,wrote] using ran
      · obtain ⟨written,wrote,payload',ran,whole⟩ := step [byte] (escape_other line text)
        rw [List.length_append] at ran
        refine ⟨payload',?_,whole⟩
        rw [escapeLoop,next]
        simpa [nonzero,line,wrote] using ran

theorem trimmed_held {csr : Region maxCsrSize} {text : Str} {last : UInt8}
    (held : csr.text = some text) (ends : text.getLast? = some last) :
    (if last = newLine then csr.store (text.length - 1) 0 else csr).text = some (trimmed text) := by
  rw [trimmed,ends]
  by_cases line : last = newLine
  · subst line
    obtain ⟨clean,rest,whole⟩ := CString.read_some held
    obtain ⟨front,rfl⟩ := List.getLast?_eq_some_iff.mp ends
    have stored : (csr.store ((front ++ [newLine]).length - 1) 0).bytes =
        front ++ 0 :: 0 :: rest := by
      change csr.bytes.set _ 0 = _
      rw [whole,List.length_append,List.length_singleton,Nat.add_sub_cancel,List.append_assoc,
        List.set_append_right _ _ (Nat.le_refl _),Nat.sub_self]
      rfl
    rw [if_pos rfl,if_pos rfl,Region.text,stored,List.dropLast_concat]
    apply CString.read_terminated
    exact fun inside => clean (List.mem_append_left _ inside)
  · rw [if_neg line,if_neg (fun same => line (Option.some.inj same))]
    exact held

/-- escape_new_line leaves the escaped text in the CSR. -/
theorem escapeNewLine_text {d : ClaimData Key} {text : Str} (held : d.csr.text = some text)
    (filled : text ≠ []) (fits : (escape (trimmed text)).length < maxCsrSize) :
    ∃ d', escapeNewLine d = some d' ∧ d'.csr.text = some (escape (trimmed text)) := by
  obtain ⟨last,ends⟩ := Option.ne_none_iff_exists'.mp (mt List.getLast?_eq_none_iff.mp filled)
  have kept := trimmed_held held ends
  generalize stripped : (if last = newLine then d.csr.store (text.length - 1) 0 else d.csr) = csr
    at kept
  obtain ⟨clean,behind,whole⟩ := CString.read_some kept
  have short : (trimmed text).length < maxCsrSize := Region.text_length kept
  have room : (escape (trimmed text)).length < maxPayloadSize := Nat.lt_trans fits (by decide)
  obtain ⟨payload,ran,front⟩ := escapeLoop_text csr (trimmed text) behind clean maxCsrSize 0
    (.zeroed maxPayloadSize) [] whole short rfl (Nat.le_of_lt room)
  rw [List.nil_append] at ran front
  rw [List.length_nil] at ran
  obtain ⟨payload',terminated,escaped⟩ := Region.write_terminator front (escape_clean clean) room
  have again : 0 + (escape (trimmed text) ++ [0]).length ≤ maxCsrSize := by
    rw [Nat.zero_add,List.length_append,List.length_singleton]
    exact fits
  have unsplit : 0 ∉ csr.bytes.take 0 ++ escape (trimmed text) := escape_clean clean
  obtain ⟨csr',copied,text'⟩ := Region.write_text unsplit again
  refine ⟨{ d with csr := csr', payload := payload' },?_,text'⟩
  rw [escapeNewLine,held]
  simp only [Option.bind_eq_bind,Option.bind_some,ends,stripped]
  rw [ran]
  simp only [Option.bind_some]
  rw [terminated]
  simp only [Option.bind_some,escaped,copied]

end Escape

section Unescape

/-- The loop of unescape_new_line: both pointers are in the one string. -/
def unescapeLoop : Nat → List UInt8 → Nat → Nat → Option (List UInt8)
  | 0, _, _, _ => none
  | fuel + 1, memory, str, target => do
    let byte ← memory[str]?
    if byte = 0 then CString.store memory target 0
    else if byte = backslash then do
      let next ← memory[str + 1]?
      if next = 110 then do
        let memory ← CString.store memory target newLine
        -- The byte behind the escape is copied whatever it is.
        let follow ← memory[str + 2]?
        let memory ← CString.store memory (target + 1) follow
        unescapeLoop fuel memory (str + 3) (target + 2)
      else do
        let memory ← CString.store memory target next
        unescapeLoop fuel memory (str + 2) (target + 1)
    else do
      let memory ← CString.store memory target byte
      unescapeLoop fuel memory (str + 1) (target + 1)

def unescapeNewLine (memory : List UInt8) : Option (List UInt8) :=
  unescapeLoop memory.length memory 0 0

/-- What the loop of unescape_new_line makes of a text. -/
def unescape : Str → Str
  | [] => []
  | byte :: rest =>
    if byte = backslash then
      match rest with
      | [] => []
      | next :: rest =>
        if next = 110 then
          match rest with
          | [] => [newLine]
          | follow :: rest => newLine :: follow :: unescape rest
        else next :: unescape rest
    else byte :: unescape rest

section Iterations
variable (fuel : Nat) (done gap rest : List UInt8)

theorem unescapeLoop_end : ∃ left, unescapeLoop (fuel + 1) (done ++ gap ++ 0 :: rest)
    (done.length + gap.length) done.length = some (done ++ 0 :: left) := by
  obtain ⟨left,_,stored⟩ := CString.store_behind done gap 0 0 rest
  refine ⟨left ++ rest,?_⟩
  rw [unescapeLoop,CString.peek_at]
  simpa using stored

theorem unescapeLoop_plain {byte : UInt8} (nonzero : byte ≠ 0) (plain : byte ≠ backslash) :
    ∃ left, unescapeLoop (fuel + 1) (done ++ gap ++ byte :: rest)
        (done.length + gap.length) done.length =
      unescapeLoop fuel ((done ++ [byte]) ++ left ++ rest)
        ((done ++ [byte]).length + left.length) (done ++ [byte]).length := by
  obtain ⟨left,same,stored⟩ := CString.store_behind done gap byte byte rest
  refine ⟨left,?_⟩
  have cursor : done.length + gap.length + 1 = (done ++ [byte]).length + left.length := by
    rw [same,List.length_append,List.length_singleton]
    omega
  rw [unescapeLoop,CString.peek_at,← cursor,List.length_append,List.length_singleton]
  simp only [Option.bind_eq_bind,Option.bind_some,nonzero,plain,if_false,stored]

theorem unescapeLoop_other {next : UInt8} (other : next ≠ 110) :
    ∃ left, unescapeLoop (fuel + 1) (done ++ gap ++ backslash :: next :: rest)
        (done.length + gap.length) done.length =
      unescapeLoop fuel ((done ++ [next]) ++ left ++ rest)
        ((done ++ [next]).length + left.length) (done ++ [next]).length := by
  obtain ⟨left,same,stored⟩ := CString.store_behind done (gap ++ [backslash]) next next rest
  have second := CString.peek_at done (gap ++ [backslash]) next rest
  refine ⟨left,?_⟩
  have whole : done ++ (gap ++ [backslash]) ++ next :: rest =
      done ++ gap ++ backslash :: next :: rest := by simp
  have cursor : done.length + gap.length + 2 = (done ++ [next]).length + left.length := by
    rw [same,List.length_append,List.length_append,List.length_singleton,List.length_singleton]
    omega
  rw [whole] at stored second
  rw [List.length_append,List.length_singleton,← Nat.add_assoc] at second
  rw [unescapeLoop,CString.peek_at,← cursor,List.length_append,List.length_singleton]
  have nonzero : backslash ≠ 0 := by decide
  simp only [Option.bind_eq_bind,Option.bind_some,nonzero,other,if_false,if_true,second,stored]

theorem unescapeLoop_newLine (follow : UInt8) :
    ∃ left, unescapeLoop (fuel + 1) (done ++ gap ++ backslash :: 110 :: follow :: rest)
        (done.length + gap.length) done.length =
      unescapeLoop fuel ((done ++ [newLine,follow]) ++ left ++ rest)
        ((done ++ [newLine,follow]).length + left.length) (done ++ [newLine,follow]).length := by
  have second := CString.peek_at done (gap ++ [backslash]) 110 (follow :: rest)
  obtain ⟨once,same,stored⟩ :=
    CString.store_behind done gap backslash newLine (110 :: follow :: rest)
  obtain ⟨left,kept,copied⟩ :=
    CString.store_behind (done ++ [newLine]) (once ++ [110]) follow follow rest
  have third := CString.peek_at (done ++ [newLine]) (once ++ [110]) follow rest
  refine ⟨left,?_⟩
  have whole : done ++ (gap ++ [backslash]) ++ 110 :: follow :: rest =
      done ++ gap ++ backslash :: 110 :: follow :: rest := by simp
  have moved : done ++ [newLine] ++ (once ++ [110]) ++ follow :: rest =
      done ++ [newLine] ++ once ++ 110 :: follow :: rest := by simp
  rw [whole,List.length_append,List.length_singleton,← Nat.add_assoc] at second
  rw [moved] at third copied
  have read : (done ++ [newLine]).length + (once ++ [110]).length =
      done.length + gap.length + 2 := by
    simp only [List.length_append,List.length_singleton,same]
    omega
  have cursor : done.length + gap.length + 3 =
      (done ++ [newLine,follow]).length + left.length := by
    simp only [kept,List.length_append,List.length_cons,List.length_nil,same]
    omega
  have front : done ++ [newLine] ++ [follow] = done ++ [newLine,follow] := by simp
  have target : (done ++ [newLine,follow]).length = done.length + 2 := by simp
  rw [read] at third
  rw [front,List.length_append,List.length_singleton] at copied
  rw [unescapeLoop,CString.peek_at,← cursor,target]
  have nonzero : backslash ≠ 0 := by decide
  simp only [Option.bind_eq_bind,Option.bind_some,nonzero,if_false,if_true,second,stored,third,
    copied]

end Iterations

theorem unescape_plain {byte : UInt8} (plain : byte ≠ backslash) (rest : Str) :
    unescape (byte :: rest) = byte :: unescape rest := by
  rw [unescape.eq_def]
  exact if_neg plain

theorem unescape_newLine (follow : UInt8) (rest : Str) :
    unescape (backslash :: 110 :: follow :: rest) = newLine :: follow :: unescape rest := by
  rw [unescape.eq_def]
  simp

theorem unescape_other {next : UInt8} (other : next ≠ 110) (rest : Str) :
    unescape (backslash :: next :: rest) = next :: unescape rest := by
  rw [unescape.eq_def]
  simp [other]

/-- The loop reads this text to its end, wherever it has got to. One spare zero behind the
terminator is enough for it to stay in the array. -/
def Unescapes (text : Str) : Prop :=
  ∀ (fuel : Nat) (done gap rest : List UInt8), 0 ∉ text → 0 ∉ done → text.length < fuel →
    ∃ memory, unescapeLoop fuel (done ++ gap ++ (text ++ 0 :: 0 :: rest))
        (done.length + gap.length) done.length = some memory ∧
      CString.read memory = some (done ++ unescape text)

/-- One iteration appends `front` and leaves `tail` to read. -/
theorem Unescapes.iterate {text tail : Str} (unescapes : Unescapes tail) (front : Str)
    (shorter : tail.length < text.length) (same : unescape text = front ++ unescape tail)
    (clean : 0 ∉ text → 0 ∉ front ∧ 0 ∉ tail)
    (iteration : 0 ∉ text → ∀ (fuel : Nat) (done gap rest : List UInt8), ∃ left,
      unescapeLoop (fuel + 1) (done ++ gap ++ (text ++ rest)) (done.length + gap.length) done.length =
        unescapeLoop fuel ((done ++ front) ++ left ++ (tail ++ rest))
          ((done ++ front).length + left.length) (done ++ front).length) : Unescapes text := by
  intro fuel done gap rest unended whole enough
  obtain ⟨fuel,rfl⟩ := Nat.exists_eq_succ_of_ne_zero (Nat.ne_zero_of_lt enough)
  obtain ⟨cleanFront,cleanTail⟩ := clean unended
  have longer : 0 ∉ done ++ front := by simp [whole,cleanFront]
  obtain ⟨left,ran⟩ := iteration unended fuel done gap (0 :: 0 :: rest)
  obtain ⟨memory,finished,held⟩ :=
    unescapes fuel (done ++ front) left rest cleanTail longer (by omega)
  refine ⟨memory,ran.trans finished,?_⟩
  rw [held,same,List.append_assoc]

theorem unescapeLoop_text (text : Str) : Unescapes text := by
  induction text using unescape.induct with
  | case1 =>
    intro fuel done gap rest clean whole enough
    obtain ⟨fuel,rfl⟩ := Nat.exists_eq_succ_of_ne_zero (Nat.ne_zero_of_lt enough)
    obtain ⟨left,ran⟩ := unescapeLoop_end fuel done gap (0 :: rest)
    refine ⟨_,ran,?_⟩
    rw [unescape,List.append_nil]
    exact CString.read_terminated whole left
  | case2 =>
    intro fuel done gap rest clean whole enough
    obtain ⟨fuel,rfl⟩ : ∃ more, fuel = more + 1 + 1 := ⟨fuel - 2,by simp at enough; omega⟩
    -- The terminator itself is copied and the spare zero ends the loop.
    obtain ⟨left,ran⟩ := unescapeLoop_other (fuel + 1) done gap (0 :: rest)
      (show (0 : UInt8) ≠ 110 by decide)
    obtain ⟨last,ended⟩ := unescapeLoop_end fuel (done ++ [0]) left rest
    refine ⟨_,ran.trans ended,?_⟩
    have nothing : unescape [backslash] = [] := rfl
    rw [nothing,List.append_nil,List.append_assoc]
    exact CString.read_terminated whole (0 :: last)
  | case3 =>
    intro fuel done gap rest clean whole enough
    obtain ⟨fuel,rfl⟩ : ∃ more, fuel = more + 1 + 1 := ⟨fuel - 2,by simp at enough; omega⟩
    obtain ⟨left,ran⟩ := unescapeLoop_newLine (fuel + 1) done gap (0 :: rest) 0
    obtain ⟨last,ended⟩ := unescapeLoop_end fuel (done ++ [newLine,0]) left rest
    refine ⟨_,ran.trans ended,?_⟩
    have split : done ++ [newLine,0] ++ 0 :: last = (done ++ [newLine]) ++ 0 :: 0 :: last := by simp
    rw [split]
    apply CString.read_terminated
    intro inside
    rcases List.mem_append.mp inside with inside | inside
    · exact whole inside
    · cases List.mem_singleton.mp inside
  | case4 follow tail ih =>
    apply ih.iterate [newLine,follow]
    · simp only [List.length_cons]
      omega
    · exact unescape_newLine follow tail
    · intro clean
      have line : (0 : UInt8) ≠ newLine := by decide
      simp only [List.mem_cons,not_or] at clean
      exact ⟨by simp [line,clean.2.2.1],clean.2.2.2⟩
    · intro _ fuel done gap rest
      exact unescapeLoop_newLine fuel done gap (tail ++ rest) follow
  | case5 next tail other ih =>
    apply ih.iterate [next]
    · simp only [List.length_cons]
      omega
    · exact unescape_other other tail
    · intro clean
      simp only [List.mem_cons,not_or] at clean
      exact ⟨by simp [clean.2.1],clean.2.2⟩
    · intro _ fuel done gap rest
      exact unescapeLoop_other fuel done gap (tail ++ rest) other
  | case6 byte tail plain ih =>
    apply ih.iterate [byte]
    · exact Nat.lt_succ_self _
    · exact unescape_plain plain tail
    · intro clean
      simp only [List.mem_cons,not_or] at clean
      exact ⟨by simp [clean.1],clean.2⟩
    · intro clean fuel done gap rest
      have nonzero : byte ≠ 0 := fun zero => clean (by simp [zero])
      exact unescapeLoop_plain fuel done gap (tail ++ rest) nonzero plain

theorem unescapeNewLine_text {text : Str} (clean : 0 ∉ text) (rest : List UInt8) :
    ∃ memory, unescapeNewLine (text ++ 0 :: 0 :: rest) = some memory ∧
      CString.read memory = some (unescape text) := by
  apply unescapeLoop_text text _ [] [] rest clean
  · exact List.not_mem_nil
  · simp only [List.length_append,List.length_cons]
    omega

theorem unescape_escape_newLine {other : UInt8} (different : other ≠ newLine) (text : Str) :
    unescape (escape (newLine :: other :: text)) = newLine :: other :: unescape (escape text) := by
  rw [escape_newLine,escape_other different,unescape_newLine]

theorem unescape_escape_blank (text : Str) :
    unescape (escape (newLine :: newLine :: text)) =
      newLine :: backslash :: unescape (110 :: escape text) := by
  rw [escape_newLine,escape_newLine,unescape_newLine]

theorem unescape_escape_other {byte : UInt8} (different : byte ≠ newLine)
    (plain : byte ≠ backslash) (text : Str) :
    unescape (escape (byte :: text)) = byte :: unescape (escape text) := by
  rw [escape_other different,unescape_plain plain]

def blankLine : Str := [newLine,newLine]

theorem blankLine_cons {byte : UInt8} {text : Str} (different : byte ≠ newLine) :
    blankLine <:+: byte :: text ↔ blankLine <:+: text := by
  rw [List.infix_cons_iff,blankLine,List.cons_prefix_cons]
  constructor
  · rintro (⟨same,_⟩ | inside)
    · exact absurd same.symm different
    · exact inside
  · exact Or.inr

theorem blankLine_newLine {other : UInt8} {text : Str} (different : other ≠ newLine) :
    blankLine <:+: newLine :: other :: text ↔ blankLine <:+: text := by
  rw [List.infix_cons_iff,blankLine_cons different]
  constructor
  · rintro (⟨rest,same⟩ | inside)
    · cases same
      exact absurd rfl different
    · exact inside
  · exact Or.inr

/-- The line breaks come back exactly when no two of them are next to each other: the
byte copied behind an escape is not looked at again. -/
theorem unescape_escape {text : Str} (clean : backslash ∉ text) :
    unescape (escape text) = text ↔ ¬blankLine <:+: text := by
  induction text using List.twoStepInduction with
  | nil => simp [unescape,blankLine]
  | singleton byte =>
    have short : ¬blankLine <:+: [byte] := by
      intro inside
      exact absurd inside.length_le (by simp [blankLine])
    have same : unescape (escape [byte]) = [byte] := by
      by_cases line : byte = newLine
      · subst line
        rfl
      · rw [unescape_escape_other line (fun slash => clean (by simp [slash]))]
        rfl
    exact iff_of_true same short
  | cons_cons byte next text ih ihNext =>
    simp only [List.mem_cons,not_or] at clean ih ihNext
    by_cases line : byte = newLine
    · subst line
      by_cases second : next = newLine
      · subst second
        rw [unescape_escape_blank]
        refine iff_of_false ?_ ?_
        · intro same
          cases (List.cons.inj (List.cons.inj same).2).1
        · intro free
          exact free ⟨[],text,rfl⟩
      · rw [unescape_escape_newLine second,blankLine_newLine second,← ih clean.2.2]
        simp
    · rw [unescape_escape_other line (Ne.symm clean.1),blankLine_cons line,← ihNext next clean.2]
      simp

end Unescape

end QuickConnect.Claim
