import QuickConnect.Claim.VerifyResponse
import QuickConnect.Json.Accepted

/-! The memory that the certificate is copied to and unescaped in: which of its bytes
json_tok_to_string and unescape_new_line touch, and in what order. -/
namespace QuickConnect.Claim
open Text Jsmn JsonParser ScanLoop

section Copy

/-- The stores of strncpy and of the terminator behind it. -/
def stringStores (index : Nat) : Str → List (Nat × UInt8)
  | [] => [(index,0)]
  | byte :: rest => (index,byte) :: stringStores (index + 1) rest

def storeAll : List (Nat × UInt8) → List UInt8 → Option (List UInt8)
  | [], memory => some memory
  | store :: rest, memory => do
    let memory ← CString.store memory store.1 store.2
    storeAll rest memory

theorem stringStores_indices (s : Str) : ∀ index,
    (stringStores index s).map Prod.fst = List.range' index (s.length + 1) := by
  induction s with
  | nil =>
    intro index
    rfl
  | cons byte s ih =>
    intro index
    rw [stringStores,List.map_cons,ih,List.length_cons,List.range'_succ (n := s.length + 1)]

theorem storeAll_string (s : Str) : ∀ front memory : List UInt8, s.length < memory.length →
    storeAll (stringStores front.length s) (front ++ memory) =
      some (front ++ s ++ 0 :: memory.drop (s.length + 1)) := by
  induction s with
  | nil =>
    intro front memory room
    cases memory with
    | nil => exact absurd room (Nat.lt_irrefl _)
    | cons old memory =>
      have inside : front.length < (front ++ old :: memory).length := by simp
      rw [stringStores,storeAll,CString.store,if_pos inside,
        List.set_append_right _ _ (Nat.le_refl _),Nat.sub_self]
      simp [storeAll]
  | cons byte s ih =>
    intro front memory room
    cases memory with
    | nil => exact absurd room (Nat.not_lt_zero _)
    | cons old memory =>
      have inside : front.length < (front ++ old :: memory).length := by simp
      have next := ih (front ++ [byte]) memory (by simpa using room)
      rw [List.length_append,List.length_singleton] at next
      rw [stringStores,storeAll,CString.store,if_pos inside,
        List.set_append_right _ _ (Nat.le_refl _),Nat.sub_self,List.set_cons_zero]
      have moved : front ++ byte :: memory = front ++ [byte] ++ memory := by simp
      rw [Option.bind_eq_bind,Option.bind_some,moved,next]
      simp

/-- The stores leave what `copied` says. -/
theorem storeAll_copied {s : Str} {memory : List UInt8} (room : s.length < memory.length) :
    storeAll (stringStores 0 s) memory = copied memory (.ok s) := by
  have stored := storeAll_string s [] memory room
  rw [List.length_nil,List.nil_append,List.nil_append] at stored
  exact stored

end Copy

section Cursors

/-- An access to the memory; for a write also where the read cursor stands. -/
inductive Access
  | read (index : Nat)
  | write (index str : Nat)

/-- unescape_new_line between two of its accesses, with those it has made. -/
structure Unescaping where
  memory : List UInt8
  str : Nat
  target : Nat
  accesses : List Access

namespace Unescaping

def peek (u : Unescaping) : Option (UInt8 × Unescaping) := do
  let byte ← u.memory[u.str]?
  some (byte,{ u with accesses := u.accesses ++ [.read u.str] })

def put (u : Unescaping) (byte : UInt8) : Option Unescaping := do
  let memory ← CString.store u.memory u.target byte
  some { u with memory := memory, accesses := u.accesses ++ [.write u.target u.str] }

/-- `*target_str++ = *str++` -/
def copy (u : Unescaping) : Option Unescaping := do
  let (byte,u) ← u.peek
  let u ← u.put byte
  some { u with str := u.str + 1, target := u.target + 1 }

/-- The body of the loop. -/
def iterate (u : Unescaping) : Option Unescaping := do
  let (byte,u) ← u.peek
  if byte = backslash then do
    let (next,u) ← { u with str := u.str + 1 }.peek
    if next = 110 then do
      let u ← u.put newLine
      { u with str := u.str + 1, target := u.target + 1 }.copy
    else u.copy
  else u.copy

def loop : Nat → Unescaping → Option Unescaping
  | 0, _ => none
  | fuel + 1, u => do
    let (byte,u) ← u.peek
    if byte = 0 then u.put 0
    else do
      let u ← u.iterate
      loop fuel u

/-- Without the record of its accesses this is the loop of unescape_new_line. -/
theorem loop_memory (fuel : Nat) : ∀ u : Unescaping,
    (loop fuel u).map memory = unescapeLoop fuel u.memory u.str u.target := by
  induction fuel with
  | zero =>
    intro u
    rfl
  | succ fuel ih =>
    intro u
    rw [loop,unescapeLoop,peek]
    cases here : u.memory[u.str]? with
    | none => rfl
    | some byte =>
      simp only [Option.bind_eq_bind,Option.bind_some]
      by_cases ended : byte = 0
      · rw [if_pos ended,if_pos ended,put]
        cases CString.store u.memory u.target 0 <;> rfl
      rw [if_neg ended,if_neg ended,iterate,peek,here]
      simp only [Option.bind_eq_bind,Option.bind_some]
      by_cases escaped : byte = backslash
      · rw [if_pos escaped,if_pos escaped,peek]
        cases second : u.memory[u.str + 1]? with
        | none => rfl
        | some next =>
          simp only [Option.bind_eq_bind,Option.bind_some]
          by_cases line : next = 110
          · rw [if_pos line,if_pos line,put]
            cases CString.store u.memory u.target newLine with
            | none => rfl
            | some stored =>
              simp only [Option.bind_eq_bind,Option.bind_some,copy,peek,put]
              cases stored[u.str + 2]? with
              | none => rfl
              | some follow =>
                simp only [Option.bind_some]
                cases CString.store stored (u.target + 1) follow with
                | none => rfl
                | some last => exact ih _
          · rw [if_neg line,if_neg line]
            simp only [copy,peek,put,second,Option.bind_eq_bind,Option.bind_some]
            cases CString.store u.memory u.target next with
            | none => rfl
            | some last => exact ih _
      · rw [if_neg escaped,if_neg escaped]
        simp only [copy,peek,put,here,Option.bind_eq_bind,Option.bind_some]
        cases CString.store u.memory u.target byte with
        | none => rfl
        | some last => exact ih _

/-- What an access may touch in the memory of a text of this length. -/
def Allowed (length : Nat) : Access → Prop
  | .read index => index ≤ length + 1
  | .write index str => index ≤ length ∧ index ≤ str

/-- The write cursor is behind the read cursor, and from there on the memory is as it was. -/
structure Inside (text : Str) (u : Unescaping) : Prop where
  sized : u.memory.length = text.length + 2
  untouched : u.memory.drop u.str = (text ++ [0,0]).drop u.str
  behind : u.target ≤ u.str
  place : u.str ≤ text.length + 1
  target : u.target ≤ text.length
  allowed : ∀ access ∈ u.accesses, Allowed text.length access

variable {text : Str} {u : Unescaping}

theorem Inside.peek (inside : Inside text u) : ∃ byte u', u.peek = some (byte,u') ∧
    Inside text u' ∧ u'.str = u.str ∧ u'.target = u.target ∧
    (text ++ [0,0])[u.str]? = some byte := by
  have room : u.str < u.memory.length := by
    have sized := inside.sized
    have place := inside.place
    omega
  have found := List.getElem?_eq_getElem room
  refine ⟨u.memory[u.str],{ u with accesses := u.accesses ++ [.read u.str] },?_,
    ⟨inside.sized,inside.untouched,inside.behind,inside.place,inside.target,?_⟩,rfl,rfl,?_⟩
  · rw [Unescaping.peek,found]
    rfl
  · intro access made
    rcases List.mem_append.mp made with made | made
    · exact inside.allowed access made
    · rw [List.mem_singleton.mp made]
      exact inside.place
  · rw [← List.head?_drop,← inside.untouched,List.head?_drop,found]

theorem Inside.put (inside : Inside text u) (byte : UInt8) : ∃ u', u.put byte = some u' ∧
    u'.memory.length = text.length + 2 ∧ u'.str = u.str ∧ u'.target = u.target ∧
    (∀ place, u.target < place → u'.memory.drop place = u.memory.drop place) ∧
    ∀ access ∈ u'.accesses, Allowed text.length access := by
  have room : u.target < u.memory.length := by
    have sized := inside.sized
    have target := inside.target
    omega
  refine ⟨{ u with
      memory := u.memory.set u.target byte
      accesses := u.accesses ++ [.write u.target u.str] },?_,?_,rfl,rfl,?_,?_⟩
  · rw [Unescaping.put,CString.store,if_pos room]
    rfl
  · exact List.length_set.trans inside.sized
  · intro place later
    exact List.drop_set_of_lt later
  · intro access made
    rcases List.mem_append.mp made with made | made
    · exact inside.allowed access made
    · rw [List.mem_singleton.mp made]
      exact ⟨inside.target,inside.behind⟩

theorem before_terminator {index : Nat} {byte : UInt8} (nonzero : byte ≠ 0)
    (found : (text ++ [0,0])[index]? = some byte) : index < text.length := by
  by_contra past
  rw [List.getElem?_append_right (Nat.not_lt.mp past)] at found
  have zeros := List.mem_of_getElem? found
  simp only [List.mem_cons,List.not_mem_nil,or_false,or_self] at zeros
  exact nonzero zeros

theorem untouched_later {memory original : List UInt8} {place later : Nat}
    (untouched : memory.drop place = original.drop place) (after : place ≤ later) :
    memory.drop later = original.drop later := by
  rw [← Nat.add_sub_of_le after,← List.drop_drop,untouched,List.drop_drop]

theorem Inside.advance (inside : Inside text u) (room : u.str ≤ text.length) :
    Inside text { u with str := u.str + 1 } where
  sized := inside.sized
  untouched := untouched_later inside.untouched (Nat.le_succ _)
  behind := Nat.le_succ_of_le inside.behind
  place := Nat.succ_le_succ room
  target := inside.target
  allowed := inside.allowed

/-- Two cursors moved on by one, behind a store at the write cursor. -/
theorem Inside.stored (inside : Inside text u) (room : u.str ≤ text.length)
    (short : u.target < text.length) (byte : UInt8) : ∃ u', u.put byte = some u' ∧
    Inside text { u' with str := u'.str + 1, target := u'.target + 1 } ∧ u'.str = u.str ∧
    u'.target = u.target := by
  obtain ⟨u',stored,sized,str,target,kept,allowed⟩ := inside.put byte
  refine ⟨u',stored,?_,str,target⟩
  have behind := inside.behind
  exact {
    sized := sized
    untouched := by
      change u'.memory.drop (u'.str + 1) = _
      rw [str,kept _ (Nat.lt_succ_of_le behind)]
      exact untouched_later inside.untouched (Nat.le_succ _)
    behind := by
      change u'.target + 1 ≤ u'.str + 1
      rw [str,target]
      exact Nat.succ_le_succ behind
    place := by
      change u'.str + 1 ≤ text.length + 1
      rw [str]
      exact Nat.succ_le_succ room
    target := by
      change u'.target + 1 ≤ text.length
      rw [target]
      exact short
    allowed := allowed }

theorem Inside.copy (inside : Inside text u) (room : u.str ≤ text.length)
    (short : u.target < text.length) : ∃ u', u.copy = some u' ∧ Inside text u' ∧
    u'.str = u.str + 1 := by
  obtain ⟨byte,read,peeked,reading,str,target,_⟩ := inside.peek
  obtain ⟨written,stored,moved,same,_⟩ :=
    reading.stored (by rw [str]; exact room) (by rw [target]; exact short) byte
  refine ⟨_,?_,moved,?_⟩
  · rw [Unescaping.copy,peeked]
    simp only [Option.bind_eq_bind,Option.bind_some,stored]
  · change written.str + 1 = _
    rw [same,str]

theorem Inside.iterate (inside : Inside text u) {byte : UInt8} (nonzero : byte ≠ 0)
    (found : (text ++ [0,0])[u.str]? = some byte) :
    ∃ u', u.iterate = some u' ∧ Inside text u' ∧ u.str < u'.str := by
  have first := before_terminator nonzero found
  obtain ⟨again,read,peeked,reading,str,target,same⟩ := inside.peek
  cases Option.some.inj (found.symm.trans same)
  have behind := inside.behind
  rw [Unescaping.iterate,peeked]
  simp only [Option.bind_eq_bind,Option.bind_some]
  by_cases escaped : byte = backslash
  · have passed := reading.advance (by rw [str]; omega)
    obtain ⟨next,read',peeked',reading',str',target',same'⟩ := passed.peek
    change read'.str = read.str + 1 at str'
    change read'.target = read.target at target'
    simp only [escaped,if_true,peeked',Option.bind_some]
    by_cases line : next = 110
    · -- The n is no terminator, so that one more byte can be copied behind it.
      have second : u.str + 1 < text.length := by
        change (text ++ [0,0])[read.str + 1]? = some next at same'
        rw [str,line] at same'
        exact before_terminator (by decide) same'
      obtain ⟨written,stored,moved,cursor,target''⟩ :=
        reading'.stored (by omega) (by omega) newLine
      obtain ⟨u',copied,kept,last⟩ := moved.copy
        (by change written.str + 1 ≤ _; omega) (by change written.target + 1 < _; omega)
      refine ⟨u',?_,kept,?_⟩
      · simp only [line,if_true,stored,Option.bind_some]
        exact copied
      · change u'.str = written.str + 1 + 1 at last
        omega
    · obtain ⟨u',copied,kept,last⟩ := reading'.copy (by omega) (by omega)
      refine ⟨u',?_,kept,by omega⟩
      simp only [line,if_false]
      exact copied
  · obtain ⟨u',copied,kept,last⟩ := reading.copy (by omega) (by omega)
    refine ⟨u',?_,kept,by omega⟩
    simp only [escaped,if_false]
    exact copied

/-- The loop ends, and no access of it leaves the memory. -/
theorem loop_inside (fuel : Nat) : ∀ u : Unescaping, Inside text u →
    text.length + 1 < u.str + fuel → ∃ last, loop fuel u = some last ∧
      ∀ access ∈ last.accesses, Allowed text.length access := by
  induction fuel with
  | zero =>
    intro u inside enough
    exact absurd inside.place (Nat.not_le.mpr enough)
  | succ fuel ih =>
    intro u inside enough
    obtain ⟨byte,read,peeked,reading,str,_,found⟩ := inside.peek
    rw [loop,peeked]
    simp only [Option.bind_eq_bind,Option.bind_some]
    by_cases ended : byte = 0
    · obtain ⟨last,stored,_,_,_,_,allowed⟩ := reading.put 0
      refine ⟨last,?_,allowed⟩
      simp only [ended,if_true]
      exact stored
    · rw [← str] at found
      obtain ⟨next,iterated,kept,forward⟩ := reading.iterate ended found
      obtain ⟨last,ran,allowed⟩ := ih next kept (by omega)
      refine ⟨last,?_,allowed⟩
      simp only [ended,if_false,iterated,Option.bind_some]
      exact ran

def start (memory : List UInt8) : Unescaping := ⟨memory,0,0,[]⟩

theorem start_inside (text : Str) : Inside text (start (text ++ [0,0])) where
  sized := by simp [start]
  untouched := rfl
  behind := Nat.le_refl _
  place := Nat.zero_le _
  target := Nat.zero_le _
  allowed := fun _ none => absurd none List.not_mem_nil

end Unescaping

theorem unescape_length (text : Str) : (unescape text).length ≤ text.length := by
  fun_induction unescape text <;> simp only [List.length_cons,List.length_nil] <;> omega

/-- unescape_new_line ends in memory that holds a text and two zeros: every access of its
loop is allowed, and what it leaves is a string no longer than the text. -/
def UnescapesInside (text : Str) : Prop :=
  ∃ last, Unescaping.loop (text.length + 2) (.start (text ++ [0,0])) = some last ∧
    unescapeNewLine (text ++ [0,0]) = some last.memory ∧
    (∀ access ∈ last.accesses, Unescaping.Allowed text.length access) ∧
    ∃ left, CString.read last.memory = some left ∧ left.length ≤ text.length

theorem unescapes_inside {text : Str} (clean : 0 ∉ text) : UnescapesInside text := by
  obtain ⟨last,ran,allowed⟩ := Unescaping.loop_inside (text.length + 2)
    (.start (text ++ [0,0])) (Unescaping.start_inside text) (by simp [Unescaping.start])
  obtain ⟨memory,ended,held⟩ := unescapeNewLine_text clean []
  have size : (text ++ [0,0]).length = text.length + 2 := by simp
  have same : unescapeNewLine (text ++ [0,0]) = some last.memory := by
    have erased := Unescaping.loop_memory (text.length + 2) (.start (text ++ [0,0]))
    rw [ran] at erased
    rw [unescapeNewLine,size]
    exact erased.symm
  cases Option.some.inj (ended.symm.trans same)
  exact ⟨last,ran,same,allowed,_,held,unescape_length text⟩

end Cursors

section Handler
variable {payload : Region maxPayloadSize} {allocated : Bool} {js : Str} {jctx : Ctx} {length : Int}

/-- A certificate that is found is copied whole and unescaped, if there is memory for it. -/
theorem handleClaimVerifyResponse_found (arrived : payload.text = some js)
    (started : parseStart allocated js = .ok jctx)
    (found : objGetStrlen jctx certificateKey = .ok length) :
    ∃ s, StringBody s ∧ length = s.length ∧
      objGetString jctx certificateKey (s.length + 1) = .ok s ∧ ∀ mod, ∃ memory,
      unescapeNewLine (s ++ [0,0]) = some memory ∧
      handleClaimVerifyResponse ⟨allocated,true⟩ payload mod =
        some (.ok,{ mod with certificate := some memory }) := by
  obtain ⟨s,body,rfl,got⟩ := objGetStrlen_body started found
  have copy := got (s.length + 1) (Nat.lt_succ_self _)
  have memory : copied (List.replicate (s.length + 1 + 1) 0) (.ok s) = some (s ++ [0,0]) := by
    rw [copied,List.drop_replicate,Nat.add_sub_cancel_left]
    rfl
  refine ⟨s,body,rfl,copy,?_⟩
  intro mod
  obtain ⟨last,_,ran,_⟩ := unescapes_inside body.clean
  refine ⟨last.memory,ran,?_⟩
  rw [handleClaimVerifyResponse,arrived]
  simp only [Option.bind_eq_bind,Option.bind_some,started,found,Int.toNat_natCast,copy,memory]
  rw [if_neg (by decide),ran]
  rfl

theorem handleClaimVerifyResponse_noMem (arrived : payload.text = some js)
    (started : parseStart allocated js = .ok jctx)
    (found : objGetStrlen jctx certificateKey = .ok length) (mod : Module) :
    handleClaimVerifyResponse ⟨allocated,false⟩ payload mod =
      some (.noMem,{ mod with certificate := none }) := by
  rw [handleClaimVerifyResponse,arrived]
  simp only [Option.bind_eq_bind,Option.bind_some,started,found,if_true]
  rfl

theorem handleClaimVerifyResponse_missing {calloc : Allocations} (arrived : payload.text = some js)
    (started : parseStart calloc.tokens js = .ok jctx)
    (missing : objGetStrlen jctx certificateKey = .error .fail) (mod : Module) :
    handleClaimVerifyResponse calloc payload mod = some (.fail,mod.parseStarted) := by
  rw [handleClaimVerifyResponse,arrived]
  simp only [Option.bind_eq_bind,Option.bind_some,started,missing]

end Handler

/-- The certificate of a response is copied to its memory and unescaped there without an
access outside, whatever stands between its quotes. -/
theorem certificate_extraction :
    (∀ (payload : Region maxPayloadSize) (calloc : Bool) (js : Str) (jctx : Ctx) (length : Int),
      payload.text = some js → parseStart calloc js = .ok jctx →
      objGetStrlen jctx certificateKey = .ok length →
      ∃ s, length = s.length ∧ objGetString jctx certificateKey (length.toNat + 1) = .ok s ∧
        (stringStores 0 s).map Prod.fst = List.range (length.toNat + 1) ∧
        storeAll (stringStores 0 s) (List.replicate (length.toNat + 2) 0) = some (s ++ [0,0]) ∧
        UnescapesInside s ∧ ∀ mod, ∃ memory, unescapeNewLine (s ++ [0,0]) = some memory ∧
          handleClaimVerifyResponse ⟨calloc,true⟩ payload mod =
            some (.ok,{ mod with certificate := some memory })) ∧
    ∀ text, 0 ∉ text → UnescapesInside text := by
  refine ⟨?_,fun _ => unescapes_inside⟩
  intro payload calloc js jctx length arrived started found
  obtain ⟨s,body,rfl,copy,handled⟩ := handleClaimVerifyResponse_found arrived started found
  rw [Int.toNat_natCast]
  refine ⟨s,rfl,copy,?_,?_,unescapes_inside body.clean,handled⟩
  · rw [stringStores_indices,List.range_eq_range']
  · have room : s.length < (List.replicate (s.length + 2) (0 : UInt8)).length := by
      rw [List.length_replicate]
      omega
    rw [storeAll_copied room,copied,List.drop_replicate,Nat.add_sub_add_left]
    rfl

/-- A certificate that ends in an escape. -/
theorem certificate_extraction_escape :
    ∃ s, s.length = 3 ∧ UnescapesInside s ∧ ∀ mod, ∃ memory,
      handleClaimVerifyResponse ⟨true,true⟩
        (.holding maxPayloadSize (verifyResponse [65,newLine])) mod =
          some (.ok,{ mod with certificate := some memory }) := by
  have sendable : Sendable [65,newLine] := ⟨by decide,by decide,by decide⟩
  have arrived : (Region.holding maxPayloadSize (verifyResponse [65,newLine])).text =
      some (verifyResponse [65,newLine]) := by
    apply Region.text_holding
    · decide
    · decide
  have members : ∀ x ∈ [(certificateKey,escape [65,newLine])], StringMember x := by
    intro x inside
    rw [List.mem_singleton.mp inside]
    exact ⟨certificateKey_body,stringBody_escape sendable⟩
  have found := objGetStrlen_object (certificateKey,escape [65,newLine]) [] certificateKey
  rw [List.lookup_cons,beq_self_eq_true] at found
  have started := parseStart_object members
  rw [← verifyResponse_object] at started
  obtain ⟨s,length,_,_,_,inside,handled⟩ :=
    certificate_extraction.1 _ true _ _ _ arrived started found
  refine ⟨s,?_,inside,?_⟩
  · exact (Int.ofNat.inj length).symm
  · intro mod
    obtain ⟨memory,_,same⟩ := handled mod
    exact ⟨memory,same⟩

end QuickConnect.Claim
