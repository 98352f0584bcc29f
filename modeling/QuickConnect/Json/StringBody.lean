import QuickConnect.Json.Jsmn

/-! What jsmn takes between two quotes: plain characters, escaped characters and `\u` with
four hexadecimal digits. The scanner finds the closing quote of every such text, wherever
it stands, and accepts no other. -/
namespace QuickConnect.Jsmn
open Text ScanLoop

inductive StringBody : Str → Prop
  | nil : StringBody []
  | plain {c : UInt8} {rest : Str} (nonzero : c ≠ 0) (unquoted : c ≠ quote) (bare : c ≠ backslash)
      (tail : StringBody rest) : StringBody (c :: rest)
  | escape {e : UInt8} {rest : Str} (allowed : e ∈ escapes) (tail : StringBody rest) :
      StringBody (backslash :: e :: rest)
  | unicode {digits rest : Str} (four : digits.length = 4) (hex : ∀ d ∈ digits, isHex d = true)
      (tail : StringBody rest) : StringBody (backslash :: 117 :: digits ++ rest)

theorem isHex_ne_zero {d : UInt8} (hex : isHex d = true) : d ≠ 0 := by
  rintro rfl
  cases hex

theorem escapes_ne_zero {e : UInt8} (allowed : e ∈ escapes) : e ≠ 0 := by
  rintro rfl
  revert allowed
  decide

theorem StringBody.clean {body : Str} (valid : StringBody body) : 0 ∉ body := by
  induction valid with
  | nil => exact List.not_mem_nil
  | plain nonzero _ _ _ ih =>
    intro inside
    rcases List.mem_cons.mp inside with same | inside
    · exact nonzero same.symm
    · exact ih inside
  | escape allowed _ ih =>
    intro inside
    rcases List.mem_cons.mp inside with same | inside
    · cases same
    rcases List.mem_cons.mp inside with same | inside
    · exact escapes_ne_zero allowed same.symm
    · exact ih inside
  | @unicode digits rest _ hex _ ih =>
    intro inside
    rcases List.mem_append.mp inside with inside | inside
    · rcases List.mem_cons.mp inside with same | inside
      · cases same
      rcases List.mem_cons.mp inside with same | inside
      · cases same
      · exact isHex_ne_zero (hex 0 inside) rfl
    · exact ih inside

section Complete
variable {js : Str}

theorem hexEnd_digits {digits : Str} (hex : ∀ d ∈ digits, isHex d = true) :
    ∀ {pos : Nat} {rest : Str}, js.drop pos = digits ++ rest →
      hexEnd js digits.length pos = .ok (pos + digits.length) := by
  induction digits with
  | nil =>
    intro pos rest _
    rfl
  | cons d digits ih =>
    intro pos rest remaining
    have digit : isHex d = true := hex d List.mem_cons_self
    rw [List.length_cons,hexEnd,peek remaining]
    simp only [isHex_ne_zero digit,digit,if_false,if_true]
    rw [ih (fun d inside => hex d (List.mem_cons_of_mem _ inside)) (remaining_next remaining),
      Nat.add_assoc,Nat.add_comm 1]

theorem stringEnd_body {body : Str} (valid : StringBody body) :
    ∀ {fuel pos : Nat} {rest : Str}, js.drop pos = body ++ quote :: rest → body.length < fuel →
      stringEnd js fuel pos = .ok (pos + body.length) := by
  induction valid with
  | nil =>
    intro fuel pos rest remaining enough
    obtain ⟨fuel,rfl⟩ := Nat.exists_eq_succ_of_ne_zero (Nat.ne_of_gt enough)
    rw [stringEnd,peek remaining]
    have nonzero : quote ≠ 0 := by decide
    simp only [nonzero,if_false,if_true]
    rfl
  | @plain c tail nonzero unquoted bare _ ih =>
    intro fuel pos rest remaining enough
    rw [List.length_cons] at enough
    obtain ⟨fuel,rfl⟩ := Nat.exists_eq_succ_of_ne_zero (Nat.ne_zero_of_lt enough)
    rw [stringEnd,peek remaining]
    simp only [nonzero,unquoted,bare,if_false]
    rw [ih (remaining_next remaining) (by omega),List.length_cons,Nat.add_assoc,Nat.add_comm 1]
  | @escape e tail allowed _ ih =>
    intro fuel pos rest remaining enough
    rw [List.length_cons,List.length_cons] at enough
    obtain ⟨fuel,rfl⟩ := Nat.exists_eq_succ_of_ne_zero (Nat.ne_zero_of_lt enough)
    have second := remaining_next remaining
    have nonzero : backslash ≠ 0 := by decide
    have unquoted : backslash ≠ quote := by decide
    rw [stringEnd,peek remaining]
    simp only [nonzero,unquoted,if_false,if_true,peek second,allowed]
    rw [ih (remaining_next second) (by omega),List.length_cons,List.length_cons]
    congr 1
    omega
  | @unicode digits tail four hex _ ih =>
    intro fuel pos rest remaining enough
    simp only [List.length_append,List.length_cons] at enough
    obtain ⟨fuel,rfl⟩ := Nat.exists_eq_succ_of_ne_zero (Nat.ne_zero_of_lt enough)
    simp only [List.cons_append,List.append_assoc] at remaining
    have second := remaining_next remaining
    have third := remaining_next second
    have nonzero : backslash ≠ 0 := by decide
    have unquoted : backslash ≠ quote := by decide
    have letter : (117 : UInt8) ∉ escapes := by decide
    have passed := hexEnd_digits hex third
    rw [four] at passed
    have fourth := remaining_add third
    rw [four] at fourth
    rw [stringEnd,peek remaining]
    simp only [nonzero,unquoted,letter,if_false,if_true,peek second]
    rw [passed]
    change stringEnd js fuel (pos + 1 + 1 + 4) = _
    rw [ih fourth (by omega)]
    simp only [List.length_append,List.length_cons,four]
    congr 1
    omega

end Complete

section Sound
variable {js : Str}

theorem hexEnd_sound {i : Nat} : ∀ {pos stop : Nat}, hexEnd js i pos = .ok stop →
    (∃ digits, digits.length = i ∧ (∀ d ∈ digits, isHex d = true) ∧ stop = pos + i ∧
      js.drop pos = digits ++ js.drop stop) ∨ js[stop]? = none ∨ js[stop]? = some 0 := by
  induction i with
  | zero =>
    intro pos stop ran
    cases ran
    exact Or.inl ⟨[],rfl,by simp,rfl,rfl⟩
  | succ i ih =>
    intro pos stop ran
    rw [hexEnd] at ran
    cases found : js[pos]? with
    | none =>
      rw [found] at ran
      cases ran
      exact Or.inr (Or.inl found)
    | some c =>
      rw [found] at ran
      simp only at ran
      split at ran
      · rename_i zero
        cases ran
        exact Or.inr (Or.inr (zero ▸ found))
      split at ran
      · rename_i digit
        rcases ih ran with ⟨digits,length,hex,stop,remaining⟩ | ended
        · refine Or.inl ⟨c :: digits,by rw [List.length_cons,length],?_,by omega,?_⟩
          · intro d inside
            rcases List.mem_cons.mp inside with rfl | inside
            · exact digit
            · exact hex d inside
          · rw [remaining_peek found,remaining]
            rfl
        · exact Or.inr ended
      · cases ran

theorem stringEnd_ended {fuel pos : Nat} (ended : js[pos]? = none ∨ js[pos]? = some 0) :
    stringEnd js fuel pos = .error .part := by
  cases fuel with
  | zero => rfl
  | succ fuel =>
    rcases ended with found | found
    · rw [stringEnd,found]
    · rw [stringEnd,found]
      simp

theorem stringEnd_sound {fuel : Nat} : ∀ {pos stop : Nat}, stringEnd js fuel pos = .ok stop →
    ∃ body rest, StringBody body ∧ js.drop pos = body ++ quote :: rest ∧
      stop = pos + body.length := by
  induction fuel with
  | zero =>
    intro pos stop ran
    cases ran
  | succ fuel ih =>
    intro pos stop ran
    rw [stringEnd] at ran
    cases found : js[pos]? with
    | none =>
      rw [found] at ran
      cases ran
    | some c =>
      rw [found] at ran
      simp only at ran
      have here := remaining_peek found
      split at ran
      · cases ran
      rename_i nonzero
      split at ran
      · rename_i closes
        cases ran
        rw [closes] at here
        exact ⟨[],_,.nil,here,rfl⟩
      rename_i unquoted
      split at ran
      · rename_i slash
        subst slash
        cases second : js[pos + 1]? with
        | none =>
          rw [second] at ran
          rw [stringEnd_ended (Or.inl second)] at ran
          cases ran
        | some e =>
          rw [second] at ran
          simp only at ran
          have there := remaining_peek second
          split at ran
          · rename_i allowed
            obtain ⟨body,rest,valid,remaining,stop⟩ := ih ran
            refine ⟨backslash :: e :: body,rest,.escape allowed valid,?_,?_⟩
            · rw [here,there,remaining]
              rfl
            · simp only [List.length_cons]
              omega
          split at ran
          · rename_i letter
            subst letter
            obtain ⟨last,hexed,ran⟩ := except_bind ran
            rcases hexEnd_sound hexed with ⟨digits,four,hex,rfl,passed⟩ | ended
            · obtain ⟨body,rest,valid,remaining,stop⟩ := ih ran
              refine ⟨backslash :: 117 :: digits ++ body,rest,.unicode four hex valid,?_,?_⟩
              · rw [here,there,passed,remaining]
                simp
              · simp only [List.length_append,List.length_cons]
                omega
            · rw [stringEnd_ended ended] at ran
              cases ran
          · cases ran
      · rename_i bare
        obtain ⟨body,rest,valid,remaining,stop⟩ := ih ran
        refine ⟨c :: body,rest,.plain nonzero unquoted bare valid,?_,?_⟩
        · rw [here,remaining]
          rfl
        · simp only [List.length_cons]
          omega

end Sound

end QuickConnect.Jsmn
