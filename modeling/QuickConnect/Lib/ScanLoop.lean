import Mathlib.Data.List.Basic

/-! Loops that read a text from a position on, one step at a time, and may stop with an
error. The position grows with every step, so that the length of the text is fuel enough. -/
namespace QuickConnect

theorem except_bind {ε α β : Type} {x : Except ε α} {f : α → Except ε β} {b : β}
    (done : x >>= f = .ok b) : ∃ a, x = .ok a ∧ f a = .ok b := by
  cases x with
  | error e => cases done
  | ok a => exact ⟨a,rfl,done⟩

theorem except_ok_bind {ε α β : Type} (a : α) (f : α → Except ε β) :
    (Except.ok a >>= f) = f a := rfl

namespace ScanLoop
variable {σ ε : Type} (more : σ → Bool) (step : σ → Except ε σ)

def scan : Nat → σ → Except ε σ
  | 0, s => .ok s
  | fuel + 1, s => if more s then step s >>= scan fuel else .ok s

variable {more step} {s next last : σ}

theorem scan_done (ended : more s = false) (fuel : Nat) : scan more step fuel s = .ok s := by
  cases fuel with
  | zero => rfl
  | succ fuel => simp [scan,ended]

theorem scan_step (going : more s = true) (stepped : step s = .ok next) (fuel : Nat) :
    scan more step (fuel + 1) s = scan more step fuel next := by
  rw [scan,if_pos going,stepped]
  rfl

theorem scan_invariant {Inv : σ → Prop}
    (kept : ∀ s next, more s = true → step s = .ok next → Inv s → Inv next) {fuel : Nat}
    (ran : scan more step fuel s = .ok last) (first : Inv s) : Inv last := by
  induction fuel generalizing s with
  | zero =>
    cases ran
    exact first
  | succ fuel ih =>
    rw [scan] at ran
    split at ran
    · rename_i going
      obtain ⟨next,stepped,ran⟩ := except_bind ran
      exact ih ran (kept s next going stepped first)
    · cases ran
      exact first

/-- A loop whose steps another loop follows. -/
theorem scan_followed {τ : Type} {more' : τ → Bool} {step' : τ → Except ε τ} {R : σ → τ → Prop}
    (same : ∀ s t, R s t → more' t = more s)
    (follow : ∀ s next t, step s = .ok next → R s t → ∃ next', step' t = .ok next' ∧ R next next')
    {fuel : Nat} {t : τ} (ran : scan more step fuel s = .ok last) (related : R s t) :
    ∃ last', scan more' step' fuel t = .ok last' ∧ R last last' := by
  induction fuel generalizing s t with
  | zero =>
    cases ran
    exact ⟨t,rfl,related⟩
  | succ fuel ih =>
    rw [scan] at ran ⊢
    rw [same s t related]
    split at ran
    · rename_i going
      obtain ⟨next,stepped,ran⟩ := except_bind ran
      obtain ⟨next',stepped',related'⟩ := follow s next t stepped related
      rw [if_pos going,stepped',except_ok_bind]
      exact ih ran related'
    · rename_i ended
      cases ran
      rw [if_neg ended]
      exact ⟨t,rfl,related⟩

/-- Where a loop fails the other one has come to the same place. -/
theorem scan_fails {τ : Type} {more' : τ → Bool} {step' : τ → Except ε τ} {R : σ → τ → Prop}
    (same : ∀ s t, R s t → more' t = more s)
    (follow : ∀ s next t, step s = .ok next → R s t → ∃ next', step' t = .ok next' ∧ R next next')
    {fuel : Nat} {t : τ} {e : ε} (failed : scan more step fuel s = .error e) (related : R s t) :
    ∃ s' t' left, R s' t' ∧ more s' = true ∧ step s' = .error e ∧
      scan more' step' fuel t = scan more' step' (left + 1) t' := by
  induction fuel generalizing s t with
  | zero => cases failed
  | succ fuel ih =>
    rw [scan] at failed
    split at failed
    · rename_i going
      cases stepped : step s with
      | error e' =>
        rw [stepped] at failed
        cases failed
        exact ⟨s,t,fuel,related,going,stepped,rfl⟩
      | ok next =>
        rw [stepped,except_ok_bind] at failed
        obtain ⟨next',stepped',related'⟩ := follow s next t stepped related
        obtain ⟨s',t',left,there,going',wrong,ran⟩ := ih failed related'
        refine ⟨s',t',left,there,going',wrong,?_⟩
        rw [scan_step ((same s t related).trans going) stepped' fuel,ran]
    · cases failed

section Position
variable (pos : σ → Nat)

/-- With fuel for every position left the loop runs to its end. -/
theorem scan_ended {len fuel : Nat} (inside : ∀ s, more s = true → pos s < len)
    (progress : ∀ s next, more s = true → step s = .ok next → pos s < pos next)
    (ran : scan more step fuel s = .ok last) (enough : len ≤ pos s + fuel) :
    more last = false := by
  induction fuel generalizing s with
  | zero =>
    cases ran
    cases going : more last with
    | false => rfl
    | true => exact absurd (inside last going) (Nat.not_lt.mpr enough)
  | succ fuel ih =>
    rw [scan] at ran
    split at ran
    · rename_i going
      obtain ⟨next,stepped,ran⟩ := except_bind ran
      have forward := progress s next going stepped
      exact ih ran (by omega)
    · rename_i ended
      cases ran
      exact eq_false_of_ne_true ended

variable (more step) in
/-- Some steps of the loop, no more of them than positions they pass. -/
def Advances (s next : σ) : Prop :=
  ∃ n, pos s + n ≤ pos next ∧ ∀ fuel, scan more step (fuel + n) s = scan more step fuel next

variable {pos}

theorem Advances.refl (s : σ) : Advances more step pos s s := ⟨0,Nat.le_refl _,fun _ => rfl⟩

theorem Advances.trans {middle : σ} (first : Advances more step pos s middle)
    (second : Advances more step pos middle next) : Advances more step pos s next := by
  obtain ⟨n,short,ran⟩ := first
  obtain ⟨m,short',ran'⟩ := second
  refine ⟨m + n,by omega,?_⟩
  intro fuel
  rw [← Nat.add_assoc,ran,ran']

theorem Advances.one (going : more s = true) (stepped : step s = .ok next)
    (forward : pos s < pos next) : Advances more step pos s next :=
  ⟨1,forward,scan_step going stepped⟩

theorem Advances.scan_eq {fuel : Nat} (advances : Advances more step pos s last)
    (ended : more last = false) (enough : pos last ≤ pos s + fuel) :
    scan more step fuel s = .ok last := by
  obtain ⟨n,short,ran⟩ := advances
  obtain ⟨left,rfl⟩ := Nat.exists_eq_add_of_le' (show n ≤ fuel by omega)
  rw [ran,scan_done ended]

theorem Advances.scan_on {fuel : Nat} (advances : Advances more step pos s next)
    (enough : pos next ≤ pos s + fuel) :
    ∃ left, scan more step fuel s = scan more step left next := by
  obtain ⟨n,short,ran⟩ := advances
  obtain ⟨left,rfl⟩ := Nat.exists_eq_add_of_le' (show n ≤ fuel by omega)
  exact ⟨left,ran left⟩

/-- A loop whose steps are steps of another one brings that one as far. -/
theorem scan_advances {more' : σ → Bool} {step' : σ → Except ε σ} {Inv : σ → Prop}
    (kept : ∀ s next, more s = true → step s = .ok next → Inv s → more' s = true ∧
      step' s = .ok next ∧ pos s < pos next ∧ Inv next) {fuel : Nat}
    (ran : scan more step fuel s = .ok last) (first : Inv s) :
    Advances more' step' pos s last ∧ Inv last := by
  induction fuel generalizing s with
  | zero =>
    cases ran
    exact ⟨.refl _,first⟩
  | succ fuel ih =>
    rw [scan] at ran
    split at ran
    · rename_i going
      obtain ⟨next,stepped,ran⟩ := except_bind ran
      obtain ⟨going',stepped',forward,inv⟩ := kept s next going stepped first
      obtain ⟨advances,inv'⟩ := ih ran inv
      exact ⟨(Advances.one going' stepped' forward).trans advances,inv'⟩
    · cases ran
      exact ⟨.refl _,first⟩

end Position
section Remaining
variable {α : Type} {text rest : List α} {c : α} {place : Nat}

theorem peek (remaining : text.drop place = c :: rest) : text[place]? = some c := by
  rw [← List.head?_drop,remaining]
  rfl

theorem remaining_peek (found : text[place]? = some c) :
    text.drop place = c :: text.drop (place + 1) := by
  obtain ⟨inside,rfl⟩ := List.getElem?_eq_some_iff.mp found
  exact List.drop_eq_getElem_cons inside

theorem remaining_next (remaining : text.drop place = c :: rest) : text.drop (place + 1) = rest := by
  rw [← List.drop_drop,remaining]
  rfl

theorem remaining_add {front : List α} (remaining : text.drop place = front ++ rest) :
    text.drop (place + front.length) = rest := by
  rw [← List.drop_drop,remaining,List.drop_left]

end Remaining

end ScanLoop
end QuickConnect
