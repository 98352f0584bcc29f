import Mathlib.Data.List.Basic

/-! Runs of a labelled step relation, with the log of their labels. -/
namespace QuickConnect.Trace
variable {σ ε : Type} {step : σ → ε → σ → Prop}

inductive Runs (step : σ → ε → σ → Prop) (s : σ) : List ε → σ → Prop
  | nil : Runs step s [] s
  | snoc {t u : σ} {log : List ε} {e : ε} (run : Runs step s log t) (last : step t e u) :
      Runs step s (log ++ [e]) u

/-- A property of the log so far and the state it led to holds along every run. -/
theorem Runs.invariant {s t : σ} {log : List ε} (Inv : List ε → σ → Prop)
    (run : Runs step s log t) (initial : Inv [] s)
    (kept : ∀ log t e u, Inv log t → step t e u → Inv (log ++ [e]) u) : Inv log t := by
  induction run with
  | nil => exact initial
  | snoc _ last ih => exact kept _ _ _ _ ih last

/-- The state in which a given entry of the log was made. -/
theorem Runs.at_entry {s u : σ} {log earlier later : List ε} {e : ε} (run : Runs step s log u)
    (same : log = earlier ++ e :: later) :
    ∃ before after, Runs step s earlier before ∧ step before e after := by
  induction run generalizing later with
  | nil => exact absurd same.symm (by simp)
  | snoc run last ih =>
    rcases List.eq_nil_or_concat later with rfl | ⟨rest,newest,rfl⟩
    · obtain ⟨rfl,one⟩ := List.append_inj' same rfl
      cases one
      exact ⟨_,_,run,last⟩
    · rw [List.concat_eq_append,← List.cons_append,← List.append_assoc] at same
      obtain ⟨shorter,_⟩ := List.append_inj' same rfl
      exact ih shorter

end QuickConnect.Trace
