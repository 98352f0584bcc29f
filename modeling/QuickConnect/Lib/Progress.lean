import Mathlib.Logic.Basic

/-! Progress of a step relation towards a goal, whichever steps are taken. -/
namespace QuickConnect.Progress
variable {σ : Type} {step : σ → σ → Prop} {goal further : σ → Prop} {s : σ}

/-- Every run comes to the goal: none is stuck before it, and no step leads away from it. -/
inductive Inevitable (step : σ → σ → Prop) (goal : σ → Prop) : σ → Prop
  | reached {s : σ} (here : goal s) : Inevitable step goal s
  | later {s : σ} (moves : ∃ t, step s t) (everyway : ∀ t, step s t → Inevitable step goal t) :
      Inevitable step goal s

/-- The rule for ranks: short of the goal there is a step, and each step lowers the rank. -/
theorem Inevitable.of_rank (Inv : σ → Prop) (rank : σ → Nat)
    (moves : ∀ s, Inv s → ¬goal s → ∃ t, step s t)
    (lowers : ∀ s t, Inv s → ¬goal s → step s t → Inv t ∧ (goal t ∨ rank t < rank s))
    (safe : Inv s) : Inevitable step goal s := by
  induction bound : rank s using Nat.strongRecOn generalizing s with
  | ind n ih =>
    by_cases here : goal s
    · exact .reached here
    · refine .later (moves s safe here) fun t stepped => ?_
      obtain ⟨kept,there | lower⟩ := lowers s t safe here stepped
      · exact .reached there
      · rw [bound] at lower
        exact ih (rank t) lower kept rfl

theorem Inevitable.trans (first : Inevitable step goal s)
    (next : ∀ t, goal t → Inevitable step further t) : Inevitable step further s := by
  induction first with
  | reached here => exact next _ here
  | later moves _ ih => exact .later moves ih

/-- An invariant holds where the goal is reached. -/
theorem Inevitable.invariant (Inv : σ → Prop) (kept : ∀ s t, Inv s → step s t → Inv t)
    (inevitable : Inevitable step goal s) (safe : Inv s) :
    Inevitable step (fun t => goal t ∧ Inv t) s := by
  induction inevitable with
  | reached here => exact .reached ⟨here,safe⟩
  | later moves _ ih => exact .later moves fun t stepped => ih t stepped (kept _ t safe stepped)

end QuickConnect.Progress
