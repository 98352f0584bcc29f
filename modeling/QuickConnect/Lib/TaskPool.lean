import Mathlib.Logic.Relation
import Mathlib.Algebra.BigOperators.Group.List.Basic
import Mathlib.Algebra.GroupWithZero.Nat
import Mathlib.Data.List.Count

/-! Pools of tasks that interleave over a shared state, with restarts.
A machine says what one atomic step of one task does, given what its service
call returned; a policy says which outcomes and restarts a class of runs admits.
Weights count how often a capability is held anywhere, in the state or in a task. -/
namespace QuickConnect.TaskPool

structure Config (σ τ : Type) where
  shared : σ
  tasks : List τ

/-- `exec s t o` is one atomic step of task `t` whose service call returned `o`:
the state after it and the tasks that stand in the place of `t`, itself at its next
point and those it created. It is `none` where the task is blocked. -/
structure Machine (σ τ ω : Type) where
  exec : σ → τ → ω → Option (σ × List τ)
  restart : σ → Config σ τ

structure Policy (σ τ ω : Type) where
  permits : Config σ τ → τ → ω → Prop
  restarts : Prop

def Policy.free {σ τ ω : Type} : Policy σ τ ω := ⟨fun _ _ _ => True,True⟩

inductive Step {σ τ ω : Type} (machine : Machine σ τ ω) (policy : Policy σ τ ω) :
    Config σ τ → Config σ τ → Prop
  | run (s s' : σ) (before after : List τ) (t : τ) (o : ω) (next : List τ)
      (permitted : policy.permits ⟨s,before ++ t :: after⟩ t o)
      (ran : machine.exec s t o = some (s',next)) :
      Step machine policy ⟨s,before ++ t :: after⟩ ⟨s',before ++ next ++ after⟩
  | restart (c : Config σ τ) (permitted : policy.restarts) :
      Step machine policy c (machine.restart c.shared)

def Reaches {σ τ ω : Type} (machine : Machine σ τ ω) (policy : Policy σ τ ω) :
    Config σ τ → Config σ τ → Prop :=
  Relation.ReflTransGen (Step machine policy)

section Runs
variable {σ τ ω : Type} {machine : Machine σ τ ω} {policy : Policy σ τ ω}

/-- The rule by which every property of a run is proved from one of a step. -/
theorem Reaches.invariant {start c : Config σ τ} (Inv : Config σ τ → Prop)
    (run : Reaches machine policy start c) (initial : Inv start)
    (step : ∀ c c', Inv c → Step machine policy c c' → Inv c') : Inv c := by
  induction run with
  | refl => exact initial
  | tail _ last ih => exact step _ _ ih last

theorem Step.mono {stricter : Policy σ τ ω} {c c' : Config σ τ}
    (permits : ∀ c t o, stricter.permits c t o → policy.permits c t o)
    (restarts : stricter.restarts → policy.restarts)
    (step : Step machine stricter c c') : Step machine policy c c' := by
  cases step with
  | run s s' before after t o next permitted ran =>
    exact .run s s' before after t o next (permits _ _ _ permitted) ran
  | restart _ permitted => exact .restart _ (restarts permitted)

theorem Reaches.free {start c : Config σ τ} (run : Reaches machine policy start c) :
    Reaches machine Policy.free start c :=
  Relation.ReflTransGen.mono (fun _ _ step =>
    Step.mono (fun _ _ _ _ => trivial) (fun _ => trivial) step) _ _ run

/-- The rule by which the runs of one machine are seen as runs of another, in which a step of
the first may take several or none. -/
theorem Reaches.refines {σ' τ' ω' : Type} {outer : Machine σ' τ' ω'} {limits : Policy σ' τ' ω'}
    {start c : Config σ τ} (view : Config σ τ → Config σ' τ') (Inv : Config σ τ → Prop)
    (run : Reaches machine policy start c) (initial : Inv start)
    (step : ∀ c c', Inv c → Step machine policy c c' →
      Inv c' ∧ Reaches outer limits (view c) (view c')) :
    Inv c ∧ Reaches outer limits (view start) (view c) := by
  induction run with
  | refl => exact ⟨initial,.refl⟩
  | tail _ last ih =>
    obtain ⟨safe,reached⟩ := ih
    obtain ⟨kept,seen⟩ := step _ _ safe last
    exact ⟨kept,reached.trans seen⟩

/-- The steps of a configuration with one task, where there are no restarts. -/
theorem Step.single {s : σ} {t : τ} {c : Config σ τ} (unbroken : ¬policy.restarts)
    (step : Step machine policy ⟨s,[t]⟩ c) : ∃ o s' next, policy.permits ⟨s,[t]⟩ t o ∧
      machine.exec s t o = some (s',next) ∧ c = ⟨s',next⟩ := by
  generalize here : (⟨s,[t]⟩ : Config σ τ) = start at step
  cases step with
  | restart _ permitted => exact absurd permitted unbroken
  | run s₀ s' before after u o next permitted ran =>
    rw [Config.mk.injEq] at here
    obtain ⟨rfl,tasks⟩ := here
    cases before with
    | nil =>
      cases tasks
      exact ⟨o,s',next,permitted,ran,by simp⟩
    | cons first before =>
      have lengths := congrArg List.length tasks
      simp at lengths

/-- And of one with two tasks. -/
theorem Step.pair {s : σ} {t u : τ} {c : Config σ τ} (unbroken : ¬policy.restarts)
    (step : Step machine policy ⟨s,[t,u]⟩ c) :
    (∃ o s' next, policy.permits ⟨s,[t,u]⟩ t o ∧ machine.exec s t o = some (s',next) ∧
      c = ⟨s',next ++ [u]⟩) ∨
    ∃ o s' next, policy.permits ⟨s,[t,u]⟩ u o ∧ machine.exec s u o = some (s',next) ∧
      c = ⟨s',t :: next⟩ := by
  generalize here : (⟨s,[t,u]⟩ : Config σ τ) = start at step
  cases step with
  | restart _ permitted => exact absurd permitted unbroken
  | run s₀ s' before after v o next permitted ran =>
    rw [Config.mk.injEq] at here
    obtain ⟨rfl,tasks⟩ := here
    rcases before with _ | ⟨first,_ | ⟨second,before⟩⟩
    · cases tasks
      exact Or.inl ⟨o,s',next,permitted,ran,rfl⟩
    · cases tasks
      exact Or.inr ⟨o,s',next,permitted,ran,by simp⟩
    · have lengths := congrArg List.length tasks
      simp at lengths

theorem mem_replaced {before next after : List τ} {u : τ} :
    u ∈ before ++ next ++ after ↔ u ∈ next ∨ u ∈ before ++ after := by
  simp only [List.mem_append]
  tauto

theorem mem_focused {before after : List τ} {t u : τ} :
    u ∈ before ++ t :: after ↔ u = t ∨ u ∈ before ++ after := by
  simp only [List.mem_append,List.mem_cons]
  tauto

/-- What holds of every task of one kind holds of them after a step in which the tasks
created have it and the others keep it. -/
theorem every_replaced {ι : Type} {kind : ι → τ} {before next after : List τ} {t : τ}
    {P Q : ι → Prop} (held : ∀ i, kind i ∈ before ++ t :: after → P i)
    (created : ∀ i, kind i ∈ next → Q i)
    (kept : ∀ i, kind i ∈ before ++ after → P i → Q i) :
    ∀ i, kind i ∈ before ++ next ++ after → Q i := by
  intro i member
  rcases mem_replaced.mp member with new | inside
  · exact created i new
  · exact kept i inside (held i (mem_focused.mpr (.inr inside)))

end Runs

section Weights
variable {σ τ : Type} (shared : σ → Nat) (task : τ → Nat)

def total (c : Config σ τ) : Nat := shared c.shared + (c.tasks.map task).sum

theorem total_focused (s : σ) (before after : List τ) (t : τ) :
    total shared task ⟨s,before ++ t :: after⟩ =
      shared s + task t + ((before ++ after).map task).sum := by
  simp only [total,List.map_append,List.map_cons,List.sum_append,List.sum_cons]
  omega

theorem total_replaced (s : σ) (before next after : List τ) :
    total shared task ⟨s,before ++ next ++ after⟩ =
      shared s + (next.map task).sum + ((before ++ after).map task).sum := by
  simp only [total,List.map_append,List.sum_append]
  omega

theorem le_sum_of_mem {tasks : List τ} {u : τ} (member : u ∈ tasks) :
    task u ≤ (tasks.map task).sum := by
  induction tasks with
  | nil => cases member
  | cons t tasks ih =>
    simp only [List.map_cons,List.sum_cons]
    rcases List.mem_cons.mp member with rfl | inside
    · omega
    · have := ih inside
      omega

theorem le_total {c : Config σ τ} {u : τ} (member : u ∈ c.tasks) :
    shared c.shared + task u ≤ total shared task c := by
  have := le_sum_of_mem task member
  unfold total
  omega

theorem pair_le_total (s : σ) {before after : List τ} {t u : τ} (member : u ∈ before ++ after) :
    shared s + task t + task u ≤ total shared task ⟨s,before ++ t :: after⟩ := by
  have := le_sum_of_mem task member
  rw [total_focused]
  omega

theorem created_le_total (s : σ) {before next after : List τ} {u v : τ} (created : u ∈ next)
    (member : v ∈ before ++ after) :
    shared s + task u + task v ≤ total shared task ⟨s,before ++ next ++ after⟩ := by
  have new := le_sum_of_mem task created
  have old := le_sum_of_mem task member
  rw [total_replaced]
  omega

theorem exists_of_sum_pos {tasks : List τ} (positive : 0 < (tasks.map task).sum) :
    ∃ u ∈ tasks, 0 < task u := by
  obtain ⟨weight,member,positive⟩ := List.sum_pos_iff_exists_pos_nat.mp positive
  obtain ⟨u,inside,rfl⟩ := List.mem_map.mp member
  exact ⟨u,inside,positive⟩

theorem countP_le_sum (p : τ → Bool) (tasks : List τ)
    (bounded : ∀ t, p t = true → 1 ≤ task t) : tasks.countP p ≤ (tasks.map task).sum := by
  induction tasks with
  | nil => simp
  | cons t tasks ih =>
    rw [List.countP_cons,List.map_cons,List.sum_cons]
    by_cases holds : p t = true
    · have := bounded t holds
      rw [if_pos holds]
      omega
    · rw [if_neg holds]
      omega

end Weights

section Schedules
variable {σ τ ω : Type} (machine : Machine σ τ ω) (ok : Config σ τ → τ → ω → Bool)

def stepAt (c : Config σ τ) (i : Nat) (o : ω) : Option (Config σ τ) :=
  match c.tasks[i]? with
  | none => none
  | some t =>
    if ok c t o then
      (machine.exec c.shared t o).map fun (s',next) =>
        ⟨s',c.tasks.take i ++ next ++ c.tasks.drop (i + 1)⟩
    else none

/-- A schedule names, step by step, who runs and what its service call returns. -/
def play : Config σ τ → List (Nat × ω) → Option (Config σ τ)
  | c, [] => some c
  | c, (i,o) :: rest => (stepAt machine ok c i o).bind (play · rest)

theorem stepAt_step {policy : Policy σ τ ω}
    (sound : ∀ c t o, ok c t o = true → policy.permits c t o)
    {c c' : Config σ τ} {i : Nat} {o : ω} (played : stepAt machine ok c i o = some c') :
    Step machine policy c c' := by
  unfold stepAt at played
  split at played
  · cases played
  · rename_i t found
    obtain ⟨bound,rfl⟩ := List.getElem?_eq_some_iff.mp found
    split at played
    · rename_i admitted
      obtain ⟨⟨s',next⟩,ran,rfl⟩ := Option.map_eq_some_iff.mp played
      have split : c.tasks.take i ++ c.tasks[i] :: c.tasks.drop (i + 1) = c.tasks := by simp
      have here : (⟨c.shared,c.tasks.take i ++ c.tasks[i] :: c.tasks.drop (i + 1)⟩ : Config σ τ) = c := by
        rw [split]
      have step : Step machine policy
          ⟨c.shared,c.tasks.take i ++ c.tasks[i] :: c.tasks.drop (i + 1)⟩
          ⟨s',c.tasks.take i ++ next ++ c.tasks.drop (i + 1)⟩ :=
        .run _ _ _ _ _ o next (by rw [here]; exact sound _ _ _ admitted) ran
      rw [here] at step
      exact step
    · cases played

theorem play_reaches {policy : Policy σ τ ω}
    (sound : ∀ c t o, ok c t o = true → policy.permits c t o)
    (schedule : List (Nat × ω)) (c c' : Config σ τ)
    (played : play machine ok c schedule = some c') : Reaches machine policy c c' := by
  induction schedule generalizing c with
  | nil =>
    cases played
    exact .refl
  | cons entry rest ih =>
    obtain ⟨i,o⟩ := entry
    obtain ⟨middle,first,others⟩ := Option.bind_eq_some_iff.mp played
    exact .head (stepAt_step machine ok sound first) (ih middle others)

/-- A schedule whose last configuration passes a test witnesses that one is reachable. -/
theorem play_any (policy : Policy σ τ ω)
    (sound : ∀ c t o, ok c t o = true → policy.permits c t o) (start : Config σ τ)
    (schedule : List (Nat × ω)) (test : Config σ τ → Bool)
    (passes : (play machine ok start schedule).any test = true) :
    ∃ c, Reaches machine policy start c ∧ test c = true := by
  cases played : play machine ok start schedule with
  | none => simp [played] at passes
  | some c =>
    have holds : test c = true := by simpa [played] using passes
    exact ⟨c,play_reaches machine ok sound schedule start c played,holds⟩

/-- The same for the last step of a schedule. -/
theorem play_step (policy : Policy σ τ ω)
    (sound : ∀ c t o, ok c t o = true → policy.permits c t o) (start : Config σ τ)
    (schedule : List (Nat × ω)) (i : Nat) (o : ω) (test : Config σ τ → Config σ τ → Bool)
    (passes : ((play machine ok start schedule).bind fun c =>
      (stepAt machine ok c i o).map (test c)) = some true) :
    ∃ c c', Reaches machine policy start c ∧ Step machine policy c c' ∧ test c c' = true := by
  obtain ⟨c,played,last⟩ := Option.bind_eq_some_iff.mp passes
  obtain ⟨c',stepped,holds⟩ := Option.map_eq_some_iff.mp last
  exact ⟨c,c',play_reaches machine ok sound schedule start c played,
    stepAt_step machine ok sound stepped,holds⟩

theorem play_free (start : Config σ τ) (schedule : List (Nat × ω)) (test : Config σ τ → Bool)
    (passes : (play machine (fun _ _ _ => true) start schedule).any test = true) :
    ∃ c, Reaches machine Policy.free start c ∧ test c = true :=
  play_any machine _ .free (fun _ _ _ _ => trivial) start schedule test passes

end Schedules

end QuickConnect.TaskPool
