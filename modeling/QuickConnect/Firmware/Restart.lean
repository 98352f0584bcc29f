import QuickConnect.Firmware.Population
import QuickConnect.Firmware.Tokens

/-! Whether the supervisor always hears of an activity that is down. Every exit of a
task hands the activity's token on, except one that only logs and a task creation
whose failure goes unnoticed. -/
namespace QuickConnect.Firmware
open EventGroup

/-- The activity runs, has succeeded, or is about to be started again. -/
def Accounted (a : Activity) (c : Config) : Prop :=
  Requested c.shared.net a.failBit ∨ (∃ t ∈ c.tasks, t.consumed a = true) ∨
    (∃ t ∈ c.tasks, t.unreported a = true) ∨ a.successBit ∈ c.shared.net ∨
      ∃ t ∈ c.tasks, t.dropping a = true

/-- The network task has come past setting INIT_BIT. -/
def Task.supervising : Task → Bool
  | .network point => decide (point ≠ .start)
  | _ => false

def Supervised (c : Config) : Prop := ∃ t ∈ c.tasks, t.supervising = true

instance (a : Activity) (c : Config) : Decidable (Accounted a c) := by
  unfold Accounted
  infer_instance

instance (c : Config) : Decidable (Supervised c) := by
  unfold Supervised
  infer_instance

def creates (t : Task) (o : Outcome) : Bool :=
  match t with
  | .network (.create _ _) => o ≠ .fail
  | _ => true

def fitsBuffer (t : Task) (o : Outcome) : Bool :=
  match t with
  | .mqtt .connect => o ≠ .status .noMemory
  | _ => true

/-- Every xTaskCreate of the network task succeeds. -/
def creating : Policy := ⟨fun _ t o => creates t o = true,True⟩

/-- eMqttConnect never returns MQTTNoMemory. -/
def fitting : Policy := ⟨fun _ t o => fitsBuffer t o = true,True⟩

def restarting : Policy := ⟨fun _ t o => creates t o = true ∧ fitsBuffer t o = true,True⟩

structure Restartable (c : Config) : Prop where
  one : population .network c ≤ 1
  fits : .mqtt (.report .noMemory) ∉ c.tasks
  kept : Supervised c → ∀ a, 1 ≤ tokens a c

section
variable {d d' : Device} {before after next : List Task} {t u : Task} {o : Outcome}

theorem supervising_population (supervising : u.supervising = true) : u.population .network = 1 := by
  cases u with
  | network point => rfl
  | _ => cases supervising

theorem starting_population (starting : u.starting = true) : u.population .network = 1 := by
  cases u with
  | network point => rfl
  | main point => cases point <;> first | rfl | cases starting
  | _ => cases starting

theorem supervising_next (ran : taskStep d o t = some (d',next)) (created : u ∈ next)
    (supervising : u.supervising = true) : t.supervising = true ∨ t = .network .start := by
  rcases (succession ran).programs u created with ⟨first,_⟩ | same
  · simp only [firstTasks,List.mem_cons,List.not_mem_nil,or_false] at first
    rcases first with rfl | rfl | rfl | rfl | rfl | rfl | rfl | rfl <;> cases supervising
  · cases u with
    | network point =>
      cases t <;> cases same
      rename_i own
      by_cases start : own = .start
      · exact .inr (by rw [start])
      · exact .inl (decide_eq_true start)
    | _ => cases supervising

theorem lossless_of_supervised (one : population .network ⟨d,before ++ t :: after⟩ ≤ 1)
    (fits : t ≠ .mqtt (.report .noMemory)) (supervised : Supervised ⟨d,before ++ t :: after⟩)
    (permitted : creates t o = true) : ¬ Loses t o := by
  rintro (rfl | ⟨point,rfl,early,_⟩ | ⟨a,bits,rfl,_,rfl⟩)
  · exact fits rfl
  · obtain ⟨u,member,supervising⟩ := supervised
    rcases TaskPool.mem_focused.mp member with rfl | inside
    · cases supervising
    · have mine : Task.population .network (.main point) = 1 := by
        cases point <;> first | rfl | exact absurd rfl early
      have alone := alone_in_population .network one mine inside
      rw [supervising_population supervising] at alone
      cases alone
  · cases permitted

theorem Restartable.run (safe : Restartable ⟨d,before ++ t :: after⟩)
    (creation : creates t o = true) (fit : fitsBuffer t o = true)
    (ran : taskStep d o t = some (d',next)) : Restartable ⟨d',before ++ next ++ after⟩ := by
  have mine : t ∈ before ++ t :: after := by simp
  constructor
  · have paid := (succession ran).population .network
    have one := safe.one
    unfold population at one ⊢
    rw [TaskPool.total_focused] at one
    rw [TaskPool.total_replaced]
    omega
  · intro member
    rcases TaskPool.mem_replaced.mp member with created | inside
    · rcases (succession ran).programs _ created with ⟨first,_⟩ | same
      · simp [firstTasks] at first
      · cases t <;> cases same
        rename_i point
        cases point with
        | connect =>
          cases o <;> simp only [taskStep,prvMqttConnectionTask,reduceCtorEq] at ran
          cases ran
          cases List.mem_singleton.mp created
          cases fit
        | waiting =>
          obtain ⟨_,_,_,rfl⟩ := awaitBits_some.mp ran
          cases List.mem_singleton.mp created
        | report status =>
          obtain ⟨_,ran⟩ := proceed_some.mp ran
          cases status <;> cases ran <;> first | cases List.mem_singleton.mp created | cases created
        | dropped =>
          obtain ⟨_,ran⟩ := proceed_some.mp ran
          cases ran
          cases created
    · exact safe.fits (TaskPool.mem_focused.mpr (.inr inside))
  · rintro ⟨u,member,supervising⟩ a
    have already : Supervised ⟨d,before ++ t :: after⟩ ∨ t = .network .start := by
      rcases TaskPool.mem_replaced.mp member with created | inside
      · refine (supervising_next ran created supervising).imp_left fun own => ⟨t,mine,own⟩
      · exact .inl ⟨u,TaskPool.mem_focused.mpr (.inr inside),supervising⟩
    rcases already with supervised | rfl
    · have lossless := lossless_of_supervised safe.one (fun lost => safe.fits (lost ▸ mine))
        supervised creation
      exact tokens_kept a ran before after lossless (safe.kept supervised a)
    · have set : .init ∈ d'.net := by
        rw [(taskStep_effect ran).net,mem_setBits]
        exact .inr (by decide)
      have pending : 0 < held a.bits d'.net := held_pos_iff.mpr ⟨.init,by simp [Activity.bits],set⟩
      unfold tokens TaskPool.total
      change 1 ≤ held a.bits d'.net + _
      omega

end

theorem Restartable.boot (mac : Vector UInt8 6) (nvs : DurableMap RuntimeKey Str) :
    Restartable (boot mac nvs) where
  one := (population_boot .network mac nvs).le
  fits member := by cases List.mem_singleton.mp member
  kept supervised := by
    obtain ⟨t,member,supervising⟩ := supervised
    cases List.mem_singleton.mp member
    cases supervising

theorem restartable_run {mac : Vector UInt8 6} {nvs : DurableMap RuntimeKey Str} {c : Config}
    (run : Reaches restarting (boot mac nvs) c) : Restartable c := by
  apply TaskPool.Reaches.invariant Restartable run
  · exact .boot mac nvs
  · intro c c' safe step
    cases step with
    | run s s' before after t o next permitted ran =>
      exact safe.run permitted.1 permitted.2 (exec_some ran).2
    | restart _ permitted => exact .boot _ _

/-- Once INIT_BIT was set no restart request is lost, in every run in which the
network task's task creations succeed and eMqttConnect never lacks memory. -/
theorem restart_request_kept (mac : Vector UInt8 6) (nvs : DurableMap RuntimeKey Str) (c : Config)
    (run : Reaches restarting (boot mac nvs) c) (supervised : Supervised c) (a : Activity) :
    Accounted a c := by
  have safe := restartable_run run
  obtain ⟨s,tasks⟩ := c
  have some := safe.kept supervised a
  by_cases pending : 0 < held a.bits s.net
  · obtain ⟨b,own,set⟩ := held_pos_iff.mp pending
    simp only [Activity.bits,Finset.mem_insert,Finset.mem_singleton] at own
    rcases own with rfl | rfl | rfl
    · exact .inl (.inl set)
    · exact .inl (.inr set)
    · exact .inr (.inr (.inr (.inl set)))
  · have positive : 0 < (tasks.map (Task.weight a)).sum := by
      unfold tokens TaskPool.total at some
      change 1 ≤ held a.bits s.net + (tasks.map (Task.weight a)).sum at some
      omega
    obtain ⟨t,member,weight⟩ := TaskPool.exists_of_sum_pos (Task.weight a) positive
    have holds : t.holds a = true := by
      cases h : t.holds a with
      | true => rfl
      | false =>
        rw [Task.weight,h] at weight
        cases weight
    simp only [Task.holds,Bool.or_eq_true] at holds
    rcases holds with ((starting | consumed) | unreported) | dropping
    · exfalso
      obtain ⟨u,inside,supervising⟩ := supervised
      obtain ⟨before,after,rfl⟩ := List.append_of_mem member
      rcases TaskPool.mem_focused.mp inside with rfl | other
      · cases u with
        | network point => exact of_decide_eq_true supervising (of_decide_eq_true starting)
        | _ => cases supervising
      · have alone := alone_in_population .network safe.one (starting_population starting) other
        rw [supervising_population supervising] at alone
        cases alone
    · exact .inr (.inl ⟨t,member,consumed⟩)
    · exact .inr (.inr (.inl ⟨t,member,unreported⟩))
    · exact .inr (.inr (.inr (.inr ⟨t,member,dropping⟩)))

def tlsConnects : List (Nat × Outcome) :=
  [(3,.go),(3,.go),(3,.go),(3,.ok),(3,.go),(3,.ok),(3,.go)]

def publishFails : List (Nat × Outcome) :=
  allStarted ++ credentialsRead ++ tlsConnects ++
    [(2,.go),(2,.status .success),(2,.go),(0,.go),(0,.go),(0,.status .sendFailed),(0,.go)]

def connectLacksMemory : List (Nat × Outcome) :=
  allStarted ++ credentialsRead ++ tlsConnects ++ [(2,.go),(2,.status .noMemory),(2,.go)]

def tlsTaskNotCreated : List (Nat × Outcome) :=
  appMainRuns ++ [(1,.go),(1,.go),(1,.ok),(1,.ok),(1,.ok),(1,.fail),(1,.ok)]

set_option maxRecDepth 4000 in
theorem restart_request_kept_dropping :
    ∃ c, Reaches restarting (boot someMac provisioned) c ∧ .sending .dropped ∈ c.tasks ∧
      Accounted .tls c := by
  obtain ⟨c,run,test⟩ := TaskPool.play_any machine (fun _ t o => creates t o && fitsBuffer t o)
    restarting (fun _ _ _ admitted => Bool.and_eq_true_iff.mp admitted) (boot someMac provisioned) publishFails
    (fun c => .sending .dropped ∈ c.tasks ∧ Supervised c) (by decide)
  obtain ⟨dropping,supervised⟩ := of_decide_eq_true test
  exact ⟨c,run,dropping,restart_request_kept someMac provisioned c run supervised .tls⟩

set_option maxRecDepth 4000 in
theorem restart_request_lost :
    (∃ c, Reaches creating (boot someMac provisioned) c ∧ Supervised c ∧ ¬ Accounted .mqtt c) ∧
      ∃ c, Reaches fitting (boot someMac provisioned) c ∧ Supervised c ∧ ¬ Accounted .tls c := by
  constructor
  · obtain ⟨c,run,test⟩ := TaskPool.play_any machine (fun _ t o => creates t o) creating
      (fun _ _ _ => id) (boot someMac provisioned) connectLacksMemory
      (fun c => Supervised c ∧ ¬ Accounted .mqtt c) (by decide)
    exact ⟨c,run,of_decide_eq_true test⟩
  · obtain ⟨c,run,test⟩ := TaskPool.play_any machine (fun _ t o => fitsBuffer t o) fitting
      (fun _ _ _ => id) (boot someMac provisioned) tlsTaskNotCreated
      (fun c => Supervised c ∧ ¬ Accounted .tls c) (by decide)
    exact ⟨c,run,of_decide_eq_true test⟩

end QuickConnect.Firmware
