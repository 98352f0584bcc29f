import QuickConnect.Firmware.Steps

/-! Which tasks a step leaves behind. The tasks that run for as long as the device
does are created once each, so from boot there is never a second one. -/
namespace QuickConnect.Firmware

inductive Program
  | main | handler | network | privKey | cert | tls | mqtt | sending | utility
  deriving DecidableEq

def Task.program : Task → Program
  | .main _ => .main
  | .handler _ => .handler
  | .network _ => .network
  | .privKey _ => .privKey
  | .cert _ => .cert
  | .tls _ => .tls
  | .mqtt _ => .mqtt
  | .sending _ => .sending
  | .utility _ => .utility

def firstTasks : List Task :=
  [.handler .idle,.utility .waitWifi,.network .start,.sending .delay,
    .privKey .notify,.cert .notify,.tls .waiting,.mqtt .waiting]

inductive Lasting
  | handler | utility | network | sending
  deriving DecidableEq

def Lasting.program : Lasting → Program
  | .handler => .handler
  | .utility => .utility
  | .network => .network
  | .sending => .sending

def MainPoint.order : MainPoint → Nat
  | .readThingName => 0
  | .readNodeId => 1
  | .test => 2
  | .getMac => 3
  | .format => 4
  | .storeNodeId => 5
  | .storeThingName => 6
  | .createGroups => 7
  | .createUtility => 8
  | .createNetwork => 9
  | .createSending => 10

def Lasting.createdAt : Lasting → MainPoint
  | .handler => .createGroups
  | .utility => .createUtility
  | .network => .createNetwork
  | .sending => .createSending

def Task.population (k : Lasting) : Task → Nat
  | .main point => if point.order ≤ k.createdAt.order then 1 else 0
  | t => if t.program = k.program then 1 else 0

def population (k : Lasting) (c : Config) : Nat := TaskPool.total (fun _ => 0) (Task.population k) c

def Task.spawns : Task → Bool
  | .main _ | .network _ => true
  | _ => false

structure Succession (t : Task) (next : List Task) : Prop where
  programs : ∀ u ∈ next, u ∈ firstTasks ∧ t.spawns = true ∨ u.program = t.program
  population : ∀ k, (next.map (Task.population k)).sum ≤ t.population k

section
variable {d d' : Device} {t u : Task} {o : Outcome} {next : List Task}

theorem population_of_program {k : Lasting} (same : u.program = t.program)
    (running : t.program ≠ .main) : u.population k = t.population k := by
  cases t with
  | main point => exact absurd rfl running
  | _ =>
    cases u with
    | main point => cases same
    | _ => simp only [Task.population,same]

theorem Succession.ended : Succession t [] where
  programs := nofun
  population _ := Nat.zero_le _

theorem Succession.stays (same : u.program = t.program) (running : t.program ≠ .main) :
    Succession t [u] where
  programs v member := by
    rw [List.mem_singleton] at member
    rw [member]
    exact .inr same
  population k := by
    rw [List.map_singleton,List.sum_singleton,population_of_program same running]

theorem Succession.main {point : MainPoint} (ran : appMain d o point = some (d',next)) :
    Succession (.main point) next := by
  cases point <;> cases o <;> simp only [appMain,proceed,call,drawn,reduceCtorEq] at ran
  all_goals
    (try split at ran) <;> cases ran <;>
      exact ⟨by simp [firstTasks,Task.program,Task.spawns],fun k => by cases k <;> decide⟩

theorem Succession.network {point : NetworkPoint}
    (ran : prvNetworkHandlingTask d o point = some (d',next)) : Succession (.network point) next := by
  have running : (Task.network point).program ≠ .main := fun other => by cases other
  cases point with
  | waiting =>
    obtain ⟨_,_,_,rfl⟩ := network_waiting_some ran
    exact .stays rfl running
  | start =>
    obtain ⟨_,ran⟩ := proceed_some.mp ran
    cases ran
    exact .stays rfl running
  | wifi bits =>
    simp only [prvNetworkHandlingTask] at ran
    cases o <;> split at ran <;> simp only [proceed,call,reduceCtorEq] at ran <;> cases ran <;>
      exact .stays rfl running
  | create a bits =>
    simp only [prvNetworkHandlingTask] at ran
    split at ran
    · rcases call_some.mp ran with ⟨_,ran⟩ | ⟨_,ran⟩ <;> cases ran
      · constructor
        · intro u member
          rcases List.mem_pair.mp member with rfl | rfl
          · exact .inr rfl
          · left
            cases a <;> simp [firstTasks,Activity.firstStep,Task.spawns]
        · intro k
          cases a <;> cases k <;> exact Nat.le_refl _
      · exact .stays rfl running
    · obtain ⟨_,ran⟩ := proceed_some.mp ran
      cases ran
      exact .stays rfl running

theorem Succession.handler {point : HandlerPoint}
    (ran : prvEventHandlers d o point = some (d',next)) : Succession (.handler point) next := by
  have running : (Task.handler point).program ≠ .main := fun other => by cases other
  cases point <;> cases o <;> simp only [prvEventHandlers,proceed,reduceCtorEq] at ran
  all_goals (try split at ran) <;> cases ran <;> exact .stays rfl running

theorem Succession.privKey {point : PrivKeyPoint}
    (ran : prvGetPrivKeyTask d o point = some (d',next)) : Succession (.privKey point) next := by
  have running : (Task.privKey point).program ≠ .main := fun other => by cases other
  cases point <;> cases o <;> simp only [prvGetPrivKeyTask,proceed,call,reduceCtorEq] at ran
  all_goals (try split at ran) <;> cases ran <;> first | exact .ended | exact .stays rfl running

theorem Succession.cert {point : CertPoint} (ran : prvGetCertTask d o point = some (d',next)) :
    Succession (.cert point) next := by
  have running : (Task.cert point).program ≠ .main := fun other => by cases other
  cases point with
  | waiting =>
    obtain ⟨_,_,_,rfl⟩ := awaitBits_some.mp ran
    exact .stays rfl running
  | enter =>
    simp only [prvGetCertTask] at ran
    cases o <;> split at ran <;> (try split at ran) <;>
      simp only [proceed,reduceCtorEq] at ran <;> cases ran <;> exact .stays rfl running
  | release address verified =>
    obtain ⟨_,ran⟩ := proceed_some.mp ran
    cases ran
    cases verified <;> exact .stays rfl running
  | _ =>
    cases o <;> simp only [prvGetCertTask,proceed,call,reduceCtorEq] at ran
    all_goals (try split at ran) <;> cases ran <;> first | exact .ended | exact .stays rfl running

theorem Succession.tls {point : TlsPoint} (ran : prvTlsConnectionTask d o point = some (d',next)) :
    Succession (.tls point) next := by
  have running : (Task.tls point).program ≠ .main := fun other => by cases other
  cases point with
  | waiting =>
    obtain ⟨_,_,_,rfl⟩ := awaitBits_some.mp ran
    exact .stays rfl running
  | _ =>
    cases o <;> simp only [prvTlsConnectionTask,proceed,call,reduceCtorEq] at ran
    all_goals (try split at ran) <;> cases ran <;> first | exact .ended | exact .stays rfl running

theorem Succession.mqtt {point : MqttPoint}
    (ran : prvMqttConnectionTask d o point = some (d',next)) : Succession (.mqtt point) next := by
  have running : (Task.mqtt point).program ≠ .main := fun other => by cases other
  cases point with
  | waiting =>
    obtain ⟨_,_,_,rfl⟩ := awaitBits_some.mp ran
    exact .stays rfl running
  | connect =>
    cases o <;> simp only [prvMqttConnectionTask,reduceCtorEq] at ran
    cases ran
    exact .stays rfl running
  | report status =>
    obtain ⟨_,ran⟩ := proceed_some.mp ran
    cases status <;> cases ran <;> first | exact .ended | exact .stays rfl running
  | dropped =>
    obtain ⟨_,ran⟩ := proceed_some.mp ran
    cases ran
    exact .ended

theorem Succession.sending {point : SendingPoint}
    (ran : prvQuickConnectSendingTask d o point = some (d',next)) :
    Succession (.sending point) next := by
  have running : (Task.sending point).program ≠ .main := fun other => by cases other
  cases point with
  | waiting =>
    obtain ⟨_,_,_,rfl⟩ := awaitBits_some.mp ran
    exact .stays rfl running
  | _ =>
    cases o <;> simp only [prvQuickConnectSendingTask,proceed,reduceCtorEq] at ran
    all_goals (try split at ran) <;> cases ran <;> exact .stays rfl running

theorem Succession.utility {point : UtilityPoint}
    (ran : prvUtilityOutputTask d o point = some (d',next)) : Succession (.utility point) next := by
  have running : (Task.utility point).program ≠ .main := fun other => by cases other
  cases point <;> simp only [prvUtilityOutputTask,consumeBits_some,proceed_some] at ran
  case waitWifi | waitGen | waitPrivKey | waitGet | waitCert =>
    obtain ⟨_,_,_,rfl⟩ := ran
    exact .stays rfl running
  all_goals
    obtain ⟨_,ran⟩ := ran
    cases ran
    (try split) <;> first | exact .ended | exact .stays rfl running

theorem succession (ran : taskStep d o t = some (d',next)) : Succession t next := by
  cases t with
  | main point => exact .main ran
  | handler point => exact .handler ran
  | network point => exact .network ran
  | privKey point => exact .privKey ran
  | cert point => exact .cert ran
  | tls point => exact .tls ran
  | mqtt point => exact .mqtt ran
  | sending point => exact .sending ran
  | utility point => exact .utility ran

end

section
variable (k : Lasting)

theorem population_boot (mac : Vector UInt8 6) (nvs : DurableMap RuntimeKey Str) :
    population k (boot mac nvs) = 1 := by
  cases k <;> rfl

theorem population_step {policy : Policy} {c c' : Config} (few : population k c ≤ 1)
    (step : Step policy c c') : population k c' ≤ 1 := by
  cases step with
  | run s s' before after t o next permitted ran =>
    have kept := (succession (exec_some ran).2).population k
    unfold population at few ⊢
    rw [TaskPool.total_focused] at few
    rw [TaskPool.total_replaced]
    omega
  | restart _ permitted => exact (population_boot k _ _).le

theorem population_run {policy : Policy} {mac : Vector UInt8 6} {nvs : DurableMap RuntimeKey Str}
    {c : Config} (run : Reaches policy (boot mac nvs) c) : population k c ≤ 1 := by
  refine TaskPool.Reaches.invariant (population k · ≤ 1) run ?_ ?_
  · exact (population_boot k mac nvs).le
  · intro c c' few step
    exact population_step k few step

theorem alone_in_population {s : Device} {before after : List Task} {t u : Task}
    (few : population k ⟨s,before ++ t :: after⟩ ≤ 1) (first : t.population k = 1)
    (member : u ∈ before ++ after) : u.population k = 0 := by
  have pair := TaskPool.pair_le_total (fun _ => 0) (Task.population k) s member (t := t)
  unfold population at few
  omega

theorem same_in_population {c : Config} {t u : Task} (few : population k c ≤ 1)
    (first : t ∈ c.tasks) (second : u ∈ c.tasks) (own : t.population k = 1)
    (theirs : u.population k = 1) : u = t := by
  obtain ⟨s,tasks⟩ := c
  obtain ⟨before,after,rfl⟩ := List.append_of_mem first
  rcases TaskPool.mem_focused.mp second with same | inside
  · exact same
  · rw [alone_in_population k few own inside] at theirs
    cases theirs

end
def someMac : Vector UInt8 6 := #v[0x24,0x0a,0xc4,0x01,0x02,0x03]

def provisioned : DurableMap RuntimeKey Str
  | .certificate => some (Text.bytes "certificate")
  | .key => some (Text.bytes "key")
  | .thingname => some (Text.bytes "thing")
  | .nodeid => some (Text.bytes "node")

/-- app_main with stored names: the sending task is at 0, the network task at 1, the
utility task at 2, the handlers at 3. -/
def appMainRuns : List (Nat × Outcome) :=
  [(0,.ok),(0,.ok),(0,.go),(0,.go),(0,.ok),(0,.ok),(0,.ok)]

/-- Everything is started and an address is there: MQTT at 2, TLS at 3, certificate at 4, key at 5. -/
def allStarted : List (Nat × Outcome) :=
  appMainRuns ++ [(1,.go),(3,.event .staGotIp),(3,.go),(1,.go),(1,.ok),(1,.ok),(1,.ok),(1,.ok),(1,.ok)]

def credentialsRead : List (Nat × Outcome) :=
  [(5,.go),(5,.ok),(5,.go),(5,.ok),(5,.go),(5,.go),(5,.go),(5,.go),
    (4,.go),(4,.ok),(4,.go),(4,.go),(4,.go),(4,.go)]

end QuickConnect.Firmware
