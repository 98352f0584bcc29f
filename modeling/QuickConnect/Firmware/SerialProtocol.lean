import QuickConnect.Firmware.Outward
import QuickConnect.Firmware.SerialReport

/-! The serial output as a conversation. An automaton for the listener follows the lines of
every run, and each line has an event of the firmware behind it. -/
namespace QuickConnect.Firmware
open EventGroup

/-- What the listener waits for. -/
inductive Listener
  | wifi | keyBegun | keyEnded | claimBegun | claimEnded | cert | thingName | done
  deriving DecidableEq, Repr

def Listener.hear : Listener → Line → Option Listener
  | .wifi, .wifiDisconnected => some .wifi
  | .wifi, .wifiConnected => some .keyBegun
  | .keyBegun, .privKeyAndCsrGen => some .keyEnded
  | .keyEnded, .privKeyAndCsrFail => some .claimBegun
  | .keyEnded, .privKeyAndCsrSuccess => some .claimBegun
  | .claimBegun, .selfClaimPerf => some .claimEnded
  | .claimEnded, .selfClaimFail => some .done
  | .claimEnded, .selfClaimSuccess => some .cert
  | .cert, .cert _ => some .thingName
  | .thingName, .thingName _ => some .done
  | _, _ => none

def hears (lines : List Line) : Option Listener := lines.foldlM Listener.hear .wifi

/-- Where the listener stands when the utility task stands here. -/
def UtilityPoint.listener : UtilityPoint → Listener
  | .waitWifi | .printWifi _ => .wifi
  | .waitGen | .printGen => .keyBegun
  | .waitPrivKey | .printPrivKey _ => .keyEnded
  | .waitGet | .printGet => .claimBegun
  | .waitCert | .printCert _ => .claimEnded
  | .sendCert => .cert
  | .sendThingName => .thingName

/-- The listener while the utility task runs or is to come. -/
def Task.listener : Task → Listener
  | .utility point => point.listener
  | _ => .wifi

/-- The event that a line reports. -/
def Line.reports : Line → UtilBit
  | .wifiConnected => .wifiConnected
  | .wifiDisconnected => .wifiDisconnected
  | .privKeyAndCsrGen => .privKeyAndCsrGen
  | .privKeyAndCsrFail => .privKeyAndCsrFail
  | .privKeyAndCsrSuccess => .privKeyAndCsrSuccess
  | .selfClaimPerf => .selfClaimCertGet
  | .selfClaimFail => .selfClaimCertFail
  | .selfClaimSuccess | .cert _ | .thingName _ => .selfClaimCertSuccess

/-- One utility task at most, in step with the listener, and nothing is told that was not
signalled. -/
structure Speaking (c : Config) : Prop where
  one : population .utility c ≤ 1
  heard : ∃ l, hears c.shared.serial = some l
  along : ∀ t ∈ c.tasks, t.population .utility = 1 → hears c.shared.serial = some t.listener
  pending : ∀ b ∈ c.shared.util, b ∈ c.shared.signals
  telling : ∀ t ∈ c.tasks, ∀ line ∈ t.prints c.shared, line.reports ∈ c.shared.signals
  told : ∀ line ∈ c.shared.serial, line.reports ∈ c.shared.signals

section Speech
variable {d d' : Device} {o : Outcome} {next before after : List Task} {t : Task}

theorem hears_more {l : Listener} {lines more : List Line} (heard : hears lines = some l) :
    hears (lines ++ more) = more.foldlM Listener.hear l := by
  rw [hears,List.foldlM_append]
  change (hears lines >>= fun l => more.foldlM Listener.hear l) = _
  rw [heard]
  rfl

theorem utility_heard {point : UtilityPoint} (ran : prvUtilityOutputTask d o point = some (d',next)) :
    ∃ l, (point.prints d).foldlM Listener.hear point.listener = some l ∧
      ∀ later, .utility later ∈ next → later.listener = l := by
  cases point <;> simp only [prvUtilityOutputTask,consumeBits_some,proceed_some] at ran
  case waitWifi | waitGen | waitPrivKey | waitGet | waitCert =>
    obtain ⟨_,_,_,rfl⟩ := ran
    refine ⟨_,rfl,fun later created => ?_⟩
    cases List.mem_singleton.mp created
    rfl
  case printWifi bits =>
    obtain ⟨_,ran⟩ := ran
    cases ran
    by_cases lost : .wifiDisconnected ∈ bits
    · refine ⟨.wifi,?_,fun later created => ?_⟩
      · simp [UtilityPoint.prints,wifiNotification,lost,UtilityPoint.listener,Listener.hear]
      · rw [if_pos lost,List.mem_singleton] at created
        cases created
        rfl
    · refine ⟨.keyBegun,?_,fun later created => ?_⟩
      · simp [UtilityPoint.prints,wifiNotification,lost,UtilityPoint.listener,Listener.hear]
      · rw [if_neg lost,List.mem_singleton] at created
        cases created
        rfl
  case printPrivKey bits =>
    obtain ⟨_,ran⟩ := ran
    cases ran
    refine ⟨.claimBegun,?_,fun later created => ?_⟩
    · by_cases failed : .privKeyAndCsrFail ∈ bits <;>
        simp [UtilityPoint.prints,privKeyNotification,failed,UtilityPoint.listener,Listener.hear]
    · cases List.mem_singleton.mp created
      rfl
  case printCert bits =>
    obtain ⟨_,ran⟩ := ran
    cases ran
    by_cases failed : .selfClaimCertFail ∈ bits
    · refine ⟨.done,?_,fun later created => ?_⟩
      · simp [UtilityPoint.prints,certNotification,failed,UtilityPoint.listener,Listener.hear]
      · rw [if_pos failed] at created
        cases created
    · refine ⟨.cert,?_,fun later created => ?_⟩
      · simp [UtilityPoint.prints,certNotification,failed,UtilityPoint.listener,Listener.hear]
      · rw [if_neg failed,List.mem_singleton] at created
        cases created
        rfl
  case sendThingName =>
    obtain ⟨_,ran⟩ := ran
    cases ran
    exact ⟨.done,rfl,fun _ created => by cases created⟩
  all_goals
    obtain ⟨_,ran⟩ := ran
    cases ran
    refine ⟨_,rfl,fun later created => ?_⟩
    cases List.mem_singleton.mp created
    rfl

/-- What a task is about to tell it tells whatever the texts. -/
theorem prints_reports {line : Line} (telling : line ∈ t.prints d') :
    ∃ same ∈ t.prints d, same.reports = line.reports := by
  cases t with
  | utility point =>
    cases point with
    | sendCert =>
      cases List.mem_singleton.mp telling
      exact ⟨_,List.mem_singleton_self _,rfl⟩
    | sendThingName =>
      cases List.mem_singleton.mp telling
      exact ⟨_,List.mem_singleton_self _,rfl⟩
    | _ => exact ⟨line,telling,rfl⟩
  | _ => cases telling

theorem notification_reports {bits : Finset UtilBit} (p : Phase) (some' : (bits ∩ p.bits).Nonempty) :
    (p.notification bits).reports ∈ bits := by
  by_cases lost : p.failure ∈ bits
  · rw [notification_failure lost]
    cases p <;> exact lost
  · rw [notification_success lost]
    obtain ⟨b,inside⟩ := some'
    rw [Finset.mem_inter,mem_bits] at inside
    obtain ⟨present,rfl | rfl⟩ := inside
    · cases p <;> exact present
    · exact absurd present lost

theorem phase_tells (p : Phase) (ran : prvUtilityOutputTask d o p.wait = some (d',next))
    (pending : ∀ b ∈ d.util, b ∈ d.signals) {later : UtilityPoint} (created : .utility later ∈ next)
    {line : Line} (telling : line ∈ later.prints d') : line.reports ∈ d.signals := by
  obtain ⟨some',rfl⟩ := consumption p ran
  cases List.mem_singleton.mp created
  have same : (p.printing d.util).prints d' = [p.notification d.util] := by cases p <;> rfl
  rw [same,List.mem_singleton] at telling
  rw [telling]
  exact pending _ (notification_reports p some')

theorem utility_tells {point later : UtilityPoint}
    (ran : prvUtilityOutputTask d o point = some (d',next)) (created : .utility later ∈ next)
    (own : ∀ line ∈ point.prints d, line.reports ∈ d.signals)
    (pending : ∀ b ∈ d.util, b ∈ d.signals) {line : Line} (telling : line ∈ later.prints d') :
    line.reports ∈ d.signals := by
  cases point with
  | waitWifi => exact phase_tells .wifi ran pending created telling
  | waitPrivKey => exact phase_tells .privKey ran pending created telling
  | waitCert => exact phase_tells .cert ran pending created telling
  | waitGen | waitGet =>
    simp only [prvUtilityOutputTask,consumeBits_some] at ran
    obtain ⟨_,ready,_,rfl⟩ := ran
    cases List.mem_singleton.mp created
    cases List.mem_singleton.mp telling
    exact pending _ (ready (Finset.mem_singleton_self _))
  | printWifi bits =>
    obtain ⟨_,ran⟩ := proceed_some.mp ran
    cases ran
    cases List.mem_singleton.mp created
    split at telling <;> cases telling
  | printCert bits =>
    obtain ⟨_,ran⟩ := proceed_some.mp ran
    cases ran
    split at created
    · cases created
    · rename_i kept
      cases List.mem_singleton.mp created
      cases List.mem_singleton.mp telling
      have reports := own _ (List.mem_singleton_self _)
      rw [certNotification,if_neg kept] at reports
      exact reports
  | sendCert =>
    obtain ⟨_,ran⟩ := proceed_some.mp ran
    cases ran
    cases List.mem_singleton.mp created
    cases List.mem_singleton.mp telling
    exact own (.cert d.pcDevCert) (List.mem_singleton_self _)
  | sendThingName =>
    obtain ⟨_,ran⟩ := proceed_some.mp ran
    cases ran
    cases created
  | _ =>
    obtain ⟨_,ran⟩ := proceed_some.mp ran
    cases ran
    cases List.mem_singleton.mp created
    cases telling

theorem Speaking.telling_run (safe : Speaking ⟨d,before ++ t :: after⟩)
    (ran : taskStep d o t = some (d',next)) {u : Task} (member : u ∈ before ++ next ++ after)
    {line : Line} (telling : line ∈ u.prints d') : line.reports ∈ d.signals := by
  have mine : t ∈ before ++ t :: after := by simp
  rcases TaskPool.mem_replaced.mp member with created | inside
  · cases u with
    | utility later =>
      rcases (succession ran).programs _ created with ⟨first,_⟩ | same
      · have starting : later = .waitWifi := by simpa [firstTasks] using first
        subst starting
        cases telling
      · cases t <;> cases same
        exact utility_tells ran created (safe.telling _ mine) safe.pending telling
    | _ => cases telling
  · obtain ⟨same,old,reports⟩ := prints_reports (d := d) telling
    rw [← reports]
    exact safe.telling u (TaskPool.mem_focused.mpr (.inr inside)) same old

theorem Speaking.along_run (safe : Speaking ⟨d,before ++ t :: after⟩)
    (ran : taskStep d o t = some (d',next)) :
    (∃ l, hears d'.serial = some l) ∧
      ∀ u ∈ before ++ next ++ after, u.population .utility = 1 →
        hears d'.serial = some u.listener := by
  have mine : t ∈ before ++ t :: after := by simp
  by_cases silent : t.program = .utility
  · cases t with
    | utility point =>
      obtain ⟨l,spoken,later⟩ := utility_heard ran
      have now : hears d'.serial = some l := by
        rw [(taskStep_outward ran).serial,hears_more (safe.along _ mine rfl)]
        exact spoken
      refine ⟨⟨l,now⟩,fun u member own => ?_⟩
      rcases TaskPool.mem_replaced.mp member with created | inside
      · rcases (succession ran).programs u created with ⟨_,spawns⟩ | same
        · cases spawns
        · cases u <;> cases same
          rw [now]
          exact congrArg some (later _ created).symm
      · have alone := alone_in_population .utility safe.one rfl inside
        rw [own] at alone
        cases alone
    | _ => cases silent
  · have quiet : t.prints d = [] := by
      cases t with
      | utility point => exact absurd rfl silent
      | _ => rfl
    rw [(taskStep_outward ran).serial,quiet,List.append_nil]
    refine ⟨safe.heard,fun u member own => ?_⟩
    rcases TaskPool.mem_replaced.mp member with created | inside
    · have weight := TaskPool.le_sum_of_mem (Task.population .utility) created
      have paid := (succession ran).population .utility
      have early : t.program = .main := by
        cases t with
        | main point => rfl
        | utility point => exact absurd rfl silent
        | _ => exact absurd (own.symm.trans_le (weight.trans paid)) (show ¬1 ≤ 0 by decide)
      cases t <;> cases early
      rename_i point
      have few : Task.population .utility (.main point) ≤ 1 := by
        simp only [Task.population]
        split <;> decide
      have whole : Task.population .utility (.main point) = 1 :=
        Nat.le_antisymm few (own ▸ weight.trans paid)
      rw [safe.along _ mine whole]
      rcases (succession ran).programs u created with ⟨first,_⟩ | same
      · simp only [firstTasks,List.mem_cons,List.not_mem_nil,or_false] at first
        rcases first with rfl | rfl | rfl | rfl | rfl | rfl | rfl | rfl <;> rfl
      · cases u <;> cases same
        rfl
    · exact safe.along u (TaskPool.mem_focused.mpr (.inr inside)) own

theorem Speaking.run (safe : Speaking ⟨d,before ++ t :: after⟩)
    (ran : taskStep d o t = some (d',next)) : Speaking ⟨d',before ++ next ++ after⟩ := by
  have mine : t ∈ before ++ t :: after := by simp
  have effect := taskStep_effect ran
  have signalled : ∀ b ∈ d.signals, b ∈ d'.signals := by
    intro b old
    rw [effect.signals]
    exact List.mem_append_right _ old
  obtain ⟨heard,along⟩ := safe.along_run ran
  refine ⟨?_,heard,along,?_,?_,?_⟩
  · have paid := (succession ran).population .utility
    have one := safe.one
    unfold population at one ⊢
    rw [TaskPool.total_focused] at one
    rw [TaskPool.total_replaced]
    omega
  · intro b pending
    change b ∈ d'.util at pending
    change b ∈ d'.signals
    rw [effect.util,mem_setBits,mem_clearBits,List.mem_toFinset] at pending
    rcases pending with ⟨old,_⟩ | new
    · exact signalled b (safe.pending b old)
    · rw [effect.signals]
      exact List.mem_append_left _ new
  · intro u member line telling
    exact signalled _ (safe.telling_run ran member telling)
  · intro line printed
    change line ∈ d'.serial at printed
    rw [(taskStep_outward ran).serial,List.mem_append] at printed
    rcases printed with old | new
    · exact signalled _ (safe.told line old)
    · exact signalled _ (safe.telling t mine line new)

theorem Speaking.boot (mac : Vector UInt8 6) (nvs : DurableMap RuntimeKey Str) :
    Speaking (boot mac nvs) where
  one := (population_boot .utility mac nvs).le
  heard := ⟨.wifi,rfl⟩
  along t member _ := by
    cases List.mem_singleton.mp member
    rfl
  pending b inside := by cases inside
  telling t member line telling := by
    cases List.mem_singleton.mp member
    cases telling
  told line printed := by cases printed

/-- Whatever happens, the listener can follow what is printed and stands where the utility task
stands, and each line reports what was signalled. -/
theorem serial_protocol (policy : Policy) (mac : Vector UInt8 6) (nvs : DurableMap RuntimeKey Str)
    (c : Config) (run : Reaches policy (boot mac nvs) c) :
    (∃ l, hears c.shared.serial = some l) ∧
      (∀ point, .utility point ∈ c.tasks → hears c.shared.serial = some point.listener) ∧
      ∀ line ∈ c.shared.serial, line.reports ∈ c.shared.signals := by
  have safe : Speaking c := by
    apply TaskPool.Reaches.invariant Speaking run
    · exact .boot mac nvs
    · intro c c' safe step
      cases step with
      | run s s' before after t o next permitted ran => exact safe.run (exec_some ran).2
      | restart _ permitted => exact .boot _ _
  exact ⟨safe.heard,fun point member => safe.along _ member rfl,safe.told⟩

end Speech

set_option maxRecDepth 4000 in
theorem serial_protocol_announced : ∃ c, Reaches TaskPool.Policy.free (boot someMac provisioned) c ∧
    c.shared.serial = [.wifiConnected,.privKeyAndCsrGen] ∧
    hears c.shared.serial = some .keyEnded ∧ .privKeyAndCsrGen ∈ c.shared.signals := by
  obtain ⟨c,run,test⟩ := TaskPool.play_free machine (boot someMac provisioned) keyAnnounced
    (fun c => .utility .waitPrivKey ∈ c.tasks ∧
      c.shared.serial = [.wifiConnected,.privKeyAndCsrGen]) (by decide)
  obtain ⟨waiting,printed⟩ := of_decide_eq_true test
  obtain ⟨_,along,told⟩ := serial_protocol TaskPool.Policy.free someMac provisioned c run
  refine ⟨c,run,printed,along _ waiting,told .privKeyAndCsrGen ?_⟩
  rw [printed]
  decide

end QuickConnect.Firmware
