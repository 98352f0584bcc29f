import QuickConnect.Firmware.Population

/-! What the utility task tells the serial line. Success and failure of a phase are
two bits that the task consumes together, so it reports the latest outcome only
where both are not pending at once. -/
namespace QuickConnect.Firmware
open EventGroup

inductive Phase
  | wifi | privKey | cert
  deriving DecidableEq

def Phase.success : Phase → UtilBit
  | .wifi => .wifiConnected
  | .privKey => .privKeyAndCsrSuccess
  | .cert => .selfClaimCertSuccess

def Phase.failure : Phase → UtilBit
  | .wifi => .wifiDisconnected
  | .privKey => .privKeyAndCsrFail
  | .cert => .selfClaimCertFail

def Phase.bits (p : Phase) : Finset UtilBit := {p.success,p.failure}

/-- Where the utility task waits for the phase, and where it prints what it consumed. -/
def Phase.wait : Phase → UtilityPoint
  | .wifi => .waitWifi
  | .privKey => .waitPrivKey
  | .cert => .waitCert

def Phase.printing (bits : Finset UtilBit) : Phase → UtilityPoint
  | .wifi => .printWifi bits
  | .privKey => .printPrivKey bits
  | .cert => .printCert bits

def Phase.notification (bits : Finset UtilBit) : Phase → Line
  | .wifi => wifiNotification bits
  | .privKey => privKeyNotification bits
  | .cert => certNotification bits

def UtilBit.line : UtilBit → Line
  | .wifiConnected => .wifiConnected
  | .wifiDisconnected => .wifiDisconnected
  | .privKeyAndCsrGen => .privKeyAndCsrGen
  | .privKeyAndCsrFail => .privKeyAndCsrFail
  | .privKeyAndCsrSuccess => .privKeyAndCsrSuccess
  | .selfClaimCertGet => .selfClaimPerf
  | .selfClaimCertFail => .selfClaimFail
  | .selfClaimCertSuccess => .selfClaimSuccess

def Phase.latest (p : Phase) (d : Device) : Option UtilBit := EventGroup.latest p.bits d.signals

/-- Both outcomes are pending; for WiFi this matters only where it connected last. -/
def Phase.Coalesced (p : Phase) (d : Device) : Prop :=
  p.success ∈ d.util ∧ p.failure ∈ d.util ∧ (p = .wifi → p.latest d = some p.success)

instance (p : Phase) (d : Device) : Decidable (p.Coalesced d) := by
  unfold Phase.Coalesced
  infer_instance

def uncoalesced : Policy where
  permits c t _ := ∀ p : Phase, t = .utility p.wait → ¬ p.Coalesced c.shared
  restarts := True

def UtilityPoint.rank : UtilityPoint → Nat
  | .waitWifi => 0
  | .printWifi bits => if .wifiDisconnected ∈ bits then 0 else 1
  | .waitGen => 2
  | .printGen => 3
  | .waitPrivKey => 4
  | .printPrivKey _ => 5
  | .waitGet => 6
  | .printGet => 7
  | .waitCert => 8
  | .printCert _ => 9
  | .sendCert => 10
  | .sendThingName => 11

def Task.awaits (p : Phase) : Task → Bool
  | .main point => decide (point.order ≤ 8)
  | .utility point => decide (point.rank ≤ p.wait.rank)
  | _ => false

def Phase.Succeeded (d : Device) : Phase → Prop
  | .wifi => Phase.wifi.latest d = some .wifiConnected
  | .privKey => .privKeyAndCsrSuccess ∈ d.signals
  | .cert => .selfClaimCertSuccess ∈ d.signals

structure Reporting (c : Config) : Prop where
  one : population .utility c ≤ 1
  early : ∀ point, .main point ∈ c.tasks → point.order ≤ 7 →
    c.tasks = [.main point] ∧ c.shared.signals = []
  fresh : ∀ p : Phase, Fresh p.bits c.shared.util c.shared.signals
  pending : ∀ p : Phase, ∀ t ∈ c.tasks, t.awaits p = true → p.Succeeded c.shared →
    p.success ∈ c.shared.util

section
variable {d d' : Device} {before after next : List Task} {t u : Task} {o : Outcome} {p : Phase}

theorem awaits_population (awaits : u.awaits p = true) : u.population .utility = 1 := by
  cases u with
  | main point => cases point <;> first | rfl | cases awaits
  | utility point => rfl
  | _ => cases awaits

theorem main_next {point later : MainPoint} (ran : appMain d o point = some (d',next))
    (created : .main later ∈ next) :
    point.order ≤ later.order ∧ (later.order ≤ 7 → point ≠ .createGroups ∧ next = [.main later]) := by
  cases point <;> cases o <;> simp only [appMain,proceed,call,drawn,reduceCtorEq] at ran
  all_goals
    (try split at ran) <;> cases ran <;>
      simp only [List.mem_cons,Task.main.injEq,reduceCtorEq,List.not_mem_nil,or_false] at created <;>
      cases created <;> simp [MainPoint.order]

theorem utility_next {point later : UtilityPoint} (ran : prvUtilityOutputTask d o point = some (d',next))
    (created : .utility later ∈ next) : point.rank ≤ later.rank := by
  cases point <;> simp only [prvUtilityOutputTask,consumeBits_some,proceed_some] at ran
  case waitWifi | waitGen | waitPrivKey | waitGet | waitCert =>
    obtain ⟨_,_,_,rfl⟩ := ran
    cases List.mem_singleton.mp created
    simp [UtilityPoint.rank]
  case printWifi bits =>
    obtain ⟨_,ran⟩ := ran
    cases ran
    cases List.mem_singleton.mp created
    by_cases lost : .wifiDisconnected ∈ bits <;> simp [UtilityPoint.rank,lost]
  case printCert bits =>
    obtain ⟨_,ran⟩ := ran
    cases ran
    split at created
    · cases created
    · cases List.mem_singleton.mp created
      simp [UtilityPoint.rank]
  all_goals
    obtain ⟨_,ran⟩ := ran
    cases ran
    first
      | cases List.mem_singleton.mp created; simp [UtilityPoint.rank]
      | cases created

theorem awaits_next (ran : taskStep d o t = some (d',next)) (created : u ∈ next)
    (awaits : u.awaits p = true) : t.awaits p = true := by
  rcases (succession ran).programs u created with ⟨first,spawns⟩ | same
  · simp only [firstTasks,List.mem_cons,List.not_mem_nil,or_false] at first
    rcases first with rfl | rfl | rfl | rfl | rfl | rfl | rfl | rfl <;> try cases awaits
    cases t with
    | main point =>
      have counted := (succession ran).population .utility
      have one := TaskPool.le_sum_of_mem (Task.population .utility) created
      cases point <;> first | rfl | exact absurd (one.trans counted) (by decide)
    | network point =>
      have counted := (succession ran).population .utility
      have one := TaskPool.le_sum_of_mem (Task.population .utility) created
      exact absurd (one.trans counted) (show ¬ 1 ≤ 0 by decide)
    | _ => cases spawns
  · cases u with
    | main later =>
      cases t <;> cases same
      have low : later.order ≤ 8 := of_decide_eq_true awaits
      exact decide_eq_true ((main_next ran created).1.trans low)
    | utility later =>
      cases t <;> cases same
      have low : later.rank ≤ p.wait.rank := of_decide_eq_true awaits
      exact decide_eq_true ((utility_next ran created).trans low)
    | _ => cases awaits

theorem consumes_or_notifies (t : Task) : t.consumes = ∅ ∨ t.notifies = [] := by
  cases t with
  | main point => exact .inr rfl
  | utility point => exact .inr rfl
  | _ => exact .inl rfl

theorem notifies_one (t : Task) : t.notifies = [] ∨ ∃ b, t.notifies = [b] := by
  cases t with
  | handler point => cases point <;> first | exact .inl rfl | exact .inr ⟨_,rfl⟩
  | privKey point => cases point <;> first | exact .inl rfl | exact .inr ⟨_,rfl⟩
  | cert point => cases point <;> first | exact .inl rfl | exact .inr ⟨_,rfl⟩
  | _ => exact .inl rfl

theorem consumes_phase (t : Task) (p : Phase) :
    p.bits ⊆ t.consumes ∨ Disjoint p.bits t.consumes := by
  cases t with
  | main point =>
    by_cases create : point = .createGroups
    · left
      rw [create]
      cases p <;> decide
    · right
      simp [Task.consumes,create]
  | utility point =>
    cases point <;> cases p <;>
      first | (left; decide) | (right; decide) | simp [Task.consumes,UtilityPoint.consumes]
  | _ => exact .inr (by simp [Task.consumes])

theorem Reporting.fresh_run (safe : Reporting ⟨d,before ++ t :: after⟩) (effect : Effect t d d')
    (p : Phase) : Fresh p.bits d'.util d'.signals := by
  rw [effect.util,effect.signals]
  rcases notifies_one t with none | ⟨b,one⟩
  · rw [none]
    have cleared := (safe.fresh p).clear (consumes_phase t p)
    simpa [setBits] using cleared
  · rcases consumes_or_notifies t with nothing | none
    · rw [one,nothing]
      have set := (safe.fresh p).set b
      simpa [clearBits] using set
    · rw [none] at one
      cases one

theorem Succeeded.earlier {b : UtilBit} (other : b ≠ p.success) (signals : d'.signals = b :: d.signals)
    (succeeded : p.Succeeded d') : p.Succeeded d := by
  cases p with
  | wifi =>
    change EventGroup.latest _ d'.signals = _ at succeeded
    rw [signals] at succeeded
    by_cases own : b ∈ Phase.wifi.bits
    · rw [latest_cons_mem d.signals own,Option.some_inj] at succeeded
      exact absurd succeeded other
    · rw [latest_cons_other d.signals own] at succeeded
      exact succeeded
  | privKey =>
    change _ ∈ d'.signals at succeeded
    rw [signals] at succeeded
    exact (List.mem_cons.mp succeeded).resolve_left (Ne.symm other)
  | cert =>
    change _ ∈ d'.signals at succeeded
    rw [signals] at succeeded
    exact (List.mem_cons.mp succeeded).resolve_left (Ne.symm other)

theorem Succeeded.congr (signals : d'.signals = d.signals) (succeeded : p.Succeeded d') :
    p.Succeeded d := by
  cases p <;> simpa only [Phase.Succeeded,Phase.latest,signals] using succeeded

theorem unsucceeded (signals : d.signals = []) (succeeded : p.Succeeded d) : False := by
  cases p <;> simp [Phase.Succeeded,Phase.latest,signals,EventGroup.latest] at succeeded

theorem consumption (q : Phase)
    (ran : prvUtilityOutputTask d o q.wait = some (d',next)) :
    (d.util ∩ q.bits).Nonempty ∧ next = [.utility (q.printing d.util)] := by
  cases q <;> simp only [Phase.wait,prvUtilityOutputTask,consumeBits_some] at ran <;>
    obtain ⟨_,ready,_,rfl⟩ := ran <;>
      exact ⟨by simpa [Ready,Phase.bits,Phase.success,Phase.failure] using ready,rfl⟩

/-- The step that takes the bits of a phase away is the wait for that phase, or before any task. -/
theorem consumes_success (taken : p.success ∈ t.consumes) :
    t = .main .createGroups ∨ t = .utility p.wait := by
  cases t with
  | main point =>
    by_cases create : point = .createGroups
    · exact .inl (by rw [create])
    · simp [Task.consumes,create] at taken
  | utility point =>
    right
    cases p <;> cases point <;> first
      | rfl
      | simp [Task.consumes,UtilityPoint.consumes,Phase.success] at taken
  | _ => simp [Task.consumes] at taken

theorem Reporting.pending_run (safe : Reporting ⟨d,before ++ t :: after⟩)
    (permitted : uncoalesced.permits ⟨d,before ++ t :: after⟩ t o)
    (ran : taskStep d o t = some (d',next)) (member : u ∈ before ++ next ++ after)
    (awaits : u.awaits p = true) (succeeded : p.Succeeded d') : p.success ∈ d'.util := by
  have mine : t ∈ before ++ t :: after := by simp
  have effect := taskStep_effect ran
  have already : p.Succeeded d → p.success ∈ d.util := by
    intro earlier
    rcases TaskPool.mem_replaced.mp member with created | inside
    · exact safe.pending p t mine (awaits_next ran created awaits) earlier
    · exact safe.pending p u (TaskPool.mem_focused.mpr (.inr inside)) awaits earlier
  have util := effect.util
  have signals := effect.signals
  rcases notifies_one t with none | ⟨b,one⟩
  · rw [none] at util signals
    have pending := already (Succeeded.congr signals succeeded)
    rw [util,mem_setBits,mem_clearBits]
    refine .inl ⟨pending,fun taken => ?_⟩
    rcases consumes_success taken with rfl | rfl
    · have silent := (safe.early .createGroups mine (by decide)).2
      exact unsucceeded silent (Succeeded.congr signals succeeded)
    · rcases TaskPool.mem_replaced.mp member with created | inside
      · obtain ⟨_,rfl⟩ := consumption p ran
        cases List.mem_singleton.mp created
        have low : (p.printing d.util).rank ≤ p.wait.rank := of_decide_eq_true awaits
        cases p with
        | wifi =>
          have lost : .wifiDisconnected ∈ d.util := by
            by_contra kept
            simp [Phase.printing,Phase.wait,UtilityPoint.rank,kept] at low
          exact permitted .wifi rfl ⟨pending,lost,fun _ => Succeeded.congr signals succeeded⟩
        | privKey => exact absurd low (show ¬ 5 ≤ 4 by decide)
        | cert => exact absurd low (show ¬ 9 ≤ 8 by decide)
      · have alone := alone_in_population .utility safe.one rfl inside
        rw [awaits_population awaits] at alone
        cases alone
  · rcases consumes_or_notifies t with nothing | none
    · rw [one] at util signals
      rw [nothing] at util
      rw [util,mem_setBits]
      by_cases own : b = p.success
      · right
        simp [own]
      · left
        rw [mem_clearBits]
        exact ⟨already (Succeeded.earlier own signals succeeded),Finset.notMem_empty _⟩
    · rw [none] at one
      cases one

theorem Reporting.early_run (safe : Reporting ⟨d,before ++ t :: after⟩)
    (ran : taskStep d o t = some (d',next)) (point : MainPoint)
    (member : .main point ∈ before ++ next ++ after) (low : point.order ≤ 7) :
    before ++ next ++ after = [.main point] ∧ d'.signals = [] := by
  have mine : t ∈ before ++ t :: after := by simp
  have lonely : ∀ own, .main own ∈ before ++ t :: after → own.order ≤ 7 →
      before = [] ∧ t = .main own ∧ after = [] ∧ d.signals = [] := by
    intro own inside early
    obtain ⟨single,silent⟩ := safe.early own inside early
    change before ++ t :: after = [.main own] at single
    rw [List.append_eq_singleton_iff] at single
    rcases single with ⟨first,rest⟩ | ⟨_,rest⟩
    · injection rest with same tail
      exact ⟨first,same,tail,silent⟩
    · cases rest
  rcases TaskPool.mem_replaced.mp member with created | inside
  · rcases (succession ran).programs _ created with ⟨first,_⟩ | same
    · simp [firstTasks] at first
    · cases t <;> cases same
      rename_i own
      obtain ⟨order,rest⟩ := main_next ran created
      obtain ⟨rfl,_,rfl,silent⟩ := lonely own mine (order.trans low)
      obtain ⟨_,rfl⟩ := rest low
      refine ⟨rfl,?_⟩
      rw [(taskStep_effect ran).signals,silent]
      rfl
  · obtain ⟨rfl,_,rfl,_⟩ := lonely point (TaskPool.mem_focused.mpr (.inr inside)) low
    cases inside

theorem Reporting.run (safe : Reporting ⟨d,before ++ t :: after⟩)
    (permitted : uncoalesced.permits ⟨d,before ++ t :: after⟩ t o)
    (ran : taskStep d o t = some (d',next)) : Reporting ⟨d',before ++ next ++ after⟩ := by
  refine ⟨?_,?_,?_,?_⟩
  · have paid := (succession ran).population .utility
    have one := safe.one
    unfold population at one ⊢
    rw [TaskPool.total_focused] at one
    rw [TaskPool.total_replaced]
    omega
  · intro point member low
    exact safe.early_run ran point member low
  · intro p
    exact safe.fresh_run (taskStep_effect ran) p
  · intro p u member awaits succeeded
    exact safe.pending_run permitted ran member awaits succeeded

end

theorem Reporting.boot (mac : Vector UInt8 6) (nvs : DurableMap RuntimeKey Str) :
    Reporting (boot mac nvs) where
  one := (population_boot .utility mac nvs).le
  early point member _ := by
    cases List.mem_singleton.mp member
    exact ⟨rfl,rfl⟩
  fresh p pending := by
    obtain ⟨b,member⟩ := pending
    cases (Finset.mem_inter.mp member).1
  pending p t _ _ succeeded := (unsucceeded rfl succeeded).elim

theorem reporting_run {mac : Vector UInt8 6} {nvs : DurableMap RuntimeKey Str} {c : Config}
    (run : Reaches uncoalesced (boot mac nvs) c) : Reporting c := by
  apply TaskPool.Reaches.invariant Reporting run
  · exact .boot mac nvs
  · intro c c' safe step
    cases step with
    | run s s' before after t o next permitted ran => exact safe.run permitted (exec_some ran).2
    | restart _ permitted => exact .boot _ _

/-- With these bits consumed the utility task goes on to print the notification of `b`. -/
def Phase.Prints (p : Phase) (bits : Finset UtilBit) (b : UtilBit) : Prop :=
  ∀ d, (prvUtilityOutputTask d .go (p.printing bits)).map (·.1) = some (d.print b.line)

structure Honest (c c' : Config) : Prop where
  latest : ∀ (p : Phase) bits, .utility p.wait ∈ c.tasks → .utility (p.printing bits) ∈ c'.tasks →
    ∃ b, p.latest c.shared = some b ∧ p.Prints bits b
  failure : ∀ (p : Phase) bits, p ≠ .wifi → .utility p.wait ∈ c.tasks →
    .utility (p.printing bits) ∈ c'.tasks → p.Prints bits p.failure → p.success ∉ c.shared.signals
  connected : .utility .waitWifi ∈ c.tasks → Phase.wifi.latest c.shared = some .wifiConnected →
    .wifiConnected ∈ c.shared.util

theorem printing_prints (p : Phase) (bits : Finset UtilBit) (d : Device) :
    (prvUtilityOutputTask d .go (p.printing bits)).map (·.1) = some (d.print (p.notification bits)) := by
  cases p <;> rfl

theorem prints_iff {p : Phase} {bits : Finset UtilBit} {b : UtilBit} :
    p.Prints bits b ↔ p.notification bits = b.line := by
  constructor
  · intro prints
    have first := prints (powerOn (Vector.replicate 6 0) fun _ => none)
    rw [printing_prints,Option.some_inj] at first
    have serial := congrArg Device.serial first
    exact (List.cons.inj serial).1
  · intro same d
    rw [printing_prints,same]

section
variable {c c' : Config} {p : Phase} {bits : Finset UtilBit}

theorem wait_ne_printing (p : Phase) (bits : Finset UtilBit) : p.printing bits ≠ p.wait := by
  cases p <;> nofun

theorem Reporting.consumed (safe : Reporting c) (step : Step uncoalesced c c')
    (waiting : .utility p.wait ∈ c.tasks) (printing : .utility (p.printing bits) ∈ c'.tasks) :
    bits = c.shared.util ∧ (c.shared.util ∩ p.bits).Nonempty ∧ ¬ p.Coalesced c.shared := by
  have one := population_step .utility safe.one step
  cases step with
  | run s s' before after t o next permitted ran =>
    obtain ⟨_,ran⟩ := exec_some ran
    rcases TaskPool.mem_focused.mp waiting with rfl | inside
    · obtain ⟨pending,rfl⟩ := consumption p ran
      have same := same_in_population .utility one printing
        (TaskPool.mem_replaced.mpr (.inl (List.mem_singleton_self _))) rfl rfl
      have bitsSame : bits = s.util := by
        injection same with same
        cases p <;> injection same with same <;> exact same.symm
      exact ⟨bitsSame,pending,permitted p rfl⟩
    · have same := same_in_population .utility one
        (TaskPool.mem_replaced.mpr (.inr inside)) printing rfl rfl
      injection same with same
      exact absurd same (wait_ne_printing p bits)
  | restart _ permitted =>
    cases List.mem_singleton.mp printing

theorem mem_bits {b : UtilBit} : b ∈ p.bits ↔ b = p.success ∨ b = p.failure := by
  simp [Phase.bits]

theorem notification_failure (lost : p.failure ∈ bits) : p.notification bits = p.failure.line := by
  cases p <;> exact if_pos lost

theorem notification_success (kept : p.failure ∉ bits) : p.notification bits = p.success.line := by
  cases p <;> exact if_neg kept

theorem failure_line_ne (p : Phase) : p.success.line ≠ p.failure.line := by
  cases p <;> nofun

theorem Reporting.newest (safe : Reporting c) (pending : (c.shared.util ∩ p.bits).Nonempty) :
    ∃ b ∈ c.shared.util, p.latest c.shared = some b ∧ (b = p.success ∨ b = p.failure) := by
  obtain ⟨b,present,same⟩ := safe.fresh p pending
  have own : b ∈ p.bits := by simpa using List.find?_some same
  exact ⟨b,present,same,mem_bits.mp own⟩

theorem Reporting.latest_printed (safe : Reporting c) (pending : (c.shared.util ∩ p.bits).Nonempty)
    (separate : ¬ p.Coalesced c.shared) :
    ∃ b, p.latest c.shared = some b ∧ p.notification c.shared.util = b.line := by
  obtain ⟨b,present,same,rfl | rfl⟩ := safe.newest pending
  · refine ⟨p.success,same,notification_success fun lost => ?_⟩
    exact separate ⟨present,lost,fun _ => same⟩
  · exact ⟨p.failure,same,notification_failure present⟩

theorem Reporting.unsuccessful (safe : Reporting c) (claim : p ≠ .wifi)
    (waiting : .utility p.wait ∈ c.tasks) (lost : p.failure ∈ c.shared.util)
    (separate : ¬ p.Coalesced c.shared) : p.success ∉ c.shared.signals := by
  intro signalled
  have succeeded : p.Succeeded c.shared := by
    cases p with
    | wifi => exact absurd rfl claim
    | privKey => exact signalled
    | cert => exact signalled
  have awaits : Task.awaits p (.utility p.wait) = true := decide_eq_true (Nat.le_refl _)
  exact separate ⟨safe.pending p _ waiting awaits succeeded,lost,fun wifi => absurd wifi claim⟩

end

/-- In every run in which the outcomes of a phase are not consumed together, each
notification is that of the phase's latest outcome and none is lost. -/
theorem serial_report_honest (mac : Vector UInt8 6) (nvs : DurableMap RuntimeKey Str)
    (c c' : Config) (run : Reaches uncoalesced (boot mac nvs) c) (step : Step uncoalesced c c') :
    Honest c c' := by
  have safe := reporting_run run
  constructor
  · intro p bits waiting printing
    obtain ⟨rfl,pending,separate⟩ := safe.consumed step waiting printing
    obtain ⟨b,latest,same⟩ := safe.latest_printed pending separate
    exact ⟨b,latest,prints_iff.mpr same⟩
  · intro p bits claim waiting printing failed
    obtain ⟨rfl,_,separate⟩ := safe.consumed step waiting printing
    refine safe.unsuccessful claim waiting ?_ separate
    by_contra kept
    rw [prints_iff,notification_success kept] at failed
    exact failure_line_ne p failed
  · intro waiting latest
    exact safe.pending .wifi _ waiting rfl latest

/-- The station is lost and found again before the utility task looks. -/
def wifiFlaps : List (Nat × Outcome) :=
  appMainRuns ++
    [(3,.event .staDisconnected),(3,.go),(3,.go),(3,.go),(3,.event .staConnected),(3,.go),(3,.go)]

/-- WiFi is reported; the key task announces itself and the utility task waits for its outcome. -/
def keyAnnounced : List (Nat × Outcome) :=
  allStarted ++
    [(7,.event .staConnected),(7,.go),(7,.go),(6,.go),(6,.go),(5,.go),(6,.go),(6,.go)]

/-- The first attempt fails, the second succeeds. -/
def keyRetried : List (Nat × Outcome) :=
  keyAnnounced ++
    [(5,.fail),(5,.go),(5,.ok),(5,.go),(5,.go),(5,.fail),(5,.go),(5,.go),(5,.go),(5,.go),
      (1,.go),(1,.go),(1,.ok),(1,.go),(1,.go),(1,.go),
      (2,.go),(2,.ok),(2,.go),(2,.ok),(2,.go),(2,.go),(2,.go),(2,.go)]

set_option maxRecDepth 4000 in
theorem serial_report_honest_key :
    ∃ c c', Reaches uncoalesced (boot someMac provisioned) c ∧ Step uncoalesced c c' ∧
      .utility (.printPrivKey c.shared.util) ∈ c'.tasks ∧
      Phase.privKey.latest c.shared = some .privKeyAndCsrSuccess ∧
      Phase.privKey.Prints c.shared.util .privKeyAndCsrSuccess := by
  obtain ⟨c,c',run,step,test⟩ := TaskPool.play_step machine
    (fun c t _ => decide (∀ p ∈ [Phase.wifi,.privKey,.cert], t = .utility p.wait → ¬ p.Coalesced c.shared))
    uncoalesced (fun c t o admitted p => of_decide_eq_true admitted p (by cases p <;> simp))
    (boot someMac provisioned)
    (keyAnnounced ++ [(5,.ok),(5,.go),(5,.ok),(5,.go),(5,.go),(5,.go),(5,.go)]) 5 .go
    (fun c c' => .utility .waitPrivKey ∈ c.tasks ∧ .utility (.printPrivKey c.shared.util) ∈ c'.tasks ∧
      Phase.privKey.latest c.shared = some .privKeyAndCsrSuccess) (by decide)
  obtain ⟨waiting,printing,latest⟩ := of_decide_eq_true test
  obtain ⟨b,same,prints⟩ := (serial_report_honest someMac provisioned c c' run step).latest .privKey
    c.shared.util waiting printing
  cases latest.symm.trans same
  exact ⟨c,c',run,step,printing,latest,prints⟩

set_option maxRecDepth 4000 in
theorem serial_report_stale :
    (∃ c c', Reaches TaskPool.Policy.free (boot someMac provisioned) c ∧
      Step TaskPool.Policy.free c c' ∧ .utility .waitWifi ∈ c.tasks ∧
      .utility (.printWifi c.shared.util) ∈ c'.tasks ∧
      Phase.wifi.latest c.shared = some .wifiConnected ∧
      Phase.wifi.Prints c.shared.util .wifiDisconnected) ∧
    (∃ c, Reaches TaskPool.Policy.free (boot someMac provisioned) c ∧ .utility .waitWifi ∈ c.tasks ∧
      Phase.wifi.latest c.shared = some .wifiConnected ∧ .wifiConnected ∉ c.shared.util) ∧
    ∃ c c', Reaches TaskPool.Policy.free (boot someMac provisioned) c ∧
      Step TaskPool.Policy.free c c' ∧ .utility .waitPrivKey ∈ c.tasks ∧
      .utility (.printPrivKey c.shared.util) ∈ c'.tasks ∧
      Phase.privKey.latest c.shared = some .privKeyAndCsrSuccess ∧
      Phase.privKey.Prints c.shared.util .privKeyAndCsrFail := by
  refine ⟨?_,?_,?_⟩
  · obtain ⟨c,c',run,step,test⟩ := TaskPool.play_step machine (fun _ _ _ => true) .free
      (fun _ _ _ _ => trivial) (boot someMac provisioned) wifiFlaps 2 .go
      (fun c c' => .utility .waitWifi ∈ c.tasks ∧ .utility (.printWifi c.shared.util) ∈ c'.tasks ∧
        Phase.wifi.latest c.shared = some .wifiConnected ∧
        wifiNotification c.shared.util = .wifiDisconnected) (by decide)
    obtain ⟨waiting,printing,latest,lost⟩ := of_decide_eq_true test
    exact ⟨c,c',run,step,waiting,printing,latest,prints_iff.mpr lost⟩
  · obtain ⟨c,run,test⟩ := TaskPool.play_free machine (boot someMac provisioned)
      (wifiFlaps ++ [(2,.go),(2,.go)]) (fun c => .utility .waitWifi ∈ c.tasks ∧
        Phase.wifi.latest c.shared = some .wifiConnected ∧ .wifiConnected ∉ c.shared.util) (by decide)
    exact ⟨c,run,of_decide_eq_true test⟩
  · obtain ⟨c,c',run,step,test⟩ := TaskPool.play_step machine (fun _ _ _ => true) .free
      (fun _ _ _ _ => trivial) (boot someMac provisioned) keyRetried 5 .go
      (fun c c' => .utility .waitPrivKey ∈ c.tasks ∧
        .utility (.printPrivKey c.shared.util) ∈ c'.tasks ∧
        Phase.privKey.latest c.shared = some .privKeyAndCsrSuccess ∧
        privKeyNotification c.shared.util = .privKeyAndCsrFail) (by decide)
    obtain ⟨waiting,printing,latest,failed⟩ := of_decide_eq_true test
    exact ⟨c,c',run,step,waiting,printing,latest,prints_iff.mpr failed⟩

end QuickConnect.Firmware
