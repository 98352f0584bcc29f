import QuickConnect.Firmware.Outward
import QuickConnect.Firmware.Work
import QuickConnect.Lib.Progress

/-! Recovery. Runs in which connections and services fail, and all that `operating` leaves
open, are followed by one in which nothing fails; whatever the interleaving, a message is
published then. -/
namespace QuickConnect.Firmware
open EventGroup Progress

/-- app_main gets through to the creation of its tasks, of which the utility task may be missing. -/
def starts (t : Task) (o : Outcome) : Bool :=
  match t with
  | .main .createUtility => true
  | .main _ => o ≠ .fail
  | _ => true

/-- Nothing fails that a service, the network or the memory decides. What esp_tls_conn_destroy
returns makes no difference. -/
def succeeds (t : Task) (o : Outcome) : Bool :=
  match t with
  | .privKey .generate | .cert (.performVerify _) => match o with
    | .pem _ => true
    | _ => false
  | .mqtt .connect => o = .status .success
  | .tls .disconnect | .tls (.connect _) => true
  | _ => o ≠ .fail

def Publishing (c : Config) : Prop := .sending .publish ∈ c.tasks

section
variable (issuedFor : Str → Str → Prop)

def Device.Paired (d : Device) : Prop :=
  ∃ cert key, d.pcDevCert = some cert ∧ d.pcDevKey = some key ∧ issuedFor cert key

/-- A run before the recovery. No read of the flash fails, released claim data crashes the
program when it is used, and the claim service issues for the key. Every task that publishing
needs is created, no step of app_main fails but the creation of the utility task, and
eMqttConnect never lacks memory. Everything else may fail. -/
def operating : Policy where
  permits c t o := (claimService issuedFor).permits c t o ∧ creates t o = true ∧
    fitsBuffer t o = true ∧ starts t o = true
  restarts := True

/-- Nothing fails, and TLS comes up with a certificate that was issued for the key. -/
def undisturbed : Policy where
  permits c t o := (claimService issuedFor).permits c t o ∧ succeeds t o = true ∧
    arrives c.shared t o = true ∧
    ∀ h, t = .tls (.connect (some h)) → c.shared.Paired issuedFor → o ≠ .fail
  restarts := False

/-- A step of an undisturbed run, or the reboot of a program that has crashed. -/
def Recovers (c c' : Config) : Prop :=
  Step (undisturbed issuedFor) c c' ∨ c.shared.halted = true ∧ c' = boot c.shared.mac c.shared.nvs

structure Operating (c : Config) : Prop where
  consistent : Consistent issuedFor c
  restartable : Restartable c
  few : ∀ k, population k c ≤ 1
  staffed : ∀ k, k ≠ .utility → 1 ≤ population k c

end

section
variable {issuedFor : Str → Str → Prop} {d d' : Device} {before after next : List Task} {t : Task}
  {o : Outcome} {c c' : Config}

theorem staffed_next {k : Lasting} (lasting : k ≠ .utility) (started : starts t o = true)
    (ran : taskStep d o t = some (d',next)) :
    t.population k ≤ (next.map (Task.population k)).sum := by
  cases t with
  | main point =>
    change appMain d o point = some (d',next) at ran
    cases point <;> cases o <;> simp only [appMain,proceed,call,drawn,reduceCtorEq] at ran
    all_goals first | cases started; done | skip
    all_goals
      (try split at ran) <;> cases ran <;> cases k <;>
        first | exact Nat.le_refl _ | exact absurd rfl lasting
  | handler point =>
    change prvEventHandlers d o point = some (d',next) at ran
    cases point <;> cases o <;> simp only [prvEventHandlers,proceed,reduceCtorEq] at ran
    all_goals (try split at ran) <;> cases ran <;> cases k <;> exact Nat.le_refl _
  | network point =>
    change prvNetworkHandlingTask d o point = some (d',next) at ran
    have stays : ∃ later more, next = .network later :: more := by
      cases point with
      | waiting =>
        obtain ⟨_,_,_,rfl⟩ := network_waiting_some ran
        exact ⟨_,_,rfl⟩
      | start =>
        obtain ⟨_,ran⟩ := proceed_some.mp ran
        cases ran
        exact ⟨_,_,rfl⟩
      | _ =>
        simp only [prvNetworkHandlingTask] at ran
        cases o <;> split at ran <;> simp only [proceed,call,reduceCtorEq] at ran <;> cases ran <;>
          exact ⟨_,_,rfl⟩
    obtain ⟨later,more,rfl⟩ := stays
    cases k <;> first | exact Nat.zero_le _ | exact Nat.le_add_right _ _
  | sending point =>
    change prvQuickConnectSendingTask d o point = some (d',next) at ran
    have stays : ∃ later, next = [.sending later] := by
      cases point with
      | waiting =>
        obtain ⟨_,_,_,rfl⟩ := awaitBits_some.mp ran
        exact ⟨_,rfl⟩
      | _ =>
        cases o <;> simp only [prvQuickConnectSendingTask,proceed,reduceCtorEq] at ran
        all_goals (try split at ran) <;> cases ran <;> exact ⟨_,rfl⟩
    obtain ⟨later,rfl⟩ := stays
    cases k <;> exact Nat.le_refl _
  | _ => cases k <;> first | exact Nat.zero_le _ | exact absurd rfl lasting

theorem Operating.run (safe : Operating issuedFor ⟨d,before ++ t :: after⟩)
    (permitted : (operating issuedFor).permits ⟨d,before ++ t :: after⟩ t o)
    (ran : taskStep d o t = some (d',next)) : Operating issuedFor ⟨d',before ++ next ++ after⟩ where
  consistent := safe.consistent.run permitted.1 ran
  restartable := safe.restartable.run permitted.2.1 permitted.2.2.1 ran
  few k := by
    have paid := (succession ran).population k
    have few := safe.few k
    unfold population at few ⊢
    rw [TaskPool.total_focused] at few
    rw [TaskPool.total_replaced]
    omega
  staffed k lasting := by
    have kept := staffed_next lasting permitted.2.2.2 ran
    have staffed := safe.staffed k lasting
    unfold population at staffed ⊢
    rw [TaskPool.total_focused] at staffed
    rw [TaskPool.total_replaced]
    omega

theorem Operating.boot {mac : Vector UInt8 6} {nvs : DurableMap RuntimeKey Str}
    (matching : Matching issuedFor nvs) : Operating issuedFor (boot mac nvs) where
  consistent := .boot matching
  restartable := .boot mac nvs
  few k := (population_boot k mac nvs).le
  staffed k _ := (population_boot k mac nvs).ge

theorem operating_run {mac : Vector UInt8 6} {nvs : DurableMap RuntimeKey Str}
    (matching : Matching issuedFor nvs) (run : Reaches (operating issuedFor) (boot mac nvs) c) :
    Operating issuedFor c := by
  apply TaskPool.Reaches.invariant (Operating issuedFor) run
  · exact .boot matching
  · intro c c' safe step
    cases step with
    | run s s' before after t o next permitted ran => exact safe.run permitted (exec_some ran).2
    | restart _ permitted => exact .boot safe.consistent.matching

theorem undisturbed_operating (permitted : (undisturbed issuedFor).permits c t o) :
    (operating issuedFor).permits c t o := by
  obtain ⟨service,succeeded,_,_⟩ := permitted
  refine ⟨service,?_,?_,?_⟩
  · cases t with
    | network point => cases point <;> first | rfl | exact succeeded
    | _ => rfl
  · cases t with
    | mqtt point =>
      cases point with
      | connect =>
        cases of_decide_eq_true succeeded
        rfl
      | _ => rfl
    | _ => rfl
  · cases t with
    | main point => cases point <;> first | rfl | exact succeeded
    | _ => rfl

theorem succeeds_claim (succeeded : succeeds t o = true) (ran : taskStep d o t = some (d',next)) :
    verified t o = true ∧ stored t o = true := by
  cases t with
  | cert point =>
    cases point with
    | performVerify a => exact ⟨succeeded,rfl⟩
    | store =>
      rcases call_some.mp ran with ⟨rfl,_⟩ | ⟨rfl,_⟩
      · exact ⟨rfl,rfl⟩
      · cases succeeded
    | _ => exact ⟨rfl,rfl⟩
  | _ => exact ⟨rfl,rfl⟩

/-- Where TLS connects it has a certificate that was issued for its key. -/
theorem Consistent.paired (safe : Consistent issuedFor c) {point : TlsPoint}
    (member : .tls point ∈ c.tasks) (connecting : point ≠ .waiting) : c.shared.Paired issuedFor := by
  obtain ⟨keySet,certSet⟩ := safe.connecting point member connecting
  obtain ⟨key,storedKey,ownKey,_⟩ := safe.keyReady keySet
  obtain ⟨present,same⟩ := safe.certReady certSet
  obtain ⟨cert,storedCert⟩ := Option.ne_none_iff_exists'.mp present
  obtain ⟨issued,found,belongs⟩ := safe.matching cert storedCert
  rw [storedKey,Option.some_inj] at found
  subst found
  exact ⟨cert,key,same.trans storedCert,ownKey,belongs⟩

theorem succeeds_pem {b : Bool} (succeeded : (match o with | .pem _ => true | _ => b) = true)
    (off : b = false) : ∃ text, o = .pem text := by
  subst off
  cases o <;> first | exact ⟨_,rfl⟩ | cases succeeded

/-- A step of an undisturbed run leaves less to do, or runs into released claim data. -/
theorem Operating.works (safe : Operating issuedFor ⟨d,before ++ t :: after⟩)
    (permitted : (undisturbed issuedFor).permits ⟨d,before ++ t :: after⟩ t o)
    (short : t ≠ .sending .publish) (ran : taskStep d o t = some (d',next)) :
    d'.halted = true ∨ Works t d d' next := by
  have mine : t ∈ before ++ t :: after := by simp
  obtain ⟨⟨_,crashes,_⟩,succeeded,arrived,accepted⟩ := permitted
  cases t with
  | main point =>
    refine .inr (.main (fun failed => ?_) ran)
    subst failed
    cases succeeded
  | handler point => exact .inr (.handler arrived ran)
  | network point =>
    refine .inr (.network (fun failed => ?_) ran)
    subst failed
    cases succeeded
  | privKey point =>
    refine .inr (.privKey ?_ (fun generating => ?_) (safe.consistent.privKey point mine) ran)
    · rintro rfl
      cases point <;> cases succeeded
    · subst generating
      exact succeeds_pem succeeded rfl
  | cert point =>
    refine Works.cert ?_ (fun entering => crashes (by rw [entering])) (fun a verifying => ?_)
      (safe.consistent.cert point mine)
      (fun claiming => safe.consistent.keyReady (safe.consistent.claiming point mine claiming)) ran
    · rintro rfl
      cases point <;> cases succeeded
    · subst verifying
      exact succeeds_pem succeeded rfl
  | tls point =>
    refine .inr (.tls ?_ ?_ (fun configuring => ?_) ran)
    · rintro rfl rfl
      cases succeeded
    · rintro h rfl
      exact accepted h rfl (safe.consistent.paired mine nofun)
    · subst configuring
      obtain ⟨cert,key,ownCert,ownKey,_⟩ := safe.consistent.paired mine nofun
      constructor
      · exact fun absent => Option.some_ne_none cert (ownCert.symm.trans absent)
      · exact fun absent => Option.some_ne_none key (ownKey.symm.trans absent)
  | mqtt point =>
    refine .inr (.mqtt (fun connecting => ?_) ran)
    subst connecting
    exact of_decide_eq_true succeeded
  | sending point =>
    refine .inr (.sending ?_ ran)
    rintro rfl
    exact short rfl
  | utility point => exact .inr (.utility ran)

theorem Operating.lowers (safe : Operating issuedFor c) (short : ¬Publishing c)
    (step : Step (undisturbed issuedFor) c c') : c'.shared.halted = true ∨ work c' < work c := by
  cases step with
  | run s s' before after t o next permitted ran =>
    obtain ⟨_,ran⟩ := exec_some ran
    have publishing : t ≠ .sending .publish := by
      rintro rfl
      exact short (by simp [Publishing])
    refine (safe.works permitted publishing ran).imp_right fun works => ?_
    exact work_lowered (taskStep_effect ran) works
      (work_others safe.consistent.links (safe.few .handler) ran)
  | restart _ permitted => exact permitted.elim

/-- A task that waits for what has not come about. -/
def Task.Blocked (d : Device) : Task → Prop
  | .handler .idle => .wifiConnected ∈ d.net ∧ .ipGot ∈ d.net
  | .network .waiting => ¬(d.net ∩ restartMask).Nonempty
  | .cert .waiting => ¬({.privKeySuccess,.ipGot} : Finset NetworkBit) ⊆ d.net
  | .tls .waiting => ¬({.privKeySuccess,.certSuccess,.ipGot} : Finset NetworkBit) ⊆ d.net
  | .mqtt .waiting => .tlsConnected ∉ d.net
  | .sending .waiting => .mqttConnected ∉ d.net
  | .utility _ => True
  | _ => False

variable (issuedFor) in
def Enabled (c : Config) (t : Task) : Prop :=
  ∃ o, (undisturbed issuedFor).permits c t o ∧ (taskStep c.shared o t).isSome = true

/-- The outcomes that a policy asks nothing more of where the services are reliable. -/
def Task.unasked (o : Outcome) : Task → Bool
  | .cert .enter => o ≠ .wild
  | .cert (.performVerify _) => false
  | .tls (.connect (some _)) => o ≠ .fail
  | _ => true

theorem enabled_by (o : Outcome) (reliable : reads t o = true) (unasked : t.unasked o = true)
    (succeeded : succeeds t o = true) (arrived : arrives c.shared t o = true)
    (runs : (taskStep c.shared o t).isSome = true) : Enabled issuedFor c t := by
  refine ⟨o,⟨⟨reliable,fun same => ?_,fun a _ _ same => ?_⟩,succeeded,arrived,fun h same _ => ?_⟩,runs⟩
  all_goals subst same
  · exact of_decide_eq_true unasked
  · cases unasked
  · exact of_decide_eq_true unasked

/-- The service answers with a certificate for the key that the claim data holds. -/
theorem enabled_verify {a : Nat} (cert : Str)
    (issued : ∀ data, c.shared.claimData[a]? = some data → issuedFor cert data.key) :
    Enabled issuedFor c (.cert (.performVerify a)) := by
  refine ⟨.pem cert,⟨⟨rfl,nofun,?_⟩,rfl,rfl,nofun⟩,rfl⟩
  intro b text data same written held
  cases same
  cases written
  exact issued data held

theorem enabled_main (point : MainPoint) : Enabled issuedFor c (.main point) := by
  cases point with
  | format => exact enabled_by (.random 0) rfl rfl rfl rfl rfl
  | createGroups => exact enabled_by .go rfl rfl rfl rfl rfl
  | test =>
    refine enabled_by .go rfl rfl rfl rfl ?_
    simp only [taskStep,appMain,proceed]
    split <;> rfl
  | _ => exact enabled_by .ok rfl rfl rfl rfl rfl

theorem enabled_handler {point : HandlerPoint} (free : ¬Task.Blocked c.shared (.handler point)) :
    Enabled issuedFor c (.handler point) := by
  cases point with
  | idle =>
    by_cases connected : .wifiConnected ∈ c.shared.net
    · have absent : .ipGot ∉ c.shared.net := fun got => free ⟨connected,got⟩
      exact enabled_by (.event .staGotIp) rfl rfl rfl (decide_eq_true absent) rfl
    · exact enabled_by (.event .staConnected) rfl rfl rfl (decide_eq_true connected) rfl
  | _ => exact enabled_by .go rfl rfl rfl rfl rfl

theorem enabled_network {point : NetworkPoint} (free : ¬Task.Blocked c.shared (.network point)) :
    Enabled issuedFor c (.network point) := by
  cases point with
  | start => exact enabled_by .go rfl rfl rfl rfl rfl
  | waiting =>
    refine enabled_by .go rfl rfl rfl rfl ?_
    have ready : Ready false c.shared.net restartMask := not_not.mp free
    simp only [taskStep,prvNetworkHandlingTask,proceed,waitBits,ready,if_true]
    rfl
  | wifi bits =>
    by_cases requested : Requested bits .wifiDisconnected
    · refine enabled_by .ok rfl rfl rfl rfl ?_
      simp [taskStep,prvNetworkHandlingTask,requested,call]
    · refine enabled_by .go rfl rfl rfl rfl ?_
      simp [taskStep,prvNetworkHandlingTask,requested,proceed]
  | create a bits =>
    by_cases requested : Requested bits a.failBit
    · refine enabled_by .ok rfl rfl rfl rfl ?_
      simp [taskStep,prvNetworkHandlingTask,requested,call]
    · refine enabled_by .go rfl rfl rfl rfl ?_
      simp [taskStep,prvNetworkHandlingTask,requested,proceed]

theorem enabled_privKey (point : PrivKeyPoint) : Enabled issuedFor c (.privKey point) := by
  cases point with
  | generate => exact enabled_by (.pem []) rfl rfl rfl rfl rfl
  | readKey | readCert | store => exact enabled_by .ok rfl rfl rfl rfl rfl
  | test | claimed =>
    refine enabled_by .go rfl rfl rfl rfl ?_
    simp only [taskStep,prvGetPrivKeyTask,proceed]
    split <;> rfl
  | _ => exact enabled_by .go rfl rfl rfl rfl rfl

theorem enabled_cert {point : CertPoint} (able : ∀ key, ∃ cert, issuedFor cert key)
    (free : ¬Task.Blocked c.shared (.cert point)) : Enabled issuedFor c (.cert point) := by
  cases point with
  | read | performInit | store => exact enabled_by .ok rfl rfl rfl rfl rfl
  | test =>
    refine enabled_by .go rfl rfl rfl rfl ?_
    simp only [taskStep,prvGetCertTask,proceed]
    split <;> rfl
  | waiting =>
    refine enabled_by .go rfl rfl rfl rfl ?_
    have ready := not_not.mp free
    simp [taskStep,prvGetCertTask,awaitBits,proceed,waitBits,Ready,ready]
  | enter =>
    refine enabled_by .go rfl rfl rfl rfl ?_
    simp only [taskStep,prvGetCertTask]
    split
    · rfl
    · split <;> rfl
  | performVerify a =>
    cases found : c.shared.claimData[a]? with
    | none =>
      refine enabled_verify [] fun data held => ?_
      exact absurd (held.symm.trans found) (Option.some_ne_none data)
    | some data =>
      obtain ⟨cert,issued⟩ := able data.key
      refine enabled_verify cert fun other held => ?_
      cases found.symm.trans held
      exact issued
  | _ => exact enabled_by .go rfl rfl rfl rfl rfl

theorem enabled_tls {point : TlsPoint} (free : ¬Task.Blocked c.shared (.tls point)) :
    Enabled issuedFor c (.tls point) := by
  cases point with
  | waiting =>
    refine enabled_by .go rfl rfl rfl rfl ?_
    have ready := not_not.mp free
    simp [taskStep,prvTlsConnectionTask,awaitBits,proceed,waitBits,Ready,ready]
  | test | configure =>
    refine enabled_by .go rfl rfl rfl rfl ?_
    simp only [taskStep,prvTlsConnectionTask,proceed]
    split <;> rfl
  | disconnect | allocate => exact enabled_by .ok rfl rfl rfl rfl rfl
  | connect handle =>
    cases handle with
    | none => exact enabled_by .fail rfl rfl rfl rfl rfl
    | some h => exact enabled_by .ok rfl rfl rfl rfl rfl
  | _ => exact enabled_by .go rfl rfl rfl rfl rfl

theorem enabled_mqtt {point : MqttPoint} (free : ¬Task.Blocked c.shared (.mqtt point)) :
    Enabled issuedFor c (.mqtt point) := by
  cases point with
  | waiting =>
    refine enabled_by .go rfl rfl rfl rfl ?_
    have ready := not_not.mp free
    simp [taskStep,prvMqttConnectionTask,awaitBits,proceed,waitBits,Ready,ready]
  | connect => exact enabled_by (.status .success) rfl rfl rfl rfl rfl
  | report status =>
    cases status <;> exact enabled_by .go rfl rfl rfl rfl rfl
  | dropped => exact enabled_by .go rfl rfl rfl rfl rfl

theorem enabled_sending {point : SendingPoint} (free : ¬Task.Blocked c.shared (.sending point)) :
    Enabled issuedFor c (.sending point) := by
  cases point with
  | waiting =>
    refine enabled_by .go rfl rfl rfl rfl ?_
    have ready := not_not.mp free
    simp [taskStep,prvQuickConnectSendingTask,awaitBits,proceed,waitBits,Ready,ready]
  | publish => exact enabled_by (.status .success) rfl rfl rfl rfl rfl
  | report status =>
    cases status <;> exact enabled_by .go rfl rfl rfl rfl rfl
  | _ => exact enabled_by .go rfl rfl rfl rfl rfl

theorem enabled (able : ∀ key, ∃ cert, issuedFor cert key) (free : ¬t.Blocked c.shared) :
    Enabled issuedFor c t := by
  cases t with
  | main point => exact enabled_main point
  | handler point => exact enabled_handler free
  | network point => exact enabled_network free
  | privKey point => exact enabled_privKey point
  | cert point => exact enabled_cert able free
  | tls point => exact enabled_tls free
  | mqtt point => exact enabled_mqtt free
  | sending point => exact enabled_sending free
  | utility point => exact absurd trivial free

/-- Every task waits, each for what has not come about. -/
def Stuck (c : Config) : Prop := ∀ t ∈ c.tasks, t.Blocked c.shared

theorem Operating.present (safe : Operating issuedFor c) (stuck : Stuck c) {k : Lasting}
    (lasting : k ≠ .utility) : ∃ t ∈ c.tasks, t.program = k.program := by
  have staffed := safe.staffed k lasting
  unfold population TaskPool.total at staffed
  rw [Nat.zero_add] at staffed
  obtain ⟨t,member,counted⟩ := TaskPool.exists_of_sum_pos (Task.population k) staffed
  refine ⟨t,member,?_⟩
  cases t with
  | main point => exact (stuck _ member).elim
  | _ => cases k <;> first | rfl | cases counted

theorem Operating.supervisor_waits (safe : Operating issuedFor c) (stuck : Stuck c) :
    .network .waiting ∈ c.tasks ∧ ¬(c.shared.net ∩ restartMask).Nonempty := by
  obtain ⟨t,member,same⟩ := safe.present stuck (k := .network) nofun
  have blocked := stuck t member
  cases t <;> cases same
  rename_i point
  cases point with
  | waiting => exact ⟨member,blocked⟩
  | _ => exact blocked.elim

theorem Operating.handlers_wait (safe : Operating issuedFor c) (stuck : Stuck c) :
    .ipGot ∈ c.shared.net := by
  obtain ⟨t,member,same⟩ := safe.present stuck (k := .handler) nofun
  have blocked := stuck t member
  cases t <;> cases same
  rename_i point
  cases point with
  | idle => exact blocked.2
  | _ => exact blocked.elim

theorem Operating.sender_waits (safe : Operating issuedFor c) (stuck : Stuck c) :
    .mqttConnected ∉ c.shared.net := by
  obtain ⟨t,member,same⟩ := safe.present stuck (k := .sending) nofun
  have blocked := stuck t member
  cases t <;> cases same
  rename_i point
  cases point with
  | waiting => exact blocked
  | _ => exact blocked.elim

/-- With the supervisor waiting, an activity has succeeded or its task waits too. -/
theorem Operating.settled (safe : Operating issuedFor c) (stuck : Stuck c) (a : Activity) :
    a.successBit ∈ c.shared.net ∨ ∃ t ∈ c.tasks, t.unreported a = true := by
  obtain ⟨waiting,nothing⟩ := safe.supervisor_waits stuck
  have kept := safe.restartable.kept ⟨_,waiting,rfl⟩ a
  by_cases pending : 0 < held a.bits c.shared.net
  · obtain ⟨b,own,set⟩ := held_pos_iff.mp pending
    have masked : b ∉ restartMask := fun inside =>
      nothing ⟨b,Finset.mem_inter.mpr ⟨set,inside⟩⟩
    simp only [Activity.bits,Finset.mem_insert,Finset.mem_singleton] at own
    rcases own with rfl | rfl | rfl
    · exact absurd (by decide) masked
    · exact absurd (by cases a <;> decide) masked
    · exact .inl set
  · unfold tokens TaskPool.total at kept
    change 1 ≤ held a.bits c.shared.net + _ at kept
    have positive : 0 < (c.tasks.map (Task.weight a)).sum := by omega
    obtain ⟨t,member,weight⟩ := TaskPool.exists_of_sum_pos (Task.weight a) positive
    have blocked := stuck t member
    cases unreported : t.unreported a with
    | true => exact .inr ⟨t,member,unreported⟩
    | false =>
      exfalso
      cases t with
      | main point => exact blocked
      | network point =>
        cases point with
        | waiting => cases weight
        | _ => exact blocked
      | mqtt point =>
        cases point with
        | dropped => exact blocked
        | _ => simp [Task.weight,Task.holds,Task.starting,Task.consumed,Task.dropping,unreported,
            MqttPoint.reported] at weight
      | sending point =>
        cases point with
        | waiting => simp [Task.weight,Task.holds,Task.starting,Task.consumed,Task.dropping,unreported,
            SendingPoint.raising] at weight
        | _ => exact blocked
      | _ => simp [Task.weight,Task.holds,Task.starting,Task.consumed,Task.dropping,unreported] at weight

/-- The waits do not close a circle: somebody can always go on. -/
theorem Operating.unstuck (safe : Operating issuedFor c) : ¬Stuck c := by
  intro stuck
  have got := safe.handlers_wait stuck
  have key : .privKeySuccess ∈ c.shared.net := by
    rcases safe.settled stuck .privKey with success | ⟨t,member,unreported⟩
    · exact success
    · have blocked := stuck t member
      cases t <;> first | exact blocked.elim | cases unreported
  have cert : .certSuccess ∈ c.shared.net := by
    rcases safe.settled stuck .cert with success | ⟨t,member,unreported⟩
    · exact success
    · have blocked := stuck t member
      cases t <;> try cases unreported
      rename_i point
      cases point with
      | waiting => exact absurd (by simp [Finset.insert_subset_iff,key,got]) blocked
      | _ => exact blocked.elim
  have tls : .tlsConnected ∈ c.shared.net := by
    rcases safe.settled stuck .tls with success | ⟨t,member,unreported⟩
    · exact success
    · have blocked := stuck t member
      cases t <;> try cases unreported
      rename_i point
      cases point with
      | waiting => exact absurd (by simp [Finset.insert_subset_iff,key,cert,got]) blocked
      | _ => exact blocked.elim
  rcases safe.settled stuck .mqtt with success | ⟨t,member,unreported⟩
  · exact safe.sender_waits stuck success
  · have blocked := stuck t member
    cases t <;> try cases unreported
    rename_i point
    cases point with
    | waiting => exact blocked tls
    | _ => exact blocked.elim

theorem Operating.moves (safe : Operating issuedFor c) (able : ∀ key, ∃ cert, issuedFor cert key)
    (running : c.shared.halted = false) : ∃ c', Step (undisturbed issuedFor) c c' := by
  obtain ⟨t,member,free⟩ : ∃ t ∈ c.tasks, ¬t.Blocked c.shared := by
    by_contra nobody
    exact safe.unstuck fun t member => by_contra fun free => nobody ⟨t,member,free⟩
  obtain ⟨o,permitted,runs⟩ := enabled able free
  obtain ⟨⟨s',next⟩,ran⟩ := Option.isSome_iff_exists.mp runs
  obtain ⟨d,tasks⟩ := c
  obtain ⟨before,after,rfl⟩ := List.append_of_mem member
  refine ⟨_,.run d s' before after t o next permitted ?_⟩
  change exec d t o = _
  rw [exec,running]
  exact ran

theorem recovers_running (running : c.shared.halted = false) (recovers : Recovers issuedFor c c') :
    Step (undisturbed issuedFor) c c' := by
  rcases recovers with step | ⟨halted,_⟩
  · exact step
  · rw [running] at halted
    cases halted

theorem recovers_halted (halted : c.shared.halted = true) (recovers : Recovers issuedFor c c') :
    c' = boot c.shared.mac c.shared.nvs := by
  rcases recovers with step | ⟨_,same⟩
  · cases step with
    | run s s' before after t o next permitted ran =>
      have running := (exec_some ran).1
      rw [running] at halted
      cases halted
    | restart _ permitted => exact permitted.elim
  · exact same

theorem Operating.recovers (safe : Operating issuedFor c) (recovers : Recovers issuedFor c c') :
    Operating issuedFor c' := by
  rcases recovers with step | ⟨_,rfl⟩
  · cases step with
    | run d d' before after t o next permitted ran =>
      exact safe.run (undisturbed_operating permitted) (exec_some ran).2
    | restart _ permitted => exact permitted.elim
  · exact .boot safe.consistent.matching

/-- From every state a message is published, or the program crashes on the way. -/
theorem Operating.publishes_or_halts (able : ∀ key, ∃ cert, issuedFor cert key)
    (safe : Operating issuedFor c) :
    Inevitable (Recovers issuedFor) (fun c => Publishing c ∨ c.shared.halted = true) c := by
  refine Inevitable.of_rank (Operating issuedFor) work ?_ ?_ safe
  · intro c safe short
    have running : c.shared.halted = false := by simpa using (not_or.mp short).2
    obtain ⟨c',step⟩ := safe.moves able running
    exact ⟨c',.inl step⟩
  · intro c c' safe short recovers
    have running : c.shared.halted = false := by simpa using (not_or.mp short).2
    have progress := safe.lowers (not_or.mp short).1 (recovers_running running recovers)
    exact ⟨safe.recovers recovers,progress.imp_left .inr⟩

/-- Claim data is live and nothing has crashed. -/
structure Sound (issuedFor : Str → Str → Prop) (c : Config) : Prop where
  operating : Operating issuedFor c
  claimable : Claimable c
  running : c.shared.halted = false

theorem Sound.boot {mac : Vector UInt8 6} {nvs : DurableMap RuntimeKey Str}
    (matching : Matching issuedFor nvs) : Sound issuedFor (boot mac nvs) :=
  ⟨.boot matching,.boot mac nvs,rfl⟩

theorem Sound.step (safe : Sound issuedFor c) (step : Step (undisturbed issuedFor) c c') :
    Sound issuedFor c' := by
  cases step with
  | run d d' before after t o next permitted ran =>
    obtain ⟨running,ran⟩ := exec_some ran
    have mine : t ∈ before ++ t :: after := by simp
    obtain ⟨verifies,stores⟩ := succeeds_claim permitted.2.1 ran
    refine ⟨safe.operating.run (undisturbed_operating permitted) ran,
      safe.claimable.run verifies stores ran,?_⟩
    rcases (taskStep_outward ran).halted with kept | crashes
    · exact kept.trans running
    · exfalso
      obtain ⟨_,succeeded,_,_⟩ := permitted
      cases crashes with
      | wifi bits => cases succeeded
      | key => cases succeeded
      | claim a current released => exact released (safe.claimable.cert .enter mine a current)
      | credentials absent =>
        obtain ⟨cert,key,ownCert,ownKey,_⟩ := safe.operating.consistent.paired mine nofun
        rcases absent with absent | absent
        · exact Option.some_ne_none cert (ownCert.symm.trans absent)
        · exact Option.some_ne_none key (ownKey.symm.trans absent)
  | restart _ permitted => exact permitted.elim

theorem Sound.publishes (able : ∀ key, ∃ cert, issuedFor cert key) (safe : Sound issuedFor c) :
    Inevitable (Recovers issuedFor) Publishing c := by
  have inevitable := (safe.operating.publishes_or_halts able).invariant (Sound issuedFor) ?_ safe
  · refine inevitable.trans fun c there => ?_
    rcases there with ⟨publishing | halted,sound⟩
    · exact .reached publishing
    · rw [sound.running] at halted
      cases halted
  · intro c c' safe recovers
    exact safe.step (recovers_running safe.running recovers)

/-- Whatever failed before, when nothing fails any more every run comes to publishing a message,
with a reboot on the way where the program crashed or crashes on claim data it has released. -/
theorem publishes_again (issuedFor : Str → Str → Prop) (able : ∀ key, ∃ cert, issuedFor cert key)
    (mac : Vector UInt8 6) (nvs : DurableMap RuntimeKey Str) (c : Config)
    (matching : Matching issuedFor nvs) (run : Reaches (operating issuedFor) (boot mac nvs) c) :
    Inevitable (Recovers issuedFor) Publishing c := by
  have safe := operating_run matching run
  have inevitable := (safe.publishes_or_halts able).invariant (Operating issuedFor) ?_ safe
  · refine inevitable.trans fun c there => ?_
    rcases there with ⟨publishing | halted,safe⟩
    · exact .reached publishing
    · refine .later ⟨_,.inr ⟨halted,rfl⟩⟩ fun c' recovers => ?_
      rw [recovers_halted halted recovers]
      exact (Sound.boot safe.consistent.matching).publishes able
  · exact fun c c' safe => safe.recovers

end

def operates (c : Config) (t : Task) (o : Outcome) : Bool :=
  reads t o && issues c t o && creates t o && fitsBuffer t o && starts t o

theorem operates_sound (c : Config) (t : Task) (o : Outcome) (admitted : operates c t o = true) :
    (operating fun cert key => cert = certificateOf key).permits c t o := by
  simp only [operates,Bool.and_eq_true] at admitted
  obtain ⟨⟨⟨service,creation⟩,fit⟩,start⟩ := admitted
  exact ⟨issues_sound c t o (Bool.and_eq_true_iff.mpr service),creation,fit,start⟩

set_option maxRecDepth 8000 in
theorem publishes_again_released :
    ∃ c, Reaches (operating fun cert key => cert = certificateOf key) (boot someMac named) c ∧
      .cert .enter ∈ c.tasks ∧ ¬ c.shared.ClaimLive ∧
      Inevitable (Recovers fun cert key => cert = certificateOf key) Publishing c := by
  obtain ⟨c,run,test⟩ := TaskPool.play_any machine operates
    (operating fun cert key => cert = certificateOf key) operates_sound (boot someMac named)
    (claimBegins ++ claimFailsAtVerify ++ claimBeginsAgain)
    (fun c => .cert .enter ∈ c.tasks ∧ ¬ c.shared.ClaimLive) (by decide)
  obtain ⟨entering,released⟩ := of_decide_eq_true test
  exact ⟨c,run,entering,released,publishes_again (fun cert key => cert = certificateOf key)
    (fun key => ⟨certificateOf key,rfl⟩) someMac named c nofun run⟩

end QuickConnect.Firmware
