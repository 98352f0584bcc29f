import Mathlib.Algebra.Order.BigOperators.Group.Finset
import QuickConnect.Firmware.Credentials
import QuickConnect.Firmware.Restart

/-! What is left to do until a message is published, if nothing fails from here on. A
failure that is under way counts with all the work it will cause: the report, the
supervisor's round and the activity that it starts again. -/
namespace QuickConnect.Firmware
open EventGroup

/-- The steps of an activity's task up to the setting of its success bit and behind it. -/
def Activity.steps : Activity → Nat
  | .privKey => 12
  | .cert => 13
  | .tls => 8
  | .mqtt => 3

-- A bit that the supervisor waits for costs one round of it and the activity it asks for.
def NetworkBit.work : NetworkBit → Nat
  | .init => 42
  | .wifiDisconnected => 6
  | .privKeyFail => 18
  | .certFail => 19
  | .tlsDisconnected => 14
  | .mqttDisconnected => 9
  | _ => 0

def UtilBit.work : UtilBit → Nat
  | .wifiDisconnected => 2
  | _ => 0

def netWork (bits : Finset NetworkBit) : Nat := bits.sum NetworkBit.work

def utilWork (bits : Finset UtilBit) : Nat := bits.sum UtilBit.work

def MainPoint.work : MainPoint → Nat
  | .readThingName => 73
  | .readNodeId => 72
  | .test => 71
  | .getMac => 70
  | .format => 69
  | .storeNodeId => 68
  | .storeThingName => 67
  | .createGroups => 66
  | .createUtility => 60
  | .createNetwork => 47
  | .createSending => 3

def missing (net : Finset NetworkBit) (b : NetworkBit) (work : Nat) : Nat :=
  if b ∈ net then 0 else work

def HandlerPoint.work (net : Finset NetworkBit) : HandlerPoint → Nat
  | .idle => missing net .wifiConnected 3 + missing net .ipGot 2
  | .setConnected => missing net .ipGot 2 + 2
  | .notifyConnected => missing net .wifiConnected 3 + missing net .ipGot 2 + 1
  | .clearConnected => 16
  | .setDisconnected => 15
  | .notifyDisconnected => 8
  | .setGotIp => missing net .wifiConnected 3 + 1

def asked (bits : Finset NetworkBit) (a : Activity) : Nat :=
  if Requested bits a.failBit then a.steps else 0

def NetworkPoint.work : NetworkPoint → Nat
  | .start => 43
  | .waiting => 0
  | .wifi bits => asked bits .privKey + asked bits .cert + asked bits .tls + asked bits .mqtt + 5
  | .create .privKey bits =>
    asked bits .privKey + asked bits .cert + asked bits .tls + asked bits .mqtt + 4
  | .create .cert bits => asked bits .cert + asked bits .tls + asked bits .mqtt + 3
  | .create .tls bits => asked bits .tls + asked bits .mqtt + 2
  | .create .mqtt bits => asked bits .mqtt + 1

def PrivKeyPoint.work (address : Option Nat) : PrivKeyPoint → Nat
  | .notify => 12
  | .readKey => 11
  | .assignKey _ => 10
  | .readCert => 9
  | .assignCert _ => 8
  | .test => 7
  | .generate => 6
  | .assignData (some _) => 5
  | .assignData none => 22
  | .claimed => if address = none then 21 else 4
  | .store => 3
  | .report true => 2
  | .report false => 20
  | .notifyReport _ => 1

def CertPoint.work : CertPoint → Nat
  | .notify => 13
  | .read => 12
  | .assign _ => 11
  | .test => 10
  | .waiting => 9
  | .enter => 8
  | .performInit _ => 7
  | .performVerify _ => 6
  | .release _ true => 5
  | .release _ false => 22
  | .take => 4
  | .store => 3
  | .report true => 2
  | .report false => 21
  | .notifyReport _ => 1

def TlsPoint.work : TlsPoint → Nat
  | .waiting => 8
  | .test => 7
  | .disconnect => 6
  | .configure => 5
  | .allocate => 4
  | .assign (some _) => 3
  | .assign none => 17
  | .connect (some _) => 2
  | .connect none => 16
  | .report true => 1
  | .report false => 15

def MqttPoint.work : MqttPoint → Nat
  | .waiting => 3
  | .connect => 2
  | .report .success => 1
  | .report .noMemory => 1
  | .report .sendFailed => 25
  | .report .recvFailed => 25
  | .report _ => 10
  | .dropped => 24

def SendingPoint.work : SendingPoint → Nat
  | .delay => 2
  | .waiting => 1
  | .publish => 0
  | .report .success => 3
  | .report _ => 27
  | .dropped => 26

def UtilityPoint.work : UtilityPoint → Nat
  | .waitWifi => 12
  | .printWifi bits => if .wifiDisconnected ∈ bits then 13 else 11
  | .waitGen => 10
  | .printGen => 9
  | .waitPrivKey => 8
  | .printPrivKey _ => 7
  | .waitGet => 6
  | .printGet => 5
  | .waitCert => 4
  | .printCert _ => 3
  | .sendCert => 2
  | .sendThingName => 1

def Task.work (d : Device) : Task → Nat
  | .main point => point.work
  | .handler point => point.work d.net
  | .network point => point.work
  | .privKey point => point.work d.pxSelfClaimData
  | .cert point => point.work
  | .tls point => point.work
  | .mqtt point => point.work
  | .sending point => point.work
  | .utility point => point.work

def work (c : Config) : Nat :=
  TaskPool.total (fun d => netWork d.net + utilWork d.util) (Task.work c.shared) c

/-- The events of a WiFi connection that comes up. -/
def arrives (d : Device) (t : Task) (o : Outcome) : Bool :=
  match t with
  | .handler .idle => match o with
    | .event .staConnected => .wifiConnected ∉ d.net
    | .event .staGotIp => .ipGot ∉ d.net
    | _ => false
  | _ => true

/-- What a step takes up of its task and of the bits that it clears, and what it leaves. -/
def Works (t : Task) (d d' : Device) (next : List Task) : Prop :=
  (next.map (Task.work d')).sum + netWork t.sets + utilWork t.notifies.toFinset <
    t.work d + netWork (d.net ∩ t.clears) + utilWork (d.util ∩ t.consumes)

section
variable {d d' : Device} {t u : Task} {o : Outcome} {before after next : List Task}

theorem work_lowered (effect : Effect t d d') (works : Works t d d' next)
    (others : ∀ u ∈ before ++ after, u.work d' = u.work d) :
    work ⟨d',before ++ next ++ after⟩ < work ⟨d,before ++ t :: after⟩ := by
  have net : netWork (setBits (clearBits d.net t.clears) t.sets) + netWork (d.net ∩ t.clears) ≤
      netWork d.net + netWork t.sets := sum_setBits_clearBits NetworkBit.work d.net t.clears t.sets
  have util : utilWork (setBits (clearBits d.util t.consumes) t.notifies.toFinset) +
      utilWork (d.util ∩ t.consumes) ≤ utilWork d.util + utilWork t.notifies.toFinset :=
    sum_setBits_clearBits UtilBit.work d.util t.consumes t.notifies.toFinset
  have same : ((before ++ after).map (Task.work d')).sum = ((before ++ after).map (Task.work d)).sum := by
    rw [List.map_congr_left others]
  unfold Works at works
  unfold work
  rw [TaskPool.total_replaced,TaskPool.total_focused]
  dsimp only
  rw [same,effect.net,effect.util]
  omega

/-- A step that sets no bits of either group. -/
theorem Works.quiet (sets : t.sets = ∅) (notifies : t.notifies = [])
    (less : (next.map (Task.work d')).sum < t.work d) : Works t d d' next := by
  unfold Works
  rw [sets,notifies]
  change _ + 0 + 0 < _
  omega

theorem Works.clearing {clears : Finset NetworkBit} (same : t.clears = clears) (sets : t.sets = ∅)
    (notifies : t.notifies = [])
    (less : (next.map (Task.work d')).sum < t.work d + netWork (d.net ∩ clears)) :
    Works t d d' next := by
  unfold Works
  rw [sets,notifies,same]
  change _ + 0 + 0 < _
  omega

/-- A step that clears nothing that was asked for, with the bits it sets. -/
theorem Works.setting (net util : Nat) (sets : netWork t.sets = net)
    (notifies : utilWork t.notifies.toFinset = util)
    (less : (next.map (Task.work d')).sum + net + util < t.work d) : Works t d d' next := by
  unfold Works
  rw [sets,notifies]
  omega

theorem clears_wifi {b : NetworkBit} (wifi : b = .wifiConnected ∨ b = .ipGot)
    (touched : b ∈ t.clears ∨ b ∈ t.sets) : t.population .handler = 1 := by
  cases t with
  | handler point => rfl
  | main point =>
    by_cases same : point = .createGroups
    · rw [same]
      rfl
    · rcases wifi with rfl | rfl <;> simp [Task.clears,Task.sets,same] at touched
  | network point =>
    rcases wifi with rfl | rfl <;> cases point <;> simp [Task.clears,Task.sets,restartMask] at touched
  | mqtt point =>
    rcases wifi with rfl | rfl <;> cases point with
      | report status => cases status <;> simp [Task.clears,Task.sets,MQTTStatus.reportBits] at touched
      | _ => simp [Task.clears,Task.sets] at touched
  | sending point =>
    rcases wifi with rfl | rfl <;> cases point with
      | report status => cases status <;> simp [Task.clears,Task.sets] at touched
      | _ => simp [Task.clears,Task.sets] at touched
  | privKey point =>
    rcases wifi with rfl | rfl <;> cases point with
      | report acquired => cases acquired <;> simp [Task.clears,Task.sets] at touched
      | _ => simp [Task.clears,Task.sets] at touched
  | cert point =>
    rcases wifi with rfl | rfl <;> cases point with
      | report acquired => cases acquired <;> simp [Task.clears,Task.sets] at touched
      | _ => simp [Task.clears,Task.sets] at touched
  | tls point =>
    rcases wifi with rfl | rfl <;> cases point with
      | report connected => cases connected <;> simp [Task.clears,Task.sets] at touched
      | _ => simp [Task.clears,Task.sets] at touched
  | utility point => rcases wifi with rfl | rfl <;> simp [Task.clears,Task.sets] at touched

theorem wifi_kept {b : NetworkBit} (wifi : b = .wifiConnected ∨ b = .ipGot) (effect : Effect t d d')
    (other : t.population .handler ≠ 1) : b ∈ d'.net ↔ b ∈ d.net := by
  have uncleared : b ∉ t.clears := fun clears => other (clears_wifi wifi (.inl clears))
  have unset : b ∉ t.sets := fun sets => other (clears_wifi wifi (.inr sets))
  rw [effect.net,mem_setBits,mem_clearBits]
  simp [uncleared,unset]

theorem cert_pointer {point : CertPoint} (ran : prvGetCertTask d o point = some (d',next)) :
    d'.pxSelfClaimData = d.pxSelfClaimData := by
  cases point with
  | waiting =>
    obtain ⟨_,_,rfl,_⟩ := awaitBits_some.mp ran
    rfl
  | enter =>
    simp only [prvGetCertTask] at ran
    cases o <;> split at ran <;> (try split at ran) <;> simp only [proceed,reduceCtorEq] at ran <;>
      cases ran <;> rfl
  | _ =>
    cases o <;> simp only [prvGetCertTask,proceed,call,reduceCtorEq] at ran
    all_goals (try split at ran) <;> cases ran <;> rfl

/-- What the other tasks have left does not change: only the handlers touch the bits that
theirs depends on, and only an unreported key task the pointer. -/
theorem work_others (links : Links ⟨d,before ++ t :: after⟩)
    (one : population .handler ⟨d,before ++ t :: after⟩ ≤ 1) (ran : taskStep d o t = some (d',next)) :
    ∀ u ∈ before ++ after, u.work d' = u.work d := by
  intro u inside
  have effect := taskStep_effect ran
  cases u with
  | handler point =>
    have other : t.population .handler ≠ 1 := by
      intro own
      have alone := alone_in_population .handler one own inside
      cases alone
    have connected := wifi_kept (.inl rfl) effect other
    have got := wifi_kept (.inr rfl) effect other
    cases point <;> simp only [Task.work,HandlerPoint.work,missing,connected,got]
  | privKey point =>
    cases t with
    | privKey own =>
      cases reported : own.reported with
      | false =>
        have done := key_alone links reported inside
        cases point <;> first | rfl | cases done
      | true =>
        cases own <;> try cases reported
        obtain ⟨_,ran⟩ := proceed_some.mp ran
        cases ran
        rfl
    | cert own =>
      simp only [Task.work]
      rw [cert_pointer ran]
    | _ =>
      obtain ⟨_,_,pointer,_⟩ := secrets_eq (effect.secrets rfl)
      simp only [Task.work]
      rw [pointer]
  | _ => rfl

theorem Works.main {point : MainPoint} (succeeded : o ≠ .fail)
    (ran : appMain d o point = some (d',next)) : Works (.main point) d d' next := by
  cases point <;> cases o <;> simp only [appMain,proceed,call,drawn,reduceCtorEq] at ran
  all_goals first | exact absurd rfl succeeded | skip
  all_goals
    (try split at ran) <;> cases ran <;>
      exact .quiet rfl rfl (by simp [Task.work,MainPoint.work,HandlerPoint.work,missing,
        UtilityPoint.work,NetworkPoint.work,SendingPoint.work])

theorem Works.handler {point : HandlerPoint} (arrives : arrives d (.handler point) o = true)
    (ran : prvEventHandlers d o point = some (d',next)) : Works (.handler point) d d' next := by
  cases point with
  | idle =>
    cases o <;> simp only [prvEventHandlers,reduceCtorEq] at ran
    rename_i event
    cases event with
    | staConnected =>
      cases ran
      have absent : .wifiConnected ∉ d.net := of_decide_eq_true arrives
      exact .quiet rfl rfl (by simp [Task.work,HandlerPoint.work,missing,absent]; omega)
    | staGotIp =>
      cases ran
      have absent : .ipGot ∉ d.net := of_decide_eq_true arrives
      exact .quiet rfl rfl (by simp [Task.work,HandlerPoint.work,missing,absent])
    | staDisconnected => cases arrives
  | setConnected =>
    obtain ⟨_,ran⟩ := proceed_some.mp ran
    cases ran
    exact .setting 0 0 rfl rfl (by simp [Task.work,HandlerPoint.work,missing])
  | notifyConnected =>
    obtain ⟨_,ran⟩ := proceed_some.mp ran
    cases ran
    exact .setting 0 0 rfl rfl (by simp [Task.work,HandlerPoint.work,Device.notify])
  | clearConnected =>
    obtain ⟨_,ran⟩ := proceed_some.mp ran
    cases ran
    exact .quiet rfl rfl (by simp [Task.work,HandlerPoint.work])
  | setDisconnected =>
    obtain ⟨_,ran⟩ := proceed_some.mp ran
    cases ran
    exact .setting 6 0 rfl rfl (by simp [Task.work,HandlerPoint.work])
  | notifyDisconnected =>
    obtain ⟨_,ran⟩ := proceed_some.mp ran
    cases ran
    refine .setting 0 2 rfl rfl ?_
    simp [Task.work,HandlerPoint.work,Device.notify,missing]
    split <;> split <;> omega
  | setGotIp =>
    obtain ⟨_,ran⟩ := proceed_some.mp ran
    cases ran
    exact .setting 0 0 rfl rfl (by simp [Task.work,HandlerPoint.work,missing])

theorem netWork_restart (net : Finset NetworkBit) : netWork (net ∩ restartMask) =
    (if .init ∈ net then 42 else 0) + (if .wifiDisconnected ∈ net then 6 else 0) +
      (if .privKeyFail ∈ net then 18 else 0) + (if .certFail ∈ net then 19 else 0) +
      (if .tlsDisconnected ∈ net then 14 else 0) + (if .mqttDisconnected ∈ net then 9 else 0) := by
  have filtered : net ∩ restartMask = restartMask.filter (· ∈ net) := by
    ext b
    simp [and_comm]
  rw [netWork,filtered,Finset.sum_filter,restartMask,Finset.sum_insert (by decide),
    Finset.sum_insert (by decide),Finset.sum_insert (by decide),Finset.sum_insert (by decide),
    Finset.sum_insert (by decide),Finset.sum_singleton]
  simp only [NetworkBit.work,Nat.add_assoc]

/-- A wait that is satisfied pays for the round and for the activities it starts. -/
theorem asked_paid {net : Finset NetworkBit} (ready : (net ∩ restartMask).Nonempty) :
    NetworkPoint.work (.wifi net) < netWork (net ∩ restartMask) := by
  obtain ⟨b,member⟩ := ready
  have pending : .init ∈ net ∨ .wifiDisconnected ∈ net ∨ .privKeyFail ∈ net ∨ .certFail ∈ net ∨
      .tlsDisconnected ∈ net ∨ .mqttDisconnected ∈ net := by
    simp only [Finset.mem_inter,restartMask,Finset.mem_insert,Finset.mem_singleton] at member
    obtain ⟨inside,rfl | rfl | rfl | rfl | rfl | rfl⟩ := member <;> simp [inside]
  rw [netWork_restart]
  simp only [NetworkPoint.work,asked,Requested,Activity.failBit,Activity.steps]
  by_cases first : .init ∈ net
  · simp only [first,true_or,if_true]
    omega
  · simp only [first,false_or,if_false] at pending ⊢
    split_ifs <;> simp_all

theorem Works.network {point : NetworkPoint} (succeeded : o ≠ .fail)
    (ran : prvNetworkHandlingTask d o point = some (d',next)) : Works (.network point) d d' next := by
  cases point with
  | start =>
    obtain ⟨_,ran⟩ := proceed_some.mp ran
    cases ran
    exact .setting 42 0 rfl rfl (by simp [Task.work,NetworkPoint.work])
  | waiting =>
    obtain ⟨_,ready,rfl,rfl⟩ := network_waiting_some ran
    have paid := asked_paid ready
    have clears : (Task.network .waiting).clears = restartMask := rfl
    exact .clearing clears rfl rfl (by simpa [Task.work,NetworkPoint.work] using paid)
  | wifi bits =>
    simp only [prvNetworkHandlingTask] at ran
    split at ran
    · rcases call_some.mp ran with ⟨_,ran⟩ | ⟨failed,_⟩
      · cases ran
        exact .quiet rfl rfl (by simp [Task.work,NetworkPoint.work])
      · exact absurd failed succeeded
    · obtain ⟨_,ran⟩ := proceed_some.mp ran
      cases ran
      exact .quiet rfl rfl (by simp [Task.work,NetworkPoint.work])
  | create a bits =>
    simp only [prvNetworkHandlingTask] at ran
    split at ran <;> rename_i requested
    · rcases call_some.mp ran with ⟨_,ran⟩ | ⟨failed,_⟩
      · cases ran
        have paid : asked bits a = a.steps := if_pos requested
        refine .quiet (by cases a <;> rfl) rfl ?_
        cases a <;> simp [Task.work,NetworkPoint.work,Activity.afterwards,Activity.firstStep,paid,
          Activity.steps,PrivKeyPoint.work,CertPoint.work,TlsPoint.work,MqttPoint.work] <;> omega
      · exact absurd failed succeeded
    · obtain ⟨_,ran⟩ := proceed_some.mp ran
      cases ran
      refine .quiet (by cases a <;> rfl) rfl ?_
      cases a <;> simp only [Task.work,NetworkPoint.work,Activity.afterwards,List.map_cons,List.map_nil,
        List.sum_cons,List.sum_nil] <;> omega

theorem Works.privKey {point : PrivKeyPoint} (succeeded : o ≠ .fail)
    (generated : point = .generate → ∃ text, o = .pem text) (right : point.Right d)
    (ran : prvGetPrivKeyTask d o point = some (d',next)) : Works (.privKey point) d d' next := by
  cases point with
  | generate =>
    obtain ⟨text,rfl⟩ := generated rfl
    cases ran
    exact .quiet rfl rfl (by simp [Task.work,PrivKeyPoint.work])
  | assignData address =>
    obtain ⟨_,ran⟩ := proceed_some.mp ran
    cases ran
    cases address <;> exact .quiet rfl rfl (by simp [Task.work,PrivKeyPoint.work])
  | claimed =>
    obtain ⟨_,ran⟩ := proceed_some.mp ran
    split at ran <;> rename_i pending <;> cases ran <;>
      exact .quiet rfl rfl (by simp [Task.work,PrivKeyPoint.work,pending])
  | store =>
    obtain ⟨_,a,data,_,_,own⟩ := right
    rcases call_some.mp ran with ⟨_,ran⟩ | ⟨failed,_⟩
    · cases ran
      exact .quiet rfl rfl (by simp [Task.work,PrivKeyPoint.work,own])
    · exact absurd failed succeeded
  | report acquired =>
    obtain ⟨_,ran⟩ := proceed_some.mp ran
    cases ran
    cases acquired with
    | true => exact .setting 0 0 rfl rfl (by simp [Task.work,PrivKeyPoint.work])
    | false => exact .setting 18 0 rfl rfl (by simp [Task.work,PrivKeyPoint.work])
  | notifyReport acquired =>
    obtain ⟨_,ran⟩ := proceed_some.mp ran
    cases ran
    cases acquired <;>
      exact .setting 0 0 rfl rfl (by simp [Task.work,PrivKeyPoint.work])
  | notify =>
    obtain ⟨_,ran⟩ := proceed_some.mp ran
    cases ran
    exact .setting 0 0 rfl rfl (by simp [Task.work,PrivKeyPoint.work])
  | test =>
    obtain ⟨_,ran⟩ := proceed_some.mp ran
    split at ran <;> cases ran <;> exact .quiet rfl rfl (by simp [Task.work,PrivKeyPoint.work])
  | _ =>
    cases o <;> simp only [prvGetPrivKeyTask,proceed,call,reduceCtorEq] at ran
    all_goals first | exact absurd rfl succeeded | skip
    all_goals
      cases ran
      exact .quiet rfl rfl (by simp [Task.work,PrivKeyPoint.work])

variable {issuedFor : Str → Str → Prop}

/-- The certificate task gets on, except where it runs into claim data that was released. -/
theorem Works.cert {point : CertPoint} (succeeded : o ≠ .fail) (crashes : point = .enter → o ≠ .wild)
    (issued : ∀ a, point = .performVerify a → ∃ text, o = .pem text)
    (right : point.Right issuedFor d) (ready : point.claiming = true → d.KeyReady)
    (ran : prvGetCertTask d o point = some (d',next)) :
    d'.halted = true ∨ Works (.cert point) d d' next := by
  cases point with
  | waiting =>
    obtain ⟨_,_,rfl,rfl⟩ := awaitBits_some.mp ran
    exact .inr (.quiet rfl rfl (by simp [Task.work,CertPoint.work]))
  | enter =>
    obtain ⟨key,_,_,claim⟩ := ready rfl
    obtain ⟨a,_,current,_⟩ := claim right
    simp only [prvGetCertTask,current] at ran
    split at ran
    · obtain ⟨_,ran⟩ := proceed_some.mp ran
      cases ran
      exact .inr (.quiet rfl rfl (by simp [Task.work,CertPoint.work]))
    · cases o <;> simp only [reduceCtorEq] at ran <;> cases ran
      · exact .inl rfl
      · exact absurd rfl (crashes rfl)
  | performVerify a =>
    obtain ⟨text,rfl⟩ := issued a rfl
    cases ran
    exact .inr (.quiet rfl rfl (by simp [Task.work,CertPoint.work]))
  | release a verified =>
    obtain ⟨_,ran⟩ := proceed_some.mp ran
    cases ran
    cases verified <;> exact .inr (.quiet rfl rfl (by simp [Task.work,CertPoint.work]))
  | store =>
    obtain ⟨_,cert,_,certificate,_,_⟩ := right
    rcases call_some.mp ran with ⟨_,ran⟩ | ⟨failed,_⟩
    · cases ran
      exact .inr (.quiet rfl rfl (by simp [Task.work,CertPoint.work,certificate]))
    · exact absurd failed succeeded
  | report acquired =>
    obtain ⟨_,ran⟩ := proceed_some.mp ran
    cases ran
    cases acquired with
    | true => exact .inr (.setting 0 0 rfl rfl (by simp [Task.work,CertPoint.work]))
    | false => exact .inr (.setting 19 0 rfl rfl (by simp [Task.work,CertPoint.work]))
  | notifyReport acquired =>
    obtain ⟨_,ran⟩ := proceed_some.mp ran
    cases ran
    cases acquired <;>
      exact .inr (.setting 0 0 rfl rfl (by simp [Task.work,CertPoint.work]))
  | notify =>
    obtain ⟨_,ran⟩ := proceed_some.mp ran
    cases ran
    exact .inr (.setting 0 0 rfl rfl (by simp [Task.work,CertPoint.work]))
  | test =>
    obtain ⟨_,ran⟩ := proceed_some.mp ran
    split at ran <;> cases ran <;> exact .inr (.quiet rfl rfl (by simp [Task.work,CertPoint.work]))
  | _ =>
    cases o <;> simp only [prvGetCertTask,proceed,call,reduceCtorEq] at ran
    all_goals first | exact absurd rfl succeeded | skip
    all_goals
      cases ran
      exact .inr (.quiet rfl rfl (by simp [Task.work,CertPoint.work]))

theorem Works.tls {point : TlsPoint} (allocates : point = .allocate → o ≠ .fail)
    (connects : ∀ h, point = .connect (some h) → o ≠ .fail)
    (credentials : point = .configure → d.pcDevCert ≠ none ∧ d.pcDevKey ≠ none)
    (ran : prvTlsConnectionTask d o point = some (d',next)) : Works (.tls point) d d' next := by
  cases point with
  | waiting =>
    obtain ⟨_,_,rfl,rfl⟩ := awaitBits_some.mp ran
    exact .quiet rfl rfl (by simp [Task.work,TlsPoint.work])
  | test =>
    obtain ⟨_,ran⟩ := proceed_some.mp ran
    split at ran <;> cases ran <;> exact .quiet rfl rfl (by simp [Task.work,TlsPoint.work])
  | disconnect =>
    rcases call_some.mp ran with ⟨_,ran⟩ | ⟨_,ran⟩ <;> cases ran <;>
      exact .quiet rfl rfl (by simp [Task.work,TlsPoint.work])
  | configure =>
    obtain ⟨cert,key⟩ := credentials rfl
    obtain ⟨_,ran⟩ := proceed_some.mp ran
    rw [if_neg (not_or.mpr ⟨cert,key⟩)] at ran
    cases ran
    exact .quiet rfl rfl (by simp [Task.work,TlsPoint.work])
  | allocate =>
    rcases call_some.mp ran with ⟨_,ran⟩ | ⟨failed,_⟩
    · cases ran
      exact .quiet rfl rfl (by simp [Task.work,TlsPoint.work])
    · exact absurd failed (allocates rfl)
  | assign handle =>
    obtain ⟨_,ran⟩ := proceed_some.mp ran
    cases ran
    cases handle <;> exact .quiet rfl rfl (by simp [Task.work,TlsPoint.work])
  | connect handle =>
    cases handle with
    | none =>
      rcases call_some.mp ran with ⟨_,ran⟩ | ⟨_,ran⟩ <;> cases ran
      exact .quiet rfl rfl (by simp [Task.work,TlsPoint.work])
    | some h =>
      rcases call_some.mp ran with ⟨_,ran⟩ | ⟨failed,_⟩
      · cases ran
        exact .quiet rfl rfl (by simp [Task.work,TlsPoint.work])
      · exact absurd failed (connects h rfl)
  | report connected =>
    obtain ⟨_,ran⟩ := proceed_some.mp ran
    cases ran
    cases connected with
    | true => exact .setting 0 0 rfl rfl (by simp [Task.work,TlsPoint.work])
    | false => exact .setting 14 0 rfl rfl (by simp [Task.work,TlsPoint.work])

theorem Works.mqtt {point : MqttPoint} (connects : point = .connect → o = .status .success)
    (ran : prvMqttConnectionTask d o point = some (d',next)) : Works (.mqtt point) d d' next := by
  cases point with
  | waiting =>
    obtain ⟨_,_,rfl,rfl⟩ := awaitBits_some.mp ran
    exact .quiet rfl rfl (by simp [Task.work,MqttPoint.work])
  | connect =>
    cases connects rfl
    cases ran
    exact .quiet rfl rfl (by simp [Task.work,MqttPoint.work])
  | report status =>
    obtain ⟨_,ran⟩ := proceed_some.mp ran
    cases status
    case success =>
      cases ran
      exact .setting 0 0 rfl rfl (by simp [Task.work,MqttPoint.work])
    case noMemory | sendFailed | recvFailed =>
      cases ran
      exact .quiet rfl rfl (by simp [Task.work,MqttPoint.work])
    all_goals
      cases ran
      exact .setting 9 0 rfl rfl (by simp [Task.work,MqttPoint.work])
  | dropped =>
    obtain ⟨_,ran⟩ := proceed_some.mp ran
    cases ran
    exact .setting 23 0 rfl rfl (by simp [Task.work,MqttPoint.work])

theorem Works.sending {point : SendingPoint} (short : point ≠ .publish)
    (ran : prvQuickConnectSendingTask d o point = some (d',next)) : Works (.sending point) d d' next := by
  cases point with
  | waiting =>
    obtain ⟨_,_,rfl,rfl⟩ := awaitBits_some.mp ran
    exact .quiet rfl rfl (by simp [Task.work,SendingPoint.work])
  | publish => exact absurd rfl short
  | delay =>
    obtain ⟨_,ran⟩ := proceed_some.mp ran
    cases ran
    exact .quiet rfl rfl (by simp [Task.work,SendingPoint.work])
  | report status =>
    obtain ⟨_,ran⟩ := proceed_some.mp ran
    cases status <;> cases ran <;> exact .quiet rfl rfl (by simp [Task.work,SendingPoint.work])
  | dropped =>
    obtain ⟨_,ran⟩ := proceed_some.mp ran
    cases ran
    exact .setting 23 0 rfl rfl (by simp [Task.work,SendingPoint.work])

theorem Works.utility {point : UtilityPoint}
    (ran : prvUtilityOutputTask d o point = some (d',next)) : Works (.utility point) d d' next := by
  cases point <;> simp only [prvUtilityOutputTask,consumeBits_some,proceed_some] at ran
  case waitWifi =>
    obtain ⟨_,_,rfl,rfl⟩ := ran
    unfold Works
    change UtilityPoint.work (.printWifi d.util) + 0 + 0 < 12 + netWork (d.net ∩ ∅) +
      utilWork (d.util ∩ {.wifiConnected,.wifiDisconnected})
    by_cases disconnected : .wifiDisconnected ∈ d.util
    · have inside : .wifiDisconnected ∈ d.util ∩ {.wifiConnected,.wifiDisconnected} := by
        simp [disconnected]
      have paid : UtilBit.work .wifiDisconnected ≤ utilWork _ :=
        Finset.single_le_sum (fun _ _ => Nat.zero_le _) inside
      simp only [UtilBit.work] at paid
      simp only [UtilityPoint.work,disconnected,if_true]
      omega
    · simp only [UtilityPoint.work,disconnected,if_false]
      omega
  case waitGen | waitPrivKey | waitGet | waitCert =>
    obtain ⟨_,_,rfl,rfl⟩ := ran
    exact .quiet rfl rfl (by simp [Task.work,UtilityPoint.work])
  case printWifi bits =>
    obtain ⟨_,ran⟩ := ran
    cases ran
    refine .quiet rfl rfl ?_
    by_cases disconnected : .wifiDisconnected ∈ bits <;>
      simp [Task.work,UtilityPoint.work,disconnected]
  case printCert bits =>
    obtain ⟨_,ran⟩ := ran
    cases ran
    refine .quiet rfl rfl ?_
    split <;> simp [Task.work,UtilityPoint.work]
  all_goals
    obtain ⟨_,ran⟩ := ran
    cases ran
    exact .quiet rfl rfl (by simp [Task.work,UtilityPoint.work])

end
end QuickConnect.Firmware
