import QuickConnect.Firmware.Steps

/-! The right to run an activity, followed as a token: a pending start, failure or
success bit, a request the supervisor has consumed, a task that has not reported,
a task between clearing a success bit and setting the failure bit. -/
namespace QuickConnect.Firmware
open EventGroup

def Activity.bits (a : Activity) : Finset NetworkBit := {.init,a.failBit,a.successBit}

def Activity.successReport : Activity → Task
  | .privKey => .privKey (.report true)
  | .cert => .cert (.report true)
  | .tls => .tls (.report true)
  | .mqtt => .mqtt (.report .success)

def Activity.order : Activity → Nat
  | .privKey => 0
  | .cert => 1
  | .tls => 2
  | .mqtt => 3

def PrivKeyPoint.reported : PrivKeyPoint → Bool
  | .notifyReport _ => true
  | _ => false

def CertPoint.reported : CertPoint → Bool
  | .notifyReport _ => true
  | _ => false

def MqttPoint.reported : MqttPoint → Bool
  | .dropped => true
  | _ => false

def SendingPoint.raising : SendingPoint → Bool
  | .dropped => true
  | _ => false

def Task.starting : Task → Bool
  | .main point => point != .createSending
  | .network point => decide (point = .start)
  | _ => false

def Task.consumed (a : Activity) : Task → Bool
  | .network (.wifi bits) => decide (Requested bits a.failBit)
  | .network (.create b bits) => decide (b.order ≤ a.order ∧ Requested bits a.failBit)
  | _ => false

def Task.unreported (a : Activity) : Task → Bool
  | .privKey point => a = .privKey && !point.reported
  | .cert point => a = .cert && !point.reported
  | .tls _ => a = .tls
  | .mqtt point => a = .mqtt && !point.reported
  | _ => false

def Task.dropping (a : Activity) : Task → Bool
  | .mqtt point => (a = .tls || a = .mqtt) && point.reported
  | .sending point => (a = .tls || a = .mqtt) && point.raising
  | _ => false

def Task.holds (a : Activity) (t : Task) : Bool :=
  t.starting || t.consumed a || t.unreported a || t.dropping a

def Task.weight (a : Activity) (t : Task) : Nat := (t.holds a).toNat

def tokens (a : Activity) (c : Config) : Nat :=
  TaskPool.total (fun d => held a.bits d.net) (Task.weight a) c

/-- The branch of prvMqttConnectionTask that only logs, a task creation that failed, and
the ways in which app_main gives up. -/
def Loses (t : Task) (o : Outcome) : Prop :=
  t = .mqtt (.report .noMemory) ∨ (∃ point, t = .main point ∧ point ≠ .createSending ∧ o = .fail) ∨
    ∃ a bits, t = .network (.create a bits) ∧ Requested bits a.failBit ∧ o = .fail

def Task.dropsTls : Task → Bool
  | .mqtt (.report status) => status = .sendFailed || status = .recvFailed
  | .sending (.report status) => status ≠ .success
  | _ => false

def Task.dropsMqtt : Task → Bool
  | .sending (.report status) => status ≠ .success
  | _ => false

section
variable {d d' : Device} {t : Task} {o : Outcome} {next : List Task} (a : Activity)

def gained (a : Activity) (t : Task) (next : List Task) : Nat :=
  (t.sets ∩ a.bits).card + (next.map (Task.weight a)).sum

def spent (a : Activity) (d : Device) (t : Task) : Nat :=
  t.weight a + (d.net ∩ (a.bits ∩ t.clears)).card

structure Handover (a : Activity) (d : Device) (t : Task) (o : Outcome) (next : List Task) :
    Prop where
  atMost : (t.dropsTls = true → .tlsConnected ∈ d.net) → (t.dropsMqtt = true → .mqttConnected ∈ d.net) →
    gained a t next ≤ spent a d t
  atLeast : ¬ Loses t o → 1 ≤ spent a d t → 1 ≤ gained a t next

theorem Handover.same (equal : gained a t next = spent a d t) : Handover a d t o next :=
  ⟨fun _ _ => equal.le,fun _ => equal ▸ id⟩

theorem Handover.steady (clears : a.bits ∩ t.clears = ∅) (equal : gained a t next = t.weight a) :
    Handover a d t o next := by
  refine .same a ?_
  rw [equal,spent,clears,Finset.inter_empty]
  rfl

theorem Handover.moved {b : NetworkBit} (own : b ∈ a.bits) (cleared : b ∈ t.clears)
    (pending : (t.dropsTls = true → .tlsConnected ∈ d.net) →
      (t.dropsMqtt = true → .mqttConnected ∈ d.net) → b ∈ d.net)
    (after : gained a t next = 1) : Handover a d t o next := by
  refine ⟨fun tls mqtt => ?_,fun _ _ => after.ge⟩
  have inside : b ∈ d.net ∩ (a.bits ∩ t.clears) :=
    Finset.mem_inter.mpr ⟨pending tls mqtt,Finset.mem_inter.mpr ⟨own,cleared⟩⟩
  have positive := Finset.card_pos.mpr ⟨b,inside⟩
  rw [after,spent]
  omega

theorem Handover.carried (before : t.holds a = true) (after : gained a t next = 1) :
    Handover a d t o next := by
  refine ⟨fun _ _ => ?_,fun _ _ => after.ge⟩
  rw [after,spent,Task.weight,before]
  exact Nat.le_add_right _ _

theorem Handover.lost (loses : Loses t o) (nothing : gained a t next = 0) :
    Handover a d t o next := by
  refine ⟨fun _ _ => ?_,fun lossless => absurd loses lossless⟩
  rw [nothing]
  exact Nat.zero_le _

attribute [local simp] gained spent Task.weight Task.holds Task.sets Task.clears Task.starting
  Task.consumed Task.unreported Task.dropping Activity.bits

theorem Handover.main {point : MainPoint} (ran : appMain d o point = some (d',next)) :
    Handover a d (.main point) o next := by
  cases point <;> cases o <;> simp only [appMain,proceed,call,drawn,reduceCtorEq] at ran
  all_goals (try split at ran) <;> cases ran
  case createNetwork.fail => exact .lost a (by simp [Loses]) (by simp)
  case createSending.ok | createSending.fail => exact .same a (by simp [SendingPoint.raising])
  case getMac.fail | format.fail | storeNodeId.fail | storeThingName.fail =>
    exact .lost a (by simp [Loses]) (by simp)
  all_goals exact .carried a (by simp) (by simp)

theorem Handover.handler {point : HandlerPoint}
    (ran : prvEventHandlers d o point = some (d',next)) : Handover a d (.handler point) o next := by
  cases point <;> cases o <;> simp only [prvEventHandlers,proceed,reduceCtorEq] at ran
  all_goals
    (try split at ran) <;> cases ran <;> refine .same a ?_ <;>
      cases a <;> simp [Activity.failBit,Activity.successBit]

theorem pending_restart (net : Finset NetworkBit) :
    0 < (net ∩ (a.bits ∩ restartMask)).card ↔ Requested net a.failBit := by
  rw [Finset.card_pos]
  constructor
  · rintro ⟨b,member⟩
    simp only [Finset.mem_inter,Activity.bits,Finset.mem_insert,Finset.mem_singleton] at member
    obtain ⟨inside,rfl | rfl | rfl,masked⟩ := member
    · exact .inl inside
    · exact .inr inside
    · cases a <;> simp [restartMask,Activity.successBit] at masked
  · rintro (inside | inside)
    · exact ⟨.init,by simp [Activity.bits,restartMask,inside]⟩
    · exact ⟨a.failBit,by cases a <;> simp_all [Activity.bits,restartMask,Activity.failBit]⟩

theorem Handover.network {point : NetworkPoint}
    (ran : prvNetworkHandlingTask d o point = some (d',next)) :
    Handover a d (.network point) o next := by
  cases point with
  | start =>
    obtain ⟨_,ran⟩ := proceed_some.mp ran
    cases ran
    exact .carried a (by simp) (by cases a <;> rfl)
  | waiting =>
    obtain ⟨_,_,_,rfl⟩ := network_waiting_some ran
    have pending := pending_restart a d.net
    by_cases requested : Requested d.net a.failBit
    · have positive := pending.mpr requested
      constructor
      · intro _ _
        simpa [requested] using positive
      · intro _ _
        simp [requested]
    · have nothing : (d.net ∩ (a.bits ∩ restartMask)).card = 0 :=
        Nat.eq_zero_of_not_pos fun positive => requested (pending.mp positive)
      refine .same a ?_
      rw [Activity.bits] at nothing
      simp only [spent,Task.clears,if_pos,Activity.bits,nothing]
      simp [requested]
  | wifi bits =>
    simp only [prvNetworkHandlingTask] at ran
    cases o <;> split at ran <;> simp only [proceed,call,reduceCtorEq] at ran <;> cases ran <;>
      exact .same a (by simp [Activity.order])
  | create b bits =>
    simp only [prvNetworkHandlingTask] at ran
    split at ran
    · rename_i requested
      cases o <;> simp only [call,reduceCtorEq] at ran <;> cases ran
      · refine .same a ?_
        cases b <;> cases a <;>
          simp [Activity.afterwards,Activity.firstStep,Activity.order,PrivKeyPoint.reported,
            CertPoint.reported,MqttPoint.reported,requested]
      · refine ⟨fun _ _ => ?_,fun lossless => absurd ?_ lossless⟩
        · cases b <;> cases a <;> simp [Activity.afterwards,Activity.order]
        · simp [Loses,requested]
    · rename_i unrequested
      obtain ⟨_,ran⟩ := proceed_some.mp ran
      cases ran
      refine .same a ?_
      cases b <;> cases a <;> simp [Activity.afterwards,Activity.order,unrequested]

theorem Handover.privKey {point : PrivKeyPoint}
    (ran : prvGetPrivKeyTask d o point = some (d',next)) : Handover a d (.privKey point) o next := by
  cases point <;> cases o <;> simp only [prvGetPrivKeyTask,proceed,call,reduceCtorEq] at ran
  case report.go acquired =>
    cases ran
    cases acquired <;> cases a <;> exact .steady _ rfl rfl
  all_goals
    (try split at ran) <;> cases ran <;> exact .same a (by simp [PrivKeyPoint.reported])

theorem Handover.cert {point : CertPoint}
    (ran : prvGetCertTask d o point = some (d',next)) : Handover a d (.cert point) o next := by
  cases point with
  | waiting =>
    obtain ⟨_,_,_,rfl⟩ := awaitBits_some.mp ran
    exact .same a (by simp [CertPoint.reported])
  | enter =>
    simp only [prvGetCertTask] at ran
    cases o <;> split at ran <;> (try split at ran) <;> simp only [proceed,reduceCtorEq] at ran <;>
      cases ran <;> exact .same a (by simp [CertPoint.reported])
  | report acquired =>
    obtain ⟨_,ran⟩ := proceed_some.mp ran
    cases ran
    cases acquired <;> cases a <;> exact .steady _ rfl rfl
  | _ =>
    cases o <;> simp only [prvGetCertTask,proceed,call,reduceCtorEq] at ran
    all_goals
      (try split at ran) <;> cases ran <;> exact .same a (by simp [CertPoint.reported])

theorem Handover.tls {point : TlsPoint}
    (ran : prvTlsConnectionTask d o point = some (d',next)) : Handover a d (.tls point) o next := by
  cases point with
  | waiting =>
    obtain ⟨_,_,_,rfl⟩ := awaitBits_some.mp ran
    exact .same a (by simp)
  | report connected =>
    obtain ⟨_,ran⟩ := proceed_some.mp ran
    cases ran
    cases connected <;> cases a <;> exact .steady _ rfl rfl
  | _ =>
    cases o <;> simp only [prvTlsConnectionTask,proceed,call,reduceCtorEq] at ran
    all_goals (try split at ran) <;> cases ran <;> exact .same a (by simp)

theorem Handover.mqtt {point : MqttPoint}
    (ran : prvMqttConnectionTask d o point = some (d',next)) : Handover a d (.mqtt point) o next := by
  cases point with
  | waiting =>
    obtain ⟨_,_,_,rfl⟩ := awaitBits_some.mp ran
    exact .same a (by simp [MqttPoint.reported])
  | connect =>
    cases o <;> simp only [prvMqttConnectionTask,reduceCtorEq] at ran
    cases ran
    exact .same a (by simp [MqttPoint.reported])
  | dropped =>
    obtain ⟨_,ran⟩ := proceed_some.mp ran
    cases ran
    cases a <;> exact .steady _ rfl rfl
  | report status =>
    obtain ⟨_,ran⟩ := proceed_some.mp ran
    cases status
    case noMemory =>
      cases ran
      exact .lost a (by simp [Loses]) (by cases a <;> rfl)
    case sendFailed | recvFailed =>
      cases ran
      cases a with
      | privKey | cert => exact .steady _ rfl rfl
      | tls => exact .moved _ (b := .tlsConnected) (by decide) (by decide) (fun tls _ => tls rfl) rfl
      | mqtt => exact .carried _ rfl rfl
    all_goals
      cases ran
      cases a <;> exact .steady _ rfl rfl

theorem Handover.sending {point : SendingPoint}
    (ran : prvQuickConnectSendingTask d o point = some (d',next)) :
    Handover a d (.sending point) o next := by
  cases point with
  | waiting =>
    obtain ⟨_,_,_,rfl⟩ := awaitBits_some.mp ran
    exact .same a (by simp [SendingPoint.raising])
  | publish =>
    cases o <;> simp only [prvQuickConnectSendingTask,reduceCtorEq] at ran
    cases ran
    exact .same a (by simp [SendingPoint.raising])
  | delay =>
    obtain ⟨_,ran⟩ := proceed_some.mp ran
    cases ran
    exact .same a (by simp [SendingPoint.raising])
  | dropped =>
    obtain ⟨_,ran⟩ := proceed_some.mp ran
    cases ran
    cases a <;> exact .steady _ rfl rfl
  | report status =>
    obtain ⟨_,ran⟩ := proceed_some.mp ran
    split at ran
    · rename_i failed
      cases ran
      have clears : (Task.sending (.report status)).clears = {.tlsConnected,.mqttConnected} :=
        if_neg failed
      cases a with
      | privKey | cert => exact .steady _ (by rw [clears]; rfl) rfl
      | tls =>
        refine .moved _ (b := .tlsConnected) (by decide) (by rw [clears]; decide) (fun tls _ => tls ?_) rfl
        simpa [Task.dropsTls] using failed
      | mqtt =>
        refine .moved _ (b := .mqttConnected) (by decide) (by rw [clears]; decide) (fun _ mqtt => mqtt ?_) rfl
        simpa [Task.dropsMqtt] using failed
    · rename_i succeeded
      cases ran
      have success : status = .success := not_not.mp succeeded
      subst success
      cases a <;> exact .steady _ rfl rfl

theorem Handover.utility {point : UtilityPoint}
    (ran : prvUtilityOutputTask d o point = some (d',next)) : Handover a d (.utility point) o next := by
  cases point <;> simp only [prvUtilityOutputTask,consumeBits_some,proceed_some] at ran
  case waitWifi | waitGen | waitPrivKey | waitGet | waitCert =>
    obtain ⟨_,_,_,rfl⟩ := ran
    exact .same a (by simp)
  all_goals
    obtain ⟨_,ran⟩ := ran
    cases ran
    refine .same a ?_
    (try split) <;> simp

theorem handover (ran : taskStep d o t = some (d',next)) : Handover a d t o next := by
  cases t with
  | main point => exact .main a ran
  | handler point => exact .handler a ran
  | network point => exact .network a ran
  | privKey point => exact .privKey a ran
  | cert point => exact .cert a ran
  | tls point => exact .tls a ran
  | mqtt point => exact .mqtt a ran
  | sending point => exact .sending a ran
  | utility point => exact .utility a ran

theorem tokens_boot (mac : Vector UInt8 6) (nvs : DurableMap RuntimeKey Str) :
    tokens a (boot mac nvs) = 1 := by
  cases a <;> rfl

theorem tokens_step (ran : taskStep d o t = some (d',next)) (before after : List Task)
    (tls : t.dropsTls = true → .tlsConnected ∈ d.net)
    (mqtt : t.dropsMqtt = true → .mqttConnected ∈ d.net) :
    tokens a ⟨d',before ++ next ++ after⟩ ≤ tokens a ⟨d,before ++ t :: after⟩ := by
  have paid := (handover a ran).atMost tls mqtt
  have cleared := held_clearBits_add a.bits d.net t.clears
  have gain := held_setBits_le a.bits (clearBits d.net t.clears) t.sets
  unfold tokens
  rw [TaskPool.total_replaced,TaskPool.total_focused,(taskStep_effect ran).net]
  unfold gained spent at paid
  omega

theorem tokens_kept (ran : taskStep d o t = some (d',next)) (before after : List Task)
    (lossless : ¬ Loses t o) (some : 1 ≤ tokens a ⟨d,before ++ t :: after⟩) :
    1 ≤ tokens a ⟨d',before ++ next ++ after⟩ := by
  have paid := (handover a ran).atLeast lossless
  have cleared := held_clearBits_add a.bits d.net t.clears
  have kept := held_le_setBits a.bits (clearBits d.net t.clears) t.sets
  have gain := card_le_held_setBits a.bits (clearBits d.net t.clears) t.sets
  unfold tokens at some ⊢
  rw [TaskPool.total_focused] at some
  rw [TaskPool.total_replaced,(taskStep_effect ran).net]
  unfold gained spent at paid
  omega

theorem sets_success {a : Activity} (sets : a.successBit ∈ t.sets) : t = a.successReport := by
  cases t with
  | handler point => cases point <;> cases a <;> simp [Activity.successBit] at sets
  | network point => cases point <;> cases a <;> simp [Activity.successBit] at sets
  | privKey point =>
    cases point with
    | report acquired =>
      cases acquired <;> cases a <;> first | rfl | simp [Activity.successBit] at sets
    | _ => simp at sets
  | cert point =>
    cases point with
    | report acquired =>
      cases acquired <;> cases a <;> first | rfl | simp [Activity.successBit] at sets
    | _ => simp at sets
  | tls point =>
    cases point with
    | report connected =>
      cases connected <;> cases a <;> first | rfl | simp [Activity.successBit] at sets
    | _ => simp at sets
  | mqtt point =>
    cases point with
    | report status =>
      cases status <;> cases a <;>
        first | rfl | simp [Activity.successBit,MQTTStatus.reportBits] at sets
    | dropped => cases a <;> simp [Activity.successBit] at sets
    | _ => simp at sets
  | sending point => cases point <;> cases a <;> simp [Activity.successBit] at sets
  | _ => simp at sets

theorem old_success {a : Activity} (ran : taskStep d o t = some (d',next)) (other : t ≠ a.successReport)
    (pending : a.successBit ∈ d'.net) : a.successBit ∈ d.net := by
  rw [(taskStep_effect ran).net,mem_setBits,mem_clearBits] at pending
  rcases pending with ⟨pending,_⟩ | sets
  · exact pending
  · exact absurd (sets_success sets) other

end
end QuickConnect.Firmware
