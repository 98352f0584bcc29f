import QuickConnect.Firmware.Tasks

/-! What one step of a task can do to what the tasks share. Invariants are derived
from these facts, not from the tasks. -/
namespace QuickConnect.Firmware
open EventGroup

def everyBit : Finset NetworkBit :=
  {.init,.wifiConnected,.wifiDisconnected,.ipGot,.privKeyFail,.privKeySuccess,.certFail,
    .certSuccess,.tlsConnected,.tlsDisconnected,.mqttConnected,.mqttDisconnected}

def everyUtilBit : Finset UtilBit :=
  {.wifiConnected,.wifiDisconnected,.privKeyAndCsrGen,.privKeyAndCsrFail,.privKeyAndCsrSuccess,
    .selfClaimCertGet,.selfClaimCertFail,.selfClaimCertSuccess}

def MQTTStatus.reportBits : MQTTStatus → Finset NetworkBit
  | .success => {.mqttConnected}
  | .noMemory | .sendFailed | .recvFailed => ∅
  | _ => {.mqttDisconnected}

def Task.clears : Task → Finset NetworkBit
  | .main point => if point = .createGroups then everyBit else ∅
  | .handler point => if point = .clearConnected then {.wifiConnected,.ipGot} else ∅
  | .network point => if point = .waiting then restartMask else ∅
  | .mqtt (.report status) =>
    if status = .sendFailed ∨ status = .recvFailed then {.tlsConnected} else ∅
  | .sending (.report status) => if status = .success then ∅ else {.tlsConnected,.mqttConnected}
  | _ => ∅

def Task.sets : Task → Finset NetworkBit
  | .handler .setConnected => {.wifiConnected}
  | .handler .setDisconnected => {.wifiDisconnected}
  | .handler .setGotIp => {.ipGot}
  | .network .start => {.init}
  | .privKey (.report acquired) => {if acquired then .privKeySuccess else .privKeyFail}
  | .cert (.report acquired) => {if acquired then .certSuccess else .certFail}
  | .tls (.report connected) => {if connected then .tlsConnected else .tlsDisconnected}
  | .mqtt (.report status) => status.reportBits
  | .mqtt .dropped => {.tlsDisconnected,.mqttDisconnected}
  | .sending .dropped => {.tlsDisconnected,.mqttDisconnected}
  | _ => ∅

def Task.notifies : Task → List UtilBit
  | .handler .notifyConnected => [.wifiConnected]
  | .handler .notifyDisconnected => [.wifiDisconnected]
  | .privKey .notify => [.privKeyAndCsrGen]
  | .privKey (.notifyReport acquired) =>
    [if acquired then .privKeyAndCsrSuccess else .privKeyAndCsrFail]
  | .cert .notify => [.selfClaimCertGet]
  | .cert (.notifyReport acquired) =>
    [if acquired then .selfClaimCertSuccess else .selfClaimCertFail]
  | _ => []

def UtilityPoint.consumes : UtilityPoint → Finset UtilBit
  | .waitWifi => {.wifiConnected,.wifiDisconnected}
  | .waitGen => {.privKeyAndCsrGen}
  | .waitPrivKey => {.privKeyAndCsrSuccess,.privKeyAndCsrFail}
  | .waitGet => {.selfClaimCertGet}
  | .waitCert => {.selfClaimCertSuccess,.selfClaimCertFail}
  | _ => ∅

def Task.consumes : Task → Finset UtilBit
  | .main point => if point = .createGroups then everyUtilBit else ∅
  | .utility point => point.consumes
  | _ => ∅

/-- Key, certificate and claim data: on the heap, in RAM and on flash. -/
structure Secrets where
  pcDevKey : Option Str
  pcDevCert : Option Str
  pxSelfClaimData : Option Nat
  claimData : List ClaimObject
  selfClaimPrivateKey : Option Str
  selfClaimCertificate : Option Str
  storedKey : Option Str
  storedCert : Option Str

def Device.secrets (d : Device) : Secrets :=
  ⟨d.pcDevKey,d.pcDevCert,d.pxSelfClaimData,d.claimData,d.selfClaimPrivateKey,
    d.selfClaimCertificate,d.nvs .key,d.nvs .certificate⟩

theorem secrets_eq {d d' : Device} (same : d'.secrets = d.secrets) :
    d'.pcDevKey = d.pcDevKey ∧ d'.pcDevCert = d.pcDevCert ∧
      d'.pxSelfClaimData = d.pxSelfClaimData ∧ d'.claimData = d.claimData ∧
      d'.selfClaimPrivateKey = d.selfClaimPrivateKey ∧
      d'.selfClaimCertificate = d.selfClaimCertificate ∧
      d'.nvs .key = d.nvs .key ∧ d'.nvs .certificate = d.nvs .certificate := by
  simpa only [Device.secrets,Secrets.mk.injEq] using same

def Device.connection (d : Device) : Option Nat × List TlsHandle := (d.pxTls,d.tlsHandles)

def Device.names (d : Device) : Option Str × Option Str × Option Str × Option Str :=
  (d.pcNodeId,d.pcThingName,d.nvs .nodeid,d.nvs .thingname)

def Task.handlesSecrets : Task → Bool
  | .privKey _ | .cert _ => true
  | _ => false

def Task.handlesTls : Task → Bool
  | .tls _ => true
  | _ => false

def Task.handlesNames : Task → Bool
  | .main _ => true
  | _ => false

structure Effect (t : Task) (d d' : Device) : Prop where
  net : d'.net = setBits (clearBits d.net t.clears) t.sets
  util : d'.util = setBits (clearBits d.util t.consumes) t.notifies.toFinset
  signals : d'.signals = t.notifies ++ d.signals
  mac : d'.mac = d.mac
  secrets : t.handlesSecrets = false → d'.secrets = d.secrets
  connection : t.handlesTls = false → d'.connection = d.connection
  names : t.handlesNames = false → d'.names = d.names

theorem exec_some {d d' : Device} {t : Task} {o : Outcome} {next : List Task}
    (ran : exec d t o = some (d',next)) : d.halted = false ∧ taskStep d o t = some (d',next) := by
  unfold exec at ran
  split at ran
  · cases ran
  · rename_i running
    exact ⟨by simpa using running,ran⟩

section
variable {d d' : Device} {t : Task} {o : Outcome} {next : List Task}

theorem network_waiting_some (ran : prvNetworkHandlingTask d o .waiting = some (d',next)) :
    o = .go ∧ (d.net ∩ restartMask).Nonempty ∧ d' = { d with net := clearBits d.net restartMask } ∧
      next = [.network (.wifi d.net)] := by
  simp only [prvNetworkHandlingTask,proceed_some] at ran
  obtain ⟨go,found⟩ := ran
  obtain ⟨⟨bits,net⟩,satisfied,same⟩ := Option.map_eq_some_iff.mp found
  obtain ⟨ready,rfl,left⟩ := waitBits_some satisfied
  cases same
  exact ⟨go,by simpa [Ready] using ready,by simp [left],rfl⟩

theorem setBits_none {β : Type} [DecidableEq β] (group : Finset β) :
    group = setBits (clearBits group ∅) ∅ := by
  simp [setBits,clearBits]

/-- A step that leaves both event groups alone. -/
theorem Effect.quiet (clears : t.clears = ∅) (sets : t.sets = ∅) (notifies : t.notifies = [])
    (consumes : t.consumes = ∅) (net : d'.net = d.net) (util : d'.util = d.util)
    (signals : d'.signals = d.signals) (mac : d'.mac = d.mac)
    (secrets : t.handlesSecrets = false → d'.secrets = d.secrets)
    (connection : t.handlesTls = false → d'.connection = d.connection)
    (names : t.handlesNames = false → d'.names = d.names) : Effect t d d' where
  net := by
    rw [clears,sets,net]
    exact setBits_none d.net
  util := by
    rw [consumes,notifies,util]
    exact setBits_none d.util
  signals := by rw [notifies,signals,List.nil_append]
  mac := mac
  secrets := secrets
  connection := connection
  names := names

theorem Effect.same (clears : t.clears = ∅) (sets : t.sets = ∅) (notifies : t.notifies = [])
    (consumes : t.consumes = ∅) : Effect t d d :=
  .quiet clears sets notifies consumes rfl rfl rfl rfl (fun _ => rfl) (fun _ => rfl) (fun _ => rfl)

/-- A step whose only access is to the network event group. -/
theorem Effect.onNet {net : Finset NetworkBit} (notifies : t.notifies = []) (consumes : t.consumes = ∅)
    (same : net = setBits (clearBits d.net t.clears) t.sets) : Effect t d { d with net := net } where
  net := same
  util := by
    rw [consumes,notifies]
    exact setBits_none d.util
  signals := by rw [notifies,List.nil_append]
  mac := rfl
  secrets := fun _ => rfl
  connection := fun _ => rfl
  names := fun _ => rfl

theorem Effect.notifying {b : UtilBit} (clears : t.clears = ∅) (sets : t.sets = ∅)
    (notifies : t.notifies = [b]) (consumes : t.consumes = ∅) : Effect t d (d.notify b) where
  net := by
    rw [clears,sets]
    exact setBits_none d.net
  util := by simp [notifies,consumes,Device.notify,clearBits]
  signals := by rw [notifies]; rfl
  mac := rfl
  secrets := fun _ => rfl
  connection := fun _ => rfl
  names := fun _ => rfl

theorem Effect.main {point : MainPoint} (ran : appMain d o point = some (d',next)) :
    Effect (.main point) d d' := by
  cases point <;> cases o <;> simp only [appMain,proceed,call,drawn,reduceCtorEq] at ran
  case createGroups.go =>
    cases ran
    refine ⟨?_,?_,rfl,rfl,fun _ => rfl,fun _ => rfl,fun _ => rfl⟩
    · ext b
      cases b <;> simp [Task.clears,Task.sets,everyBit]
    · ext b
      cases b <;> simp [Task.consumes,Task.notifies,everyUtilBit]
  case storeNodeId.ok | storeThingName.ok =>
    cases ran
    refine .quiet rfl rfl rfl rfl rfl rfl rfl rfl (fun _ => ?_) (fun _ => rfl)
      fun other => by cases other
    simp [Device.secrets,DurableMap.write_other]
  all_goals
    (try split at ran) <;> cases ran <;>
      exact .quiet rfl rfl rfl rfl rfl rfl rfl rfl (fun _ => rfl) (fun _ => rfl)
        fun other => by cases other

theorem Effect.handler {point : HandlerPoint}
    (ran : prvEventHandlers d o point = some (d',next)) : Effect (.handler point) d d' := by
  cases point with
  | idle =>
    cases o <;> simp only [prvEventHandlers,reduceCtorEq] at ran
    split at ran <;> cases ran <;> exact .same rfl rfl rfl rfl
  | notifyConnected | notifyDisconnected =>
    obtain ⟨_,ran⟩ := proceed_some.mp ran
    cases ran
    exact .notifying rfl rfl rfl rfl
  | setConnected | setDisconnected | setGotIp | clearConnected =>
    obtain ⟨_,ran⟩ := proceed_some.mp ran
    cases ran
    exact .onNet rfl rfl (by simp [Task.clears,Task.sets,setBits,clearBits])

theorem Effect.network {point : NetworkPoint}
    (ran : prvNetworkHandlingTask d o point = some (d',next)) : Effect (.network point) d d' := by
  cases point with
  | waiting =>
    obtain ⟨_,_,rfl,_⟩ := network_waiting_some ran
    exact .onNet rfl rfl (by simp [Task.clears,Task.sets,setBits])
  | start =>
    obtain ⟨_,ran⟩ := proceed_some.mp ran
    cases ran
    exact .onNet rfl rfl (by simp [Task.clears,Task.sets,setBits,clearBits])
  | _ =>
    simp only [prvNetworkHandlingTask] at ran
    cases o <;> split at ran <;> simp only [proceed,call,reduceCtorEq] at ran <;> cases ran <;>
      exact .quiet rfl rfl rfl rfl rfl rfl rfl rfl (fun _ => rfl) (fun _ => rfl) (fun _ => rfl)

theorem Effect.privKey {point : PrivKeyPoint}
    (ran : prvGetPrivKeyTask d o point = some (d',next)) : Effect (.privKey point) d d' := by
  cases point <;> cases o <;> simp only [prvGetPrivKeyTask,proceed,call,reduceCtorEq] at ran
  case notify.go | notifyReport.go =>
    cases ran
    exact .notifying rfl rfl rfl rfl
  case report.go =>
    cases ran
    exact .onNet rfl rfl (by simp [Task.clears,Task.sets,clearBits])
  case store.ok =>
    cases ran
    refine .quiet rfl rfl rfl rfl rfl rfl rfl rfl
      (fun other => by cases other) (fun _ => rfl) (fun _ => ?_)
    simp [Device.names,DurableMap.write_other]
  all_goals
    (try split at ran) <;> cases ran <;>
      exact .quiet rfl rfl rfl rfl rfl rfl rfl rfl
        (fun other => by cases other) (fun _ => rfl) (fun _ => rfl)

theorem Effect.cert {point : CertPoint}
    (ran : prvGetCertTask d o point = some (d',next)) : Effect (.cert point) d d' := by
  cases point with
  | waiting =>
    obtain ⟨_,_,rfl,_⟩ := awaitBits_some.mp ran
    exact .same rfl rfl rfl rfl
  | notify | notifyReport =>
    obtain ⟨_,ran⟩ := proceed_some.mp ran
    cases ran
    exact .notifying rfl rfl rfl rfl
  | report =>
    obtain ⟨_,ran⟩ := proceed_some.mp ran
    cases ran
    exact .onNet rfl rfl (by simp [Task.clears,Task.sets,clearBits])
  | enter =>
    simp only [prvGetCertTask] at ran
    cases o <;> split at ran <;> (try split at ran) <;>
      simp only [proceed,reduceCtorEq] at ran <;> cases ran <;>
      exact .quiet rfl rfl rfl rfl rfl rfl rfl rfl
        (fun other => by cases other) (fun _ => rfl) (fun _ => rfl)
  | store =>
    rcases call_some.mp ran with ⟨_,ran⟩ | ⟨_,ran⟩ <;> cases ran
    · refine .quiet rfl rfl rfl rfl rfl rfl rfl rfl
        (fun other => by cases other) (fun _ => rfl) (fun _ => ?_)
      simp [Device.names,DurableMap.write_other]
    · exact .same rfl rfl rfl rfl
  | _ =>
    cases o <;> simp only [prvGetCertTask,proceed,call,reduceCtorEq] at ran
    all_goals
      (try split at ran) <;> cases ran <;>
        exact .quiet rfl rfl rfl rfl rfl rfl rfl rfl
          (fun other => by cases other) (fun _ => rfl) (fun _ => rfl)

theorem Effect.tls {point : TlsPoint}
    (ran : prvTlsConnectionTask d o point = some (d',next)) : Effect (.tls point) d d' := by
  cases point with
  | waiting =>
    obtain ⟨_,_,rfl,_⟩ := awaitBits_some.mp ran
    exact .same rfl rfl rfl rfl
  | report =>
    obtain ⟨_,ran⟩ := proceed_some.mp ran
    cases ran
    exact .onNet rfl rfl (by simp [Task.clears,Task.sets,clearBits])
  | _ =>
    cases o <;> simp only [prvTlsConnectionTask,proceed,call,reduceCtorEq] at ran
    all_goals
      (try split at ran) <;> cases ran <;>
        exact .quiet rfl rfl rfl rfl rfl rfl rfl rfl (fun _ => rfl)
          (fun other => by cases other) (fun _ => rfl)

theorem Effect.mqtt {point : MqttPoint}
    (ran : prvMqttConnectionTask d o point = some (d',next)) : Effect (.mqtt point) d d' := by
  cases point with
  | waiting =>
    obtain ⟨_,_,rfl,_⟩ := awaitBits_some.mp ran
    exact .same rfl rfl rfl rfl
  | connect =>
    cases o <;> simp only [prvMqttConnectionTask,reduceCtorEq] at ran
    cases ran
    exact .same rfl rfl rfl rfl
  | report status =>
    obtain ⟨_,ran⟩ := proceed_some.mp ran
    cases status <;> cases ran <;>
      exact .onNet rfl rfl (by simp [Task.clears,Task.sets,MQTTStatus.reportBits,setBits,clearBits])
  | dropped =>
    obtain ⟨_,ran⟩ := proceed_some.mp ran
    cases ran
    exact .onNet rfl rfl (by simp [Task.clears,Task.sets,clearBits])

theorem Effect.sending {point : SendingPoint}
    (ran : prvQuickConnectSendingTask d o point = some (d',next)) : Effect (.sending point) d d' := by
  cases point with
  | waiting =>
    obtain ⟨_,_,rfl,_⟩ := awaitBits_some.mp ran
    exact .same rfl rfl rfl rfl
  | publish =>
    cases o <;> simp only [prvQuickConnectSendingTask,reduceCtorEq] at ran
    cases ran
    exact .same rfl rfl rfl rfl
  | delay =>
    obtain ⟨_,ran⟩ := proceed_some.mp ran
    cases ran
    exact .same rfl rfl rfl rfl
  | dropped =>
    obtain ⟨_,ran⟩ := proceed_some.mp ran
    cases ran
    exact .onNet rfl rfl (by simp [Task.clears,Task.sets,clearBits])
  | report status =>
    obtain ⟨_,ran⟩ := proceed_some.mp ran
    split at ran <;> rename_i failed <;> cases ran
    · exact .onNet rfl rfl (by simp [Task.clears,Task.sets,setBits,failed])
    · exact .onNet rfl rfl (by simp [Task.clears,Task.sets,setBits,clearBits,not_not.mp failed])

theorem Effect.utility {point : UtilityPoint}
    (ran : prvUtilityOutputTask d o point = some (d',next)) : Effect (.utility point) d d' := by
  cases point <;> simp only [prvUtilityOutputTask,consumeBits_some,proceed_some] at ran
  case waitWifi | waitGen | waitPrivKey | waitGet | waitCert =>
    obtain ⟨_,_,rfl,_⟩ := ran
    refine ⟨setBits_none d.net,?_,rfl,rfl,fun _ => rfl,fun _ => rfl,fun _ => rfl⟩
    simp [Task.consumes,UtilityPoint.consumes,Task.notifies,setBits]
  all_goals
    obtain ⟨_,ran⟩ := ran
    cases ran
    exact .quiet rfl rfl rfl rfl rfl rfl rfl rfl (fun _ => rfl) (fun _ => rfl) (fun _ => rfl)

theorem taskStep_effect (ran : taskStep d o t = some (d',next)) : Effect t d d' := by
  cases t with
  | main point => exact .main ran
  | handler point => exact .handler ran
  | network point => exact .network ran
  | privKey point => exact .privKey ran
  | cert point => exact .cert ran
  | tls point => exact .tls ran
  | mqtt point => exact .mqtt ran
  | sending point => exact .sending ran
  | utility point => exact .utility ran

end
end QuickConnect.Firmware
