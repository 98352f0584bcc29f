import QuickConnect.Firmware.Device

/-! The tasks of main.c, one definition each under the source's name, as atomic steps.
A task stands at a point between two accesses to what the tasks share; what a
service call returns is the outcome given to the step. Values a task holds in
local variables are arguments of its points. -/
namespace QuickConnect.Firmware
open EventGroup

/-- The four things the network task keeps going, in the order in which it starts them. -/
inductive Activity
  | privKey | cert | tls | mqtt
  deriving DecidableEq, Repr

inductive MainPoint
  | readThingName | readNodeId | test | getMac | format | storeNodeId | storeThingName
  | createGroups | createUtility | createNetwork | createSending
  deriving DecidableEq, Repr

/-- prvWifiEventHandler and prvIpEventHandler, both run by the default event loop. -/
inductive HandlerPoint
  | idle | setConnected | notifyConnected
  | clearConnected | setDisconnected | notifyDisconnected | setGotIp
  deriving DecidableEq, Repr

-- `bits` is the local uxNetworkEventBits.
inductive NetworkPoint
  | start | waiting
  | wifi (bits : Finset NetworkBit)
  | create (activity : Activity) (bits : Finset NetworkBit)
  deriving DecidableEq

inductive PrivKeyPoint
  | notify | readKey | assignKey (value : Option Str) | readCert | assignCert (value : Option Str)
  | test | generate | assignData (address : Option Nat) | claimed | store
  | report (acquired : Bool) | notifyReport (acquired : Bool)
  deriving DecidableEq, Repr

/-- From `enter` to `release` the task is inside esp_rmaker_self_claim_perform. -/
inductive CertPoint
  | notify | read | assign (value : Option Str) | test | waiting
  | enter | performInit (address : Nat) | performVerify (address : Nat)
  | release (address : Nat) (verified : Bool)
  | take | store | report (acquired : Bool) | notifyReport (acquired : Bool)
  deriving DecidableEq, Repr

/-- From `configure` to `connect` the task is inside xTlsConnect. -/
inductive TlsPoint
  | waiting | test | disconnect | configure | allocate
  | assign (handle : Option Nat) | connect (handle : Option Nat) | report (connected : Bool)
  deriving DecidableEq, Repr

inductive MqttPoint
  | waiting | connect | report (status : MQTTStatus) | dropped
  deriving DecidableEq, Repr

inductive SendingPoint
  | delay | waiting | publish | report (status : MQTTStatus) | dropped
  deriving DecidableEq, Repr

inductive UtilityPoint
  | waitWifi | printWifi (bits : Finset UtilBit)
  | waitGen | printGen | waitPrivKey | printPrivKey (bits : Finset UtilBit)
  | waitGet | printGet | waitCert | printCert (bits : Finset UtilBit)
  | sendCert | sendThingName
  deriving DecidableEq

inductive Task
  | main (point : MainPoint)
  | handler (point : HandlerPoint)
  | network (point : NetworkPoint)
  | privKey (point : PrivKeyPoint)
  | cert (point : CertPoint)
  | tls (point : TlsPoint)
  | mqtt (point : MqttPoint)
  | sending (point : SendingPoint)
  | utility (point : UtilityPoint)
  deriving DecidableEq

inductive Outcome
  | go | ok | fail
  | random (word : UInt32)
  | pem (text : Str)
  | noCsr (text : Str)
  | noMemory
  | wild
  | status (status : MQTTStatus)
  | event (event : WifiEvent)
  deriving DecidableEq, Repr

def Activity.failBit : Activity → NetworkBit
  | .privKey => .privKeyFail
  | .cert => .certFail
  | .tls => .tlsDisconnected
  | .mqtt => .mqttDisconnected

def Activity.successBit : Activity → NetworkBit
  | .privKey => .privKeySuccess
  | .cert => .certSuccess
  | .tls => .tlsConnected
  | .mqtt => .mqttConnected

def Activity.firstStep : Activity → Task
  | .privKey => .privKey .notify
  | .cert => .cert .notify
  | .tls => .tls .waiting
  | .mqtt => .mqtt .waiting

def Activity.afterwards (bits : Finset NetworkBit) : Activity → NetworkPoint
  | .privKey => .create .cert bits
  | .cert => .create .tls bits
  | .tls => .create .mqtt bits
  | .mqtt => .waiting

def restartMask : Finset NetworkBit :=
  {.init,.wifiDisconnected,.privKeyFail,.certFail,.tlsDisconnected,.mqttDisconnected}

/-- The test (uxNetworkEventBits & (INIT_BIT | bit)) != 0. -/
def Requested (bits : Finset NetworkBit) (bit : NetworkBit) : Prop := .init ∈ bits ∨ bit ∈ bits

instance (bits : Finset NetworkBit) (bit : NetworkBit) : Decidable (Requested bits bit) := by
  unfold Requested
  infer_instance

def nodeIdText (mac : Vector UInt8 6) : Str := mac.toList.flatMap Text.hex2

def thingNameText (mac : Vector UInt8 6) (random : UInt32) : Str :=
  nodeIdText mac ++ Text.decimal random

abbrev Result := Option (Device × List Task)

def proceed (o : Outcome) (result : Result) : Result :=
  match o with
  | .go => result
  | _ => none

def call (o : Outcome) (succeeded failed : Result) : Result :=
  match o with
  | .ok => succeeded
  | .fail => failed
  | _ => none

def drawn (o : Outcome) (succeeded : UInt32 → Result) (failed : Result) : Result :=
  match o with
  | .random word => succeeded word
  | .fail => failed
  | .go => none
  | .ok => none
  | .pem _ => none
  | .noCsr _ => none
  | .noMemory => none
  | .wild => none
  | .status _ => none
  | .event _ => none

/-- xEventGroupWaitBits on the network group, without clearing. -/
def awaitBits (d : Device) (mask : Finset NetworkBit) (o : Outcome) (next : Task) : Result :=
  proceed o ((waitBits d.net mask false true).map fun (_,net) => ({ d with net := net },[next]))

/-- xEventGroupWaitBits on the utility group, consuming the bits. -/
def consumeBits (d : Device) (mask : Finset UtilBit) (waitForAll : Bool) (o : Outcome)
    (next : Finset UtilBit → UtilityPoint) : Result :=
  proceed o ((waitBits d.util mask true waitForAll).map fun (bits,util) =>
    ({ d with util := util },[.utility (next bits)]))

@[simp] theorem proceed_some {o : Outcome} {result : Result} {r : Device × List Task} :
    proceed o result = some r ↔ o = .go ∧ result = some r := by
  cases o <;> simp [proceed]

@[simp] theorem call_some {o : Outcome} {succeeded failed : Result} {r : Device × List Task} :
    call o succeeded failed = some r ↔ o = .ok ∧ succeeded = some r ∨ o = .fail ∧ failed = some r := by
  cases o <;> simp [call]

@[simp] theorem awaitBits_some {d d' : Device} {mask : Finset NetworkBit} {o : Outcome}
    {t : Task} {next : List Task} :
    awaitBits d mask o t = some (d',next) ↔ o = .go ∧ mask ⊆ d.net ∧ d' = d ∧ next = [t] := by
  simp only [awaitBits,proceed_some,waitBits,Ready]
  by_cases ready : mask ⊆ d.net <;> simp [ready,@eq_comm _ _ d',@eq_comm _ _ next]

@[simp] theorem consumeBits_some {d d' : Device} {mask : Finset UtilBit} {waitForAll : Bool}
    {o : Outcome} {point : Finset UtilBit → UtilityPoint} {next : List Task} :
    consumeBits d mask waitForAll o point = some (d',next) ↔
      o = .go ∧ Ready waitForAll d.util mask ∧ d' = { d with util := clearBits d.util mask } ∧
        next = [.utility (point d.util)] := by
  simp only [consumeBits,proceed_some,waitBits]
  by_cases ready : Ready waitForAll d.util mask <;> simp [ready,@eq_comm _ _ d',@eq_comm _ _ next]

/-- app_main from prvAssignThingNameAndNodeId on. No WiFi event that the handlers act
on is raised before the network task connects, so they join with the event groups. -/
def appMain (d : Device) (o : Outcome) : MainPoint → Result
  | .readThingName => call o
    (some ({ d with pcThingName := d.nvs.read true .thingname },[.main .readNodeId]))
    (some ({ d with pcThingName := d.nvs.read false .thingname },[.main .readNodeId]))
  | .readNodeId => call o
    (some ({ d with pcNodeId := d.nvs.read true .nodeid },[.main .test]))
    (some ({ d with pcNodeId := d.nvs.read false .nodeid },[.main .test]))
  | .test => proceed o
    (if d.pcThingName = none ∨ d.pcNodeId = none then some (d,[.main .getMac])
    else some (d,[.main .createGroups]))
  | .getMac => call o (some (d,[.main .format])) (some (d,[]))
  -- Both texts fit in THING_NAME_SIZE bytes. Where a buffer is not allocated, app_main
  -- returns and nothing reads the globals again.
  | .format => drawn o
    (fun word => some ({ d with
      pcNodeId := some (nodeIdText d.mac)
      pcThingName := some (thingNameText d.mac word) },[.main .storeNodeId]))
    (some ({ d with pcNodeId := none, pcThingName := none },[]))
  | .storeNodeId => call o
    (some ({ d with nvs := (d.nvs.write true .nodeid d.pcNodeId).1 },[.main .storeThingName]))
    (some (d,[]))
  | .storeThingName => call o
    (some ({ d with nvs := (d.nvs.write true .thingname d.pcThingName).1 },[.main .createGroups]))
    (some (d,[]))
  | .createGroups => proceed o
    (some ({ d with net := ∅, util := ∅ },[.main .createUtility,.handler .idle]))
  -- No result of xTaskCreate is looked at.
  | .createUtility => call o
    (some (d,[.main .createNetwork,.utility .waitWifi])) (some (d,[.main .createNetwork]))
  | .createNetwork => call o
    (some (d,[.main .createSending,.network .start])) (some (d,[.main .createSending]))
  | .createSending => call o (some (d,[.sending .delay])) (some (d,[]))

def prvEventHandlers (d : Device) (o : Outcome) : HandlerPoint → Result
  | .idle => match o with
    | .event .staConnected => some (d,[.handler .setConnected])
    | .event .staDisconnected => some (d,[.handler .clearConnected])
    | .event .staGotIp => some (d,[.handler .setGotIp])
    | _ => none
  | .setConnected => proceed o
    (some ({ d with net := setBits d.net {.wifiConnected} },[.handler .notifyConnected]))
  | .notifyConnected => proceed o (some (d.notify .wifiConnected,[.handler .idle]))
  | .clearConnected => proceed o
    (some ({ d with net := clearBits d.net {.wifiConnected,.ipGot} },[.handler .setDisconnected]))
  | .setDisconnected => proceed o
    (some ({ d with net := setBits d.net {.wifiDisconnected} },[.handler .notifyDisconnected]))
  | .notifyDisconnected => proceed o (some (d.notify .wifiDisconnected,[.handler .idle]))
  | .setGotIp => proceed o (some ({ d with net := setBits d.net {.ipGot} },[.handler .idle]))

def prvNetworkHandlingTask (d : Device) (o : Outcome) : NetworkPoint → Result
  | .start => proceed o (some ({ d with net := setBits d.net {.init} },[.network .waiting]))
  | .waiting => proceed o ((waitBits d.net restartMask true false).map fun (bits,net) =>
    ({ d with net := net },[.network (.wifi bits)]))
  -- ESP_ERROR_CHECK aborts the program where esp_wifi_connect fails.
  | .wifi bits =>
    if Requested bits .wifiDisconnected then
      call o (some (d,[.network (.create .privKey bits)]))
        (some ({ d with halted := true },[.network (.wifi bits)]))
    else proceed o (some (d,[.network (.create .privKey bits)]))
  | .create activity bits =>
    if Requested bits activity.failBit then
      call o (some (d,[.network (activity.afterwards bits),activity.firstStep]))
        (some (d,[.network (activity.afterwards bits)]))
    else proceed o (some (d,[.network (activity.afterwards bits)]))

def prvGetPrivKeyTask (d : Device) (o : Outcome) : PrivKeyPoint → Result
  | .notify => proceed o (some (d.notify .privKeyAndCsrGen,[.privKey .readKey]))
  | .readKey => call o
    (some (d,[.privKey (.assignKey (d.nvs.read true .key))]))
    (some (d,[.privKey (.assignKey (d.nvs.read false .key))]))
  | .assignKey value => proceed o (some ({ d with pcDevKey := value },[.privKey .readCert]))
  | .readCert => call o
    (some (d,[.privKey (.assignCert (d.nvs.read true .certificate))]))
    (some (d,[.privKey (.assignCert (d.nvs.read false .certificate))]))
  | .assignCert value => proceed o (some ({ d with pcDevCert := value },[.privKey .test]))
  | .test => proceed o
    (if d.pcDevKey = none ∨ d.pcDevCert = none then some (d,[.privKey .generate])
    else some (d,[.privKey (.report true)]))
  -- esp_rmaker_self_claim_init: claim data with a fresh key, or NULL, before or after
  -- the key was copied to self_claim_private_key. Copying it to NULL faults.
  | .generate => match o with
    | .pem text => some ({ d with
        selfClaimPrivateKey := some text
        claimData := d.claimData ++ [⟨text,0⟩] },[.privKey (.assignData (some d.claimData.length))])
    | .noCsr text => some ({ d with
        selfClaimPrivateKey := some text
        claimData := d.claimData ++ [⟨text,1⟩] },[.privKey (.assignData none)])
    | .fail => some (d,[.privKey (.assignData none)])
    | .noMemory => some ({ d with halted := true },[.privKey .generate])
    | _ => none
  | .assignData address => proceed o
    (some ({ d with pxSelfClaimData := address },[.privKey .claimed]))
  | .claimed => proceed o
    (if d.pxSelfClaimData = none then some (d,[.privKey (.report false)])
    else some ({ d with pcDevKey := d.selfClaimPrivateKey },[.privKey .store]))
  | .store => call o
    (some ({ d with nvs := (d.nvs.write true .key d.pcDevKey).1 },
      [.privKey (.report (d.nvs.write true .key d.pcDevKey).2)]))
    (some (d,[.privKey (.report false)]))
  | .report acquired => proceed o
    (some ({ d with net := setBits d.net {if acquired then .privKeySuccess else .privKeyFail} },
      [.privKey (.notifyReport acquired)]))
  | .notifyReport acquired => proceed o
    (some (d.notify (if acquired then .privKeyAndCsrSuccess else .privKeyAndCsrFail),[]))

def prvGetCertTask (d : Device) (o : Outcome) : CertPoint → Result
  | .notify => proceed o (some (d.notify .selfClaimCertGet,[.cert .read]))
  | .read => call o
    (some (d,[.cert (.assign (d.nvs.read true .certificate))]))
    (some (d,[.cert (.assign (d.nvs.read false .certificate))]))
  | .assign value => proceed o (some ({ d with pcDevCert := value },[.cert .test]))
  | .test => proceed o
    (if d.pcDevCert = none then some (d,[.cert .waiting]) else some (d,[.cert (.report true)]))
  | .waiting => awaitBits d {.privKeySuccess,.ipGot} o (.cert .enter)
  -- Where the claim data was released, the program crashes or goes on with that memory.
  | .enter => match d.pxSelfClaimData with
    | none => proceed o (some (d,[.cert (.report false)]))
    | some address =>
      if d.claimDataLive address then proceed o (some (d,[.cert (.performInit address)]))
      else match o with
        | .go => some ({ d with halted := true },[.cert .enter])
        | .wild => some (d,[.cert (.performInit address)])
        | _ => none
  | .performInit address => call o
    (some (d,[.cert (.performVerify address)])) (some (d,[.cert (.report false)]))
  | .performVerify address => match o with
    | .pem text => some ({ d with selfClaimCertificate := some text },[.cert (.release address true)])
    | .fail => some (d,[.cert (.release address false)])
    | .noMemory => some ({ d with selfClaimCertificate := none },[.cert (.release address false)])
    | _ => none
  | .release address verified => proceed o
    (some (d.freeClaimData address,[.cert (if verified then .take else .report false)]))
  | .take => proceed o (some ({ d with pcDevCert := d.selfClaimCertificate },[.cert .store]))
  | .store => call o
    (some ({ d with nvs := (d.nvs.write true .certificate d.pcDevCert).1 },
      [.cert (.report (d.nvs.write true .certificate d.pcDevCert).2)]))
    (some (d,[.cert (.report false)]))
  | .report acquired => proceed o
    (some ({ d with net := setBits d.net {if acquired then .certSuccess else .certFail} },
      [.cert (.notifyReport acquired)]))
  | .notifyReport acquired => proceed o
    (some (d.notify (if acquired then .selfClaimCertSuccess else .selfClaimCertFail),[]))

def prvTlsConnectionTask (d : Device) (o : Outcome) : TlsPoint → Result
  | .waiting => awaitBits d {.privKeySuccess,.certSuccess,.ipGot} o (.tls .test)
  | .test => proceed o
    (if d.pxTls = none then some (d,[.tls .configure]) else some (d,[.tls .disconnect]))
  -- xTlsDisconnect: the handle is gone whatever esp_tls_conn_destroy returns.
  | .disconnect => call o
    (some (d.destroyTls d.pxTls,[.tls .configure])) (some (d.destroyTls d.pxTls,[.tls .configure]))
  -- strlen of a NULL credential faults.
  | .configure => proceed o
    (if d.pcDevCert = none ∨ d.pcDevKey = none then
      some ({ d with halted := true },[.tls .configure])
    else some (d,[.tls .allocate]))
  | .allocate => call o
    (some ({ d with tlsHandles := d.tlsHandles ++ [⟨false,0⟩] },
      [.tls (.assign (some d.tlsHandles.length))]))
    (some (d,[.tls (.assign none)]))
  | .assign handle => proceed o (some ({ d with pxTls := handle },[.tls (.connect handle)]))
  -- esp_tls_conn_new_sync refuses a NULL handle.
  | .connect handle => call o
    (if handle = none then none else some (d.connectTls handle,[.tls (.report true)]))
    (some (d,[.tls (.report false)]))
  | .report connected => proceed o
    (some ({ d with net := setBits d.net {if connected then .tlsConnected else .tlsDisconnected} },[]))

def prvMqttConnectionTask (d : Device) (o : Outcome) : MqttPoint → Result
  | .waiting => awaitBits d {.tlsConnected} o (.mqtt .connect)
  | .connect => match o with
    | .status status => some (d,[.mqtt (.report status)])
    | _ => none
  | .report status => proceed o (match status with
    | .success => some ({ d with net := setBits d.net {.mqttConnected} },[])
    -- This branch only logs.
    | .noMemory => some (d,[])
    | .sendFailed | .recvFailed =>
      some ({ d with net := clearBits d.net {.tlsConnected} },[.mqtt .dropped])
    | _ => some ({ d with net := setBits d.net {.mqttDisconnected} },[]))
  | .dropped => proceed o
    (some ({ d with net := setBits d.net {.tlsDisconnected,.mqttDisconnected} },[]))

def prvQuickConnectSendingTask (d : Device) (o : Outcome) : SendingPoint → Result
  | .delay => proceed o (some (d,[.sending .waiting]))
  | .waiting => awaitBits d {.mqttConnected} o (.sending .publish)
  | .publish => match o with
    | .status status => some (d,[.sending (.report status)])
    | _ => none
  | .report status => proceed o
    (if status ≠ .success then
      some ({ d with net := clearBits d.net {.tlsConnected,.mqttConnected} },[.sending .dropped])
    else some (d,[.sending .delay]))
  | .dropped => proceed o
    (some ({ d with net := setBits d.net {.tlsDisconnected,.mqttDisconnected} },[.sending .delay]))

def wifiNotification (bits : Finset UtilBit) : Line :=
  if .wifiDisconnected ∈ bits then .wifiDisconnected else .wifiConnected

def privKeyNotification (bits : Finset UtilBit) : Line :=
  if .privKeyAndCsrFail ∈ bits then .privKeyAndCsrFail else .privKeyAndCsrSuccess

def certNotification (bits : Finset UtilBit) : Line :=
  if .selfClaimCertFail ∈ bits then .selfClaimFail else .selfClaimSuccess

def prvUtilityOutputTask (d : Device) (o : Outcome) : UtilityPoint → Result
  | .waitWifi => consumeBits d {.wifiConnected,.wifiDisconnected} false o .printWifi
  | .printWifi bits => proceed o (some (d.print (wifiNotification bits),
      [.utility (if .wifiDisconnected ∈ bits then .waitWifi else .waitGen)]))
  | .waitGen => consumeBits d {.privKeyAndCsrGen} true o fun _ => .printGen
  | .printGen => proceed o (some (d.print .privKeyAndCsrGen,[.utility .waitPrivKey]))
  | .waitPrivKey =>
    consumeBits d {.privKeyAndCsrSuccess,.privKeyAndCsrFail} false o .printPrivKey
  | .printPrivKey bits => proceed o
    (some (d.print (privKeyNotification bits),[.utility .waitGet]))
  | .waitGet => consumeBits d {.selfClaimCertGet} true o fun _ => .printGet
  | .printGet => proceed o (some (d.print .selfClaimPerf,[.utility .waitCert]))
  | .waitCert => consumeBits d {.selfClaimCertSuccess,.selfClaimCertFail} false o .printCert
  | .printCert bits => proceed o (some (d.print (certNotification bits),
      if .selfClaimCertFail ∈ bits then [] else [.utility .sendCert]))
  | .sendCert => proceed o (some (d.print (.cert d.pcDevCert),[.utility .sendThingName]))
  | .sendThingName => proceed o (some (d.print (.thingName d.pcThingName),[]))

def taskStep (d : Device) (o : Outcome) : Task → Result
  | .main point => appMain d o point
  | .handler point => prvEventHandlers d o point
  | .network point => prvNetworkHandlingTask d o point
  | .privKey point => prvGetPrivKeyTask d o point
  | .cert point => prvGetCertTask d o point
  | .tls point => prvTlsConnectionTask d o point
  | .mqtt point => prvMqttConnectionTask d o point
  | .sending point => prvQuickConnectSendingTask d o point
  | .utility point => prvUtilityOutputTask d o point

def exec (d : Device) (t : Task) (o : Outcome) : Result := if d.halted then none else taskStep d o t

abbrev Config := TaskPool.Config Device Task

abbrev Policy := TaskPool.Policy Device Task Outcome

def boot (mac : Vector UInt8 6) (nvs : DurableMap RuntimeKey Str) : Config :=
  ⟨powerOn mac nvs,[.main .readThingName]⟩

/-- The firmware: every task, and a reboot that keeps only flash. -/
def machine : TaskPool.Machine Device Task Outcome where
  exec := exec
  restart := fun d => boot d.mac d.nvs

abbrev Reaches (policy : Policy) : Config → Config → Prop := TaskPool.Reaches machine policy

abbrev Step (policy : Policy) : Config → Config → Prop := TaskPool.Step machine policy

end QuickConnect.Firmware
