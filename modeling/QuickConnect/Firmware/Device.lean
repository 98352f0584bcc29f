import QuickConnect.Lib.DurableMap
import QuickConnect.Lib.EventGroup
import QuickConnect.Lib.TaskPool
import QuickConnect.Lib.Text

/-! The state that the tasks of main.c share: the two event groups, the globals,
the TLS handle, the claim data on the heap and the runtime NVS partition. -/
namespace QuickConnect.Firmware

inductive NetworkBit
  | init | wifiConnected | wifiDisconnected | ipGot
  | privKeyFail | privKeySuccess | certFail | certSuccess
  | tlsConnected | tlsDisconnected | mqttConnected | mqttDisconnected
  deriving DecidableEq, Repr

inductive UtilBit
  | wifiConnected | wifiDisconnected
  | privKeyAndCsrGen | privKeyAndCsrFail | privKeyAndCsrSuccess
  | selfClaimCertGet | selfClaimCertFail | selfClaimCertSuccess
  deriving DecidableEq, Repr

inductive RuntimeKey
  | certificate | key | thingname | nodeid
  deriving DecidableEq, Repr

inductive MQTTStatus
  | success | badParameter | noMemory | sendFailed | recvFailed | badResponse | serverRefused
  | noDataAvailable | illegalState | stateCollision | keepAliveTimeout
  deriving DecidableEq, Repr

inductive WifiEvent
  | staConnected | staDisconnected | staGotIp
  deriving DecidableEq, Repr

inductive Line
  | wifiConnected | wifiDisconnected
  | privKeyAndCsrGen | privKeyAndCsrFail | privKeyAndCsrSuccess
  | selfClaimPerf | selfClaimFail | selfClaimSuccess
  | cert (text : Option Str)
  | thingName (text : Option Str)
  deriving DecidableEq, Repr

/-- An `esp_rmaker_claim_data_t`: the key that signed its CSR, and how often it was freed. -/
structure ClaimObject where
  key : Str
  frees : Nat
  deriving DecidableEq, Repr

structure TlsHandle where
  connected : Bool
  destroys : Nat
  deriving DecidableEq, Repr

/-- Pointers to claim data and TLS handles are positions in `claimData` and
`tlsHandles`, with `none` for NULL. `signals` is a history: the bits set in the
utility event group, latest first. -/
structure Device where
  mac : Vector UInt8 6
  nvs : DurableMap RuntimeKey Str
  net : Finset NetworkBit
  util : Finset UtilBit
  signals : List UtilBit
  serial : List Line
  pcNodeId : Option Str
  pcThingName : Option Str
  pcDevKey : Option Str
  pcDevCert : Option Str
  pxSelfClaimData : Option Nat
  claimData : List ClaimObject
  selfClaimPrivateKey : Option Str
  selfClaimCertificate : Option Str
  pxTls : Option Nat
  tlsHandles : List TlsHandle
  halted : Bool

/-- RAM as the loader leaves it; flash and the MAC address stay. -/
def powerOn (mac : Vector UInt8 6) (nvs : DurableMap RuntimeKey Str) : Device where
  mac := mac
  nvs := nvs
  net := ∅
  util := ∅
  signals := []
  serial := []
  pcNodeId := none
  pcThingName := none
  pcDevKey := none
  pcDevCert := none
  pxSelfClaimData := none
  claimData := []
  selfClaimPrivateKey := none
  selfClaimCertificate := none
  pxTls := none
  tlsHandles := []
  halted := false

def Device.notify (d : Device) (b : UtilBit) : Device :=
  { d with util := EventGroup.setBits d.util {b}, signals := b :: d.signals }

def Device.print (d : Device) (line : Line) : Device :=
  { d with serial := d.serial ++ [line] }

def Device.freeClaimData (d : Device) (address : Nat) : Device :=
  { d with claimData := d.claimData.modify address fun data => { data with frees := data.frees + 1 } }

def Device.claimDataLive (d : Device) (address : Nat) : Prop :=
  ∃ data, d.claimData[address]? = some data ∧ data.frees = 0

def Device.destroyTls (d : Device) (handle : Option Nat) : Device :=
  { d with tlsHandles := handle.elim d.tlsHandles fun h =>
      d.tlsHandles.modify h fun tls => { tls with destroys := tls.destroys + 1 } }

def Device.connectTls (d : Device) (handle : Option Nat) : Device :=
  { d with tlsHandles := handle.elim d.tlsHandles fun h =>
      d.tlsHandles.modify h fun tls => { tls with connected := true } }

def Device.tlsLive (d : Device) (handle : Nat) : Prop :=
  ∃ tls, d.tlsHandles[handle]? = some tls ∧ tls.destroys = 0

instance (d : Device) (address : Nat) : Decidable (d.claimDataLive address) :=
  decidable_of_iff ((d.claimData[address]?).any (·.frees = 0) = true) (by
    simp [Device.claimDataLive,Option.any_eq_true])

instance (d : Device) (handle : Nat) : Decidable (d.tlsLive handle) :=
  decidable_of_iff ((d.tlsHandles[handle]?).any (·.destroys = 0) = true) (by
    simp [Device.tlsLive,Option.any_eq_true])

end QuickConnect.Firmware
