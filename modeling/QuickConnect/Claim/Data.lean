import QuickConnect.Lib.Region

/-! esp_rmaker_claim_data_t and the return values of esp_rmaker_claim.c. -/
namespace QuickConnect.Claim

inductive EspErr
  | ok
  | fail
  | noMem
  | invalidState
  | other (code : Int)
  deriving DecidableEq

def maxCsrSize : Nat := 1024

def maxPayloadSize : Nat := 3072

-- `unset` is the zero that calloc leaves.
inductive ClaimState
  | unset
  | pkGenerated
  | init
  | initDone
  | csrGenerated
  | verify
  | verifyDone
  deriving DecidableEq

structure ClaimData (Key : Type) where
  state : ClaimState
  csr : Region maxCsrSize
  payload : Region maxPayloadSize
  payloadOffset : UInt32
  payloadLen : UInt32
  key : Option Key

namespace ClaimData
variable {Key : Type}

def calloc (Key : Type) : ClaimData Key where
  state := .unset
  csr := .zeroed maxCsrSize
  payload := .zeroed maxPayloadSize
  payloadOffset := 0
  payloadLen := 0
  key := none

/-- An assignment to `payload[index]` for an index up to the size of the array. The byte
behind the array is the low byte of `payload_offset`. -/
def storePayload (d : ClaimData Key) (index : Nat) (byte : UInt8) : ClaimData Key :=
  if index < maxPayloadSize then { d with payload := d.payload.store index byte }
  else { d with payloadOffset := (d.payloadOffset &&& 0xffffff00) ||| byte.toUInt32 }

/-- The fields other than the payload are the same. -/
structure SameElsewhere (d d' : ClaimData Key) : Prop where
  state : d'.state = d.state
  csr : d'.csr = d.csr
  payloadOffset : d'.payloadOffset = d.payloadOffset
  payloadLen : d'.payloadLen = d.payloadLen
  key : d'.key = d.key

theorem SameElsewhere.refl (d : ClaimData Key) : SameElsewhere d d := ⟨rfl,rfl,rfl,rfl,rfl⟩

theorem sameElsewhere_payload (d : ClaimData Key) (payload : Region maxPayloadSize) :
    SameElsewhere d { d with payload := payload } := ⟨rfl,rfl,rfl,rfl,rfl⟩

end ClaimData

/-- The static certificate of esp_rmaker_claim.c, and how many token arrays are allocated. -/
structure Module where
  certificate : Option (List UInt8)
  tokenArrays : Nat

def Module.parseStarted (mod : Module) : Module := { mod with tokenArrays := mod.tokenArrays + 1 }

def Module.parseEnd (mod : Module) : Module := { mod with tokenArrays := mod.tokenArrays - 1 }

@[simp] theorem Module.parseStarted_parseEnd (mod : Module) : mod.parseStarted.parseEnd = mod := rfl

end QuickConnect.Claim
