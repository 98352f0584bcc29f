import QuickConnect.Claim.Begin
import QuickConnect.Claim.Exchange
import QuickConnect.Claim.Released
import QuickConnect.Lib.Trace

/-! esp_rmaker_self_claim_perform, attempted again and again on the same claim data: the
init phase and the verify phase, which share one payload. -/
namespace QuickConnect.Claim
open Trace Jsmn JsonParser
variable {Key : Type}

/-- The device and its build: the MAC address and CONFIG_IDF_TARGET. -/
structure Station where
  mac : Vector UInt8 6
  target : Str

/-- What one attempt meets with. -/
structure Attempt where
  getMac : EspErr
  init : Service
  hmacChallenge : Str → Option Digest
  initTokens : Bool
  verify : Service
  calloc : Allocations

def ClaimState.value : ClaimState → Nat
  | .unset => 0
  | .pkGenerated => 1
  | .init => 2
  | .initDone => 3
  | .csrGenerated => 4
  | .verify => 5
  | .verifyDone => 6

def initRequest (station : Station) : Str :=
  Text.bytes "\x7b\"mac_addr\":\"" ++ Text.hex station.mac.toList ++
    Text.bytes "\",\"platform\":\"" ++ station.target ++ Text.bytes "\"\x7d"

def generateClaimInitRequest (getMac : EspErr) (station : Station) (d : ClaimData Key) :
    Option (EspErr × ClaimData Key) :=
  if d.state.value < ClaimState.pkGenerated.value then some (.invalidState,d)
  else if getMac ≠ .ok then some (getMac,d)
  else do
    let payload ← d.payload.write 0 (Text.printed maxPayloadSize (initRequest station) ++ [0])
    let text ← payload.text
    some (.ok,{ d with
      payload := payload
      payloadLen := text.length.toUInt32
      payloadOffset := 0 })

/-- The request posted in a phase, and how the phase ends where it has an outcome. -/
structure Phase (Key : Type) where
  posted : Option (Str × Str)
  ended : Option (EspErr × ClaimData Key × Module)

def initHandled (attempt : Attempt) (d : ClaimData Key) (mod : Module) :
    Option (EspErr × ClaimData Key × Module) := do
  let o ← handleSelfClaimInitResponse attempt.hmacChallenge attempt.initTokens
    { d with state := .init } mod
  some (o.err,if o.err = .ok then { o.data with state := .initDone } else o.data,o.mod)

def performInit (station : Station) (attempt : Attempt) (d : ClaimData Key) (mod : Module) :
    Phase Key :=
  match generateClaimInitRequest attempt.getMac station d with
  | none => ⟨none,none⟩
  | some (err,d) =>
    if err ≠ .ok then ⟨none,some (err,d,mod)⟩
    else match performCommon attempt.init d claimInitPath with
      | none => ⟨none,none⟩
      | some o =>
        if o.err ≠ .ok then ⟨o.posted,some (o.err,o.data,mod)⟩
        else ⟨o.posted,initHandled attempt o.data mod⟩

def verifyHandled (attempt : Attempt) (d : ClaimData Key) (mod : Module) :
    Option (EspErr × ClaimData Key × Module) := do
  let (err,mod) ← handleClaimVerifyResponse attempt.calloc d.payload mod
  some (err,{ d with state := if err = .ok then .verifyDone else .verify },mod)

def performVerify (attempt : Attempt) (d : ClaimData Key) (mod : Module) : Phase Key :=
  match performCommon attempt.verify d claimVerifyPath with
  | none => ⟨none,none⟩
  | some o =>
    if o.err ≠ .ok then ⟨o.posted,some (o.err,o.data,mod)⟩
    else ⟨o.posted,verifyHandled attempt o.data mod⟩

/-- Both requests, and at the end the error, the claim data unless it was freed, and the
globals. -/
structure Performed (Key : Type) where
  initPosted : Option (Str × Str)
  verifyPosted : Option (Str × Str)
  ended : Option (EspErr × Option (ClaimData Key) × Module)

def selfClaimPerform (station : Station) (attempt : Attempt) (claimData : Option (ClaimData Key))
    (mod : Module) : Performed Key :=
  match claimData with
  | none => ⟨none,none,some (.invalidState,none,mod)⟩
  | some d =>
    let init := performInit station attempt d mod
    match init.ended with
    | none => ⟨init.posted,none,none⟩
    | some (err,d,mod) =>
      if err ≠ .ok then ⟨init.posted,none,some (err,some d,mod)⟩
      else
        let verify := performVerify attempt d mod
        -- The claim data is freed whatever the outcome.
        ⟨init.posted,verify.posted,verify.ended.map fun (err,_,mod) => (err,none,mod)⟩

/-- What the caller and the services see of an attempt. -/
structure Seen where
  initPosted : Option (Str × Str)
  verifyPosted : Option (Str × Str)
  ended : Option (EspErr × Bool × Module)

def Performed.seen (performed : Performed Key) : Seen where
  initPosted := performed.initPosted
  verifyPosted := performed.verifyPosted
  ended := performed.ended.map fun (err,kept,mod) => (err,kept.isSome,mod)

section Reading
variable {d d' : ClaimData Key} {service : Service} {path : Str}

/-- The text that the response leaves in the payload, with its terminator if there is room. -/
def Service.responseText (service : Service) : Option Str :=
  CString.read ((service.readResponse maxPayloadSize ++ [0]).take maxPayloadSize)

theorem receive_text (service : Service) (d : ClaimData Key) :
    ∃ data stores, receive service d = some (data,stores) ∧
      (data.state = d.state ∧ data.csr = d.csr ∧ data.key = d.key) ∧
      data.payload.text = service.responseText := by
  by_cases full : service.Fills
  · have whole := (fills_iff service).mp full
    obtain ⟨payload,written,bytes⟩ := d.payload.write_some
      (show 0 + (service.readResponse maxPayloadSize).length ≤ maxPayloadSize by omega)
    rw [List.take_zero,List.nil_append,Nat.zero_add,whole,
      List.drop_of_length_le (Nat.le_of_eq d.payload.sized),List.append_nil] at bytes
    refine ⟨ClaimData.storePayload { d with payload := payload }
      (service.readResponse maxPayloadSize).length 0,_,by rw [receive,written]; rfl,?_,?_⟩
    · simp [ClaimData.storePayload,whole]
    · have same : (ClaimData.storePayload { d with payload := payload }
          (service.readResponse maxPayloadSize).length 0).payload = payload := by
        simp [ClaimData.storePayload,whole]
      have front : (service.readResponse maxPayloadSize ++ [0]).take
          (service.readResponse maxPayloadSize).length = service.readResponse maxPayloadSize :=
        List.take_left
      rw [whole] at front
      rw [same,Region.text,bytes,Service.responseText,front]
  · obtain ⟨data,rest,received,elsewhere,bytes⟩ := receive_short d full
    refine ⟨data,_,received,⟨elsewhere.state,elsewhere.csr,elsewhere.key⟩,?_⟩
    have most := readResponse_length service maxPayloadSize
    have missing := mt (fills_iff service).mpr full
    have fits : (service.readResponse maxPayloadSize ++ [0]).length ≤ maxPayloadSize := by
      rw [List.length_append,List.length_singleton]
      omega
    have split : service.readResponse maxPayloadSize ++ 0 :: rest =
        (service.readResponse maxPayloadSize ++ [0]) ++ rest := by simp
    rw [Region.text,bytes,Service.responseText,List.take_of_length_le fits,split]
    exact CString.read_front (List.mem_append_right _ (List.mem_singleton_self _)) rest

/-- What one exchange leaves, posts and answers. -/
structure Exchanged (service : Service) (path : Str) (d : ClaimData Key) (o : Outcome Key) :
    Prop where
  state : o.data.state = d.state
  csr : o.data.csr = d.csr
  posted : ∀ posted, o.posted = some posted → posted.1 = url path ∧ d.payload.text = some posted.2
  answered : o.err = .ok → service.status = 200 ∧ o.data.payload.text = service.responseText

theorem performCommon_exchanged {o : Outcome Key}
    (performed : performCommon service d path = some o) : Exchanged service path d o := by
  rw [performCommon] at performed
  by_cases created : service.created = false
  · rw [if_pos created] at performed
    cases performed
    exact ⟨rfl,rfl,(fun _ none => by cases none),fun failed => by cases failed⟩
  rw [if_neg created] at performed
  obtain ⟨request,posts,performed⟩ := Option.bind_eq_some_iff.mp performed
  obtain ⟨data,stores,received,⟨state,csr,_⟩,text⟩ := receive_text service d
  have posted : ∀ posted, some (url path,request) = some posted →
      posted.1 = url path ∧ d.payload.text = some posted.2 := by
    intro posted same
    cases same
    exact ⟨rfl,posts⟩
  simp only [received,Option.bind_eq_bind,Option.bind_some] at performed
  split at performed
  · cases performed
    exact ⟨rfl,rfl,(fun _ none => by cases none),fun failed => by cases failed⟩
  · split at performed
    · cases performed
      exact ⟨rfl,rfl,posted,fun failed => by cases failed⟩
    · split at performed <;> rename_i answered <;> cases performed
      · exact ⟨state,csr,posted,fun _ => ⟨answered.2,text⟩⟩
      · exact ⟨state,csr,posted,fun failed => by cases failed⟩

end Reading

section Phases
variable {d d' : ClaimData Key} {mod mod' : Module} {station : Station} {attempt : Attempt}

/-- An init request can be generated. -/
def ClaimData.Ready (d : ClaimData Key) : Prop := ClaimState.pkGenerated.value ≤ d.state.value

theorem generate_refused (ready : d.Ready) {getMac : EspErr} (refused : getMac ≠ .ok)
    (station : Station) : generateClaimInitRequest getMac station d = some (getMac,d) := by
  rw [generateClaimInitRequest,if_neg (Nat.not_lt.mpr ready),if_pos refused]

theorem generate_ready (ready : d.Ready) (station : Station) :
    ∃ data request, generateClaimInitRequest .ok station d = some (.ok,data) ∧
      (data.state = d.state ∧ data.csr = d.csr) ∧ data.payload.text = some request ∧
      CString.read (Text.printed maxPayloadSize (initRequest station) ++ [0]) = some request := by
  have short : (Text.printed maxPayloadSize (initRequest station)).length < maxPayloadSize :=
    Text.printed_length (by decide) _
  generalize printed : Text.printed maxPayloadSize (initRequest station) = text at short
  have terminated : (0 : UInt8) ∈ text ++ [0] :=
    List.mem_append_right _ (List.mem_singleton_self _)
  obtain ⟨request,read⟩ := CString.read_of_mem terminated
  obtain ⟨payload,written,bytes⟩ := d.payload.write_some
    (show 0 + (text ++ [0]).length ≤ maxPayloadSize by simp; omega)
  have held : payload.text = some request := by
    rw [Region.text,bytes,List.take_zero,List.nil_append,CString.read_front terminated,read]
  refine ⟨{ d with
    payload := payload
    payloadLen := request.length.toUInt32
    payloadOffset := 0 },request,?_,⟨rfl,rfl⟩,held,read⟩
  rw [generateClaimInitRequest,if_neg (Nat.not_lt.mpr ready),if_neg (not_not.mpr rfl),printed]
  simp only [written,held,Option.bind_eq_bind,Option.bind_some]

/-- A failed init phase leaves claim data that can be attempted again, with the same CSR. -/
theorem performInit_failed (ready : d.Ready) {err : EspErr}
    (ended : (performInit station attempt d mod).ended = some (err,d',mod'))
    (failed : err ≠ .ok) : d'.Ready ∧ d'.csr = d.csr ∧ mod' = mod := by
  rw [performInit] at ended
  by_cases refused : attempt.getMac ≠ .ok
  · rw [generate_refused ready refused] at ended
    simp only [refused,if_true,ne_eq,not_false_eq_true] at ended
    cases ended
    exact ⟨ready,rfl,rfl⟩
  · rw [not_not.mp refused] at ended
    obtain ⟨data,request,made,⟨state,csr⟩,_⟩ := generate_ready ready station
    simp only [made,ne_eq,not_true_eq_false,if_false] at ended
    split at ended
    · cases ended
    · rename_i o performed
      obtain ⟨state',csr',_⟩ := performCommon_exchanged performed
      split at ended
      · cases ended
        refine ⟨?_,csr'.trans csr,rfl⟩
        rw [ClaimData.Ready,state',state]
        exact ready
      · obtain ⟨h,handled,same⟩ := Option.bind_eq_some_iff.mp ended
        obtain ⟨leaves,data⟩ := handleSelfClaimInitResponse_leaves handled
        cases same
        refine ⟨?_,?_,leaves.rejected failed⟩
        · rw [if_neg failed,data failed]
          exact Nat.le_succ _
        · rw [if_neg failed,data failed]
          exact csr'.trans csr

end Phases

section Retries
variable {station : Station}

/-- The attempt fails in its init phase, after which the claim data is kept for another one. -/
def FailsInit (Key : Type) (station : Station) :
    ClaimData Key × Module → Attempt → ClaimData Key × Module → Prop :=
  fun before attempt after => ∃ err, err ≠ .ok ∧
    (selfClaimPerform station attempt (some before.1) before.2).ended =
      some (err,some after.1,after.2)

theorem selfClaimPerform_keeps {d d' : ClaimData Key} {mod mod' : Module} {attempt : Attempt}
    {err : EspErr} (ended : (selfClaimPerform station attempt (some d) mod).ended =
      some (err,some d',mod')) :
    (performInit station attempt d mod).ended = some (err,d',mod') ∧ err ≠ .ok := by
  simp only [selfClaimPerform] at ended
  split at ended
  · cases ended
  · rename_i performed
    split at ended
    · rename_i failed
      cases ended
      exact ⟨performed,failed⟩
    · obtain ⟨verified,_,same⟩ := Option.map_eq_some_iff.mp ended
      cases same

theorem failsInit_run {start last : ClaimData Key × Module} {attempts : List Attempt}
    (ready : start.1.Ready) (failed : Runs (FailsInit Key station) start attempts last) :
    last.1.Ready ∧ last.1.csr = start.1.csr ∧ last.2 = start.2 := by
  apply Runs.invariant (fun _ reached => reached.1.Ready ∧ reached.1.csr = start.1.csr ∧
    reached.2 = start.2) failed
  · exact ⟨ready,rfl,rfl⟩
  · rintro _ ⟨d,mod⟩ attempt ⟨d',mod'⟩ ⟨ready,csr,same⟩ ⟨err,_,ended⟩
    obtain ⟨performed,refused⟩ := selfClaimPerform_keeps ended
    obtain ⟨again,kept,unchanged⟩ := performInit_failed ready performed refused
    exact ⟨again,kept.trans csr,unchanged.trans same⟩

end Retries

def someStation : Station := ⟨⟨#[160,177,194,211,228,245],rfl⟩,Text.bytes "esp32"⟩

/-- The claim service cannot be reached. -/
def unreachable : Attempt where
  getMac := .ok
  init := ⟨true,false,0,0,0,[],0⟩
  hmacChallenge _ := none
  initTokens := true
  verify := ⟨true,false,0,0,0,[],0⟩
  calloc := ⟨true,true⟩

theorem unreachable_fails {d : ClaimData Key} (ready : d.Ready) (mod : Module) :
    ∃ d', FailsInit Key someStation (d,mod) unreachable (d',mod) := by
  obtain ⟨data,request,made,_,text,_⟩ := generate_ready ready someStation
  have performed : performCommon unreachable.init data claimInitPath =
      some ⟨.fail,data,none,[]⟩ := by
    rw [performCommon,text]
    rfl
  have getMac : unreachable.getMac = .ok := rfl
  refine ⟨data,.fail,(fun same => by cases same),?_⟩
  simp [selfClaimPerform,performInit,getMac,made,performed]

end QuickConnect.Claim
