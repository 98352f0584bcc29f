import QuickConnect.Claim.Data

/-! esp_rmaker_claim_perform_common: one request posted from the payload of the claim
data and its response read back into the same array. -/
namespace QuickConnect.Claim
variable {Key : Type}

/-- What the transport and the service do in one exchange. -/
structure Service where
  created : Bool
  opened : Bool
  written : Int
  headers : Int
  status : Int
  body : Str
  -- How many bytes of the body come before the connection ends.
  arriving : Nat

/-- The bytes esp_http_client_read_response stores; their number is what it returns. -/
def Service.readResponse (service : Service) (size : Nat) : Str :=
  (service.body.take service.arriving).take size

theorem readResponse_length (service : Service) (size : Nat) :
    (service.readResponse size).length ≤ size := List.length_take_le _ _

def claimBaseUrl : Str := Text.bytes "https://esp-claiming.rainmaker.espressif.com"

def claimInitPath : Str := Text.bytes "claim/initiate"

def claimVerifyPath : Str := Text.bytes "claim/verify"

def url (path : Str) : Str := (claimBaseUrl ++ [47] ++ path).take 99

structure Outcome (Key : Type) where
  err : EspErr
  data : ClaimData Key
  -- The URL and the bytes handed to esp_http_client_write.
  posted : Option (Str × Str)
  -- The indices of the payload assigned to, in order.
  stores : List Nat

def receive (service : Service) (d : ClaimData Key) : Option (ClaimData Key × List Nat) := do
  let response := service.readResponse maxPayloadSize
  let payload ← d.payload.write 0 response
  some (({ d with payload := payload } : ClaimData Key).storePayload response.length 0,
    List.range response.length ++ [response.length])

def performCommon (service : Service) (d : ClaimData Key) (path : Str) : Option (Outcome Key) :=
  if service.created = false then some ⟨.fail,d,none,[]⟩
  else do
    let request ← d.payload.text
    if service.opened = false then some ⟨.fail,d,none,[]⟩
    else
      let posted := some (url path,request)
      if service.written ≠ request.length then some ⟨.fail,d,posted,[]⟩
      else if 0 < service.headers ∧ service.status = 200 then do
        let (data,stores) ← receive service d
        some ⟨.ok,data,posted,stores⟩
      else do
        -- The length is never negative, so the terminator is stored here as well.
        let (data,stores) ← receive service d
        some ⟨.fail,data,posted,stores⟩

structure StoredInside (d : ClaimData Key) (o : Outcome Key) : Prop where
  indices : ∀ index ∈ o.stores, index < maxPayloadSize
  elsewhere : d.SameElsewhere o.data
  terminated : o.err = .ok → ∃ text, o.data.payload.text = some text

/-- The request goes out whole, so that a response is read. -/
def Service.Answers (service : Service) (request : Str) : Prop :=
  service.created = true ∧ service.opened = true ∧ service.written = request.length

def Service.Fills (service : Service) : Prop :=
  maxPayloadSize ≤ service.body.length ∧ maxPayloadSize ≤ service.arriving

theorem fills_iff (service : Service) :
    service.Fills ↔ (service.readResponse maxPayloadSize).length = maxPayloadSize := by
  rw [Service.Fills,Service.readResponse,List.length_take,List.length_take]
  omega

theorem receive_stores (service : Service) (d : ClaimData Key) :
    ∃ data, receive service d =
      some (data,List.range (service.readResponse maxPayloadSize).length ++
        [(service.readResponse maxPayloadSize).length]) := by
  have fits : 0 + (service.readResponse maxPayloadSize).length ≤ maxPayloadSize := by
    rw [Nat.zero_add]
    exact readResponse_length service maxPayloadSize
  obtain ⟨payload,written,_⟩ := d.payload.write_some fits
  exact ⟨_,by rw [receive,written]; rfl⟩

/-- A response shorter than the array stays in it, and its terminator too. -/
theorem receive_short {service : Service} (d : ClaimData Key) (short : ¬service.Fills) :
    ∃ data rest, receive service d =
        some (data,List.range (service.readResponse maxPayloadSize).length ++
          [(service.readResponse maxPayloadSize).length]) ∧ d.SameElsewhere data ∧
      data.payload.bytes = service.readResponse maxPayloadSize ++ 0 :: rest := by
  generalize read : service.readResponse maxPayloadSize = response
  have bound : response.length < maxPayloadSize := by
    have most := readResponse_length service maxPayloadSize
    have missing := mt (fills_iff service).mpr short
    rw [read] at most missing
    omega
  obtain ⟨payload,written,whole⟩ := d.payload.write_some
    (show 0 + response.length ≤ maxPayloadSize by omega)
  refine ⟨{ d with payload := payload.store response.length 0 },
    d.payload.bytes.drop (response.length + 1),?_,d.sameElsewhere_payload _,?_⟩
  · rw [receive,read,written]
    simp only [ClaimData.storePayload,bound,if_true,Option.bind_eq_bind,Option.bind_some]
  · change payload.bytes.set response.length 0 = _
    rw [whole,List.take_zero,List.nil_append,Nat.zero_add,
      List.set_append_right _ _ (Nat.le_refl _),Nat.sub_self]
    have more : response.length < d.payload.bytes.length := by
      rw [d.payload.sized]
      exact bound
    rw [List.drop_eq_getElem_cons more,List.set_cons_zero]

theorem receive_full {service : Service} (d : ClaimData Key) (full : service.Fills) :
    ∃ data stores, receive service d = some (data,stores) ∧ maxPayloadSize ∈ stores := by
  obtain ⟨data,received⟩ := receive_stores service d
  refine ⟨data,_,received,?_⟩
  rw [(fills_iff service).mp full]
  exact List.mem_append_right _ (List.mem_singleton_self _)

theorem performCommon_unanswered {service : Service} {d : ClaimData Key} {request : Str}
    (posts : d.payload.text = some request) (path : Str) (unanswered : ¬service.Answers request) :
    ∃ o, performCommon service d path = some o ∧ o.err = .fail ∧ o.data = d ∧ o.stores = [] := by
  rw [performCommon,posts]
  by_cases created : service.created = false
  · exact ⟨_,if_pos created,rfl,rfl,rfl⟩
  rw [if_neg created]
  by_cases opened : service.opened = false
  · exact ⟨_,by simp [opened]; rfl,rfl,rfl,rfl⟩
  have partly : service.written ≠ request.length := by
    intro whole
    apply unanswered
    exact ⟨by simpa using created,by simpa using opened,whole⟩
  exact ⟨_,by simp [opened,partly]; rfl,rfl,rfl,rfl⟩

theorem performCommon_answered {service : Service} {d data : ClaimData Key} {request : Str}
    {stores : List Nat} (posts : d.payload.text = some request) (path : Str)
    (answers : service.Answers request) (received : receive service d = some (data,stores)) :
    ∃ o, performCommon service d path = some o ∧ o.data = data ∧ o.stores = stores ∧
      (o.err = .ok ↔ 0 < service.headers ∧ service.status = 200) := by
  obtain ⟨created,opened,whole⟩ := answers
  rw [performCommon,posts,received]
  by_cases accepted : 0 < service.headers ∧ service.status = 200
  · exact ⟨_,by simp [created,opened,whole,accepted]; rfl,rfl,rfl,by simp [accepted]⟩
  · exact ⟨_,by simp [created,opened,whole,accepted]; rfl,rfl,rfl,by simp [accepted]⟩

theorem performCommon_full {service : Service} {d : ClaimData Key} {request : Str}
    (posts : d.payload.text = some request) (path : Str) (answers : service.Answers request)
    (full : service.Fills) :
    ∃ o, performCommon service d path = some o ∧ maxPayloadSize ∈ o.stores ∧
      (o.err = .ok ↔ 0 < service.headers ∧ service.status = 200) := by
  obtain ⟨data,stores,received,past⟩ := receive_full d full
  obtain ⟨o,performed,_,rfl,done⟩ := performCommon_answered posts path answers received
  exact ⟨o,performed,past,done⟩

/-- The terminator is stored behind the array exactly when the response fills it. -/
theorem response_stored_inside {d : ClaimData Key} {request : Str}
    (posts : d.payload.text = some request) (service : Service) (path : Str) :
    ∃ o, performCommon service d path = some o ∧
      (StoredInside d o ↔ ¬(service.Answers request ∧ service.Fills)) := by
  by_cases answers : service.Answers request
  · by_cases full : service.Fills
    · obtain ⟨o,performed,past,_⟩ := performCommon_full posts path answers full
      refine ⟨o,performed,?_,?_⟩
      · intro inside
        exact absurd (inside.indices _ past) (Nat.lt_irrefl _)
      · intro other
        exact absurd ⟨answers,full⟩ other
    · obtain ⟨data,rest,received,elsewhere,whole⟩ := receive_short d full
      obtain ⟨o,performed,rfl,stored,_⟩ := performCommon_answered posts path answers received
      refine ⟨o,performed,?_,?_⟩
      · intro _ filled
        exact full filled.2
      · intro _
        refine ⟨?_,elsewhere,?_⟩
        · intro index inside
          have most := readResponse_length service maxPayloadSize
          have missing := mt (fills_iff service).mpr full
          rw [stored,List.mem_append,List.mem_range,List.mem_singleton] at inside
          omega
        · intro _
          apply CString.read_of_mem
          rw [whole]
          exact List.mem_append_right _ List.mem_cons_self
  · obtain ⟨o,performed,failed,same,none⟩ := performCommon_unanswered posts path answers
    refine ⟨o,performed,?_,?_⟩
    · intro _ filled
      exact answers filled.1
    · intro _
      refine ⟨?_,?_,?_⟩
      · intro index inside
        rw [none] at inside
        cases inside
      · rw [same]
        exact ClaimData.SameElsewhere.refl d
      · intro done
        rw [failed] at done
        cases done

def accepting (request body : Str) : Service where
  created := true
  opened := true
  written := request.length
  headers := body.length
  status := 200
  body := body
  arriving := body.length

def posting (request : Str) : ClaimData Unit :=
  { ClaimData.calloc Unit with payload := .holding maxPayloadSize request }

theorem response_stored_inside_short :
    ∃ o, performCommon (accepting (Text.bytes "{}") (Text.bytes "answer")) (posting (Text.bytes "{}"))
        claimInitPath = some o ∧ o.err = .ok ∧ StoredInside (posting (Text.bytes "{}")) o := by
  have posts : (posting (Text.bytes "{}")).payload.text = some (Text.bytes "{}") := by
    apply Region.text_holding <;> decide
  have short : ¬(accepting (Text.bytes "{}") (Text.bytes "answer")).Fills :=
    fun full => absurd full.1 (by decide)
  obtain ⟨o,performed,inside⟩ :=
    response_stored_inside posts (accepting (Text.bytes "{}") (Text.bytes "answer")) claimInitPath
  obtain ⟨_,_,received,_⟩ := receive_short (posting (Text.bytes "{}")) short
  obtain ⟨_,again,_,_,done⟩ :=
    performCommon_answered posts claimInitPath ⟨rfl,rfl,rfl⟩ received
  cases performed.symm.trans again
  exact ⟨o,performed,done.mpr ⟨by decide,rfl⟩,inside.mpr fun filled => short filled.2⟩

theorem response_stored_outside :
    ∃ o, performCommon (accepting (Text.bytes "{}") (List.replicate maxPayloadSize 120))
        (posting (Text.bytes "{}")) claimInitPath = some o ∧
      o.err = .ok ∧ ¬StoredInside (posting (Text.bytes "{}")) o := by
  have posts : (posting (Text.bytes "{}")).payload.text = some (Text.bytes "{}") := by
    apply Region.text_holding <;> decide
  have full : (accepting (Text.bytes "{}") (List.replicate maxPayloadSize 120)).Fills := by
    have length : maxPayloadSize = (List.replicate maxPayloadSize (120 : UInt8)).length := by
      rw [List.length_replicate]
    exact ⟨Nat.le_of_eq length,Nat.le_of_eq length⟩
  obtain ⟨o,performed,past,done⟩ := performCommon_full posts claimInitPath ⟨rfl,rfl,rfl⟩ full
  refine ⟨o,performed,?_,?_⟩
  · apply done.mpr
    refine ⟨?_,rfl⟩
    change 0 < ((List.replicate maxPayloadSize (120 : UInt8)).length : Int)
    rw [List.length_replicate]
    decide
  · intro inside
    exact absurd (inside.indices _ past) (Nat.lt_irrefl _)

end QuickConnect.Claim
