import QuickConnect.Claim.VerifyResponse
import QuickConnect.Json.Accepted
import QuickConnect.Json.JsonGenerator

/-! handle_self_claim_init_response: the claim verify request, put together from the claim
init response, the HMAC of its challenge and the CSR kept since the claim began. -/
namespace QuickConnect.Claim
open Text Jsmn JsonParser JsonGen
variable {Key : Type}

structure Digest where
  bytes : List UInt8
  size : bytes.length = 64

def authIdKey : Str := Text.bytes "auth_id"

def challengeKey : Str := Text.bytes "challenge"

def challengeResponseKey : Str := Text.bytes "challenge_response"

def csrKey : Str := Text.bytes "csr"

def requestCalls (authId : Str) (response : Digest) (csr : Str) : List (Call maxPayloadSize) :=
  startObject :: objSetString authIdKey authId :: objStartLongString challengeResponseKey none ::
    ((response.bytes.map hex2).map addToLongString ++
      [endLongString,objSetString csrKey csr,endObject])

structure InitOutcome (Key : Type) where
  err : EspErr
  data : ClaimData Key
  mod : Module
  -- The return values of the json_gen calls, which the handler ignores.
  codes : List Int

def generateVerifyRequest (d : ClaimData Key) (authId : Str) (response : Digest) :
    Option (ClaimData Key × List Int) := do
  let csr ← d.csr.text
  let (codes,jstr) ← calls (requestCalls authId response csr) (strStart (some d.payload) false)
  let (_,buf,_) ← strEnd jstr
  some ({ d with payload := buf.getD d.payload },codes)

/-- `hmacChallenge` is HMAC-SHA512 under the key in the eFuse, or nothing when a step of it
fails, and `calloc` whether there is room for the tokens. -/
def handleSelfClaimInitResponse (hmacChallenge : Str → Option Digest) (calloc : Bool)
    (d : ClaimData Key) (mod : Module) : Option (InitOutcome Key) := do
  let js ← d.payload.text
  match parseStart calloc js with
  | .error .outside => none
  | .error .fail => some ⟨.fail,d,mod,[]⟩
  | .ok jctx =>
    let mod := mod.parseStarted
    match objGetString jctx authIdKey 64, objGetString jctx challengeKey 130 with
    | .error .outside, _ => none
    | _, .error .outside => none
    | .ok authId, .ok challenge =>
      let mod := mod.parseEnd
      match hmacChallenge challenge with
      | none => some ⟨.fail,d,mod,[]⟩
      | some response => do
        let (data,codes) ← generateVerifyRequest d authId response
        some ⟨.ok,data,mod,codes⟩
    | _, _ => some ⟨.fail,d,mod.parseEnd,[]⟩

/-- The text of the request. -/
def verifyRequest (authId : Str) (response : Digest) (csr : Str) : Str :=
  objectText (authIdKey,authId) [(challengeResponseKey,hex response.bytes),(csrKey,csr)]

theorem requestCalls_emit (authId : Str) (response : Digest) (csr : Str) :
    EmitsAll (requestCalls authId response csr) false (verifyRequest authId response csr) true := by
  have nothing : EmitsAll ([] : List (Call maxPayloadSize)) true [] true := emitsAll_nil true
  have ending := (emits_endLongString true).cons
    ((emits_objSetString true csrKey csr).cons ((emits_endObject true).cons nothing))
  have all := (emits_startObject false).cons ((emits_objSetString false authIdKey authId).cons
    ((emits_objStartLongString true challengeResponseKey).cons
      (ending.pieces (response.bytes.map hex2))))
  have pieces : (response.bytes.map hex2).flatten = hex response.bytes := rfl
  rw [pieces] at all
  have text : verifyRequest authId response csr = separator false ++ [123] ++
      (separator false ++ memberText (authIdKey,authId) ++
      (separator true ++ (quote :: challengeResponseKey ++ [quote,58,quote]) ++
      (hex response.bytes ++ ([quote] ++ (separator true ++ memberText (csrKey,csr) ++
      ([125] ++ [])))))) := by
    simp [verifyRequest,objectText,tailText,memberText,separator]
  rw [text]
  exact all

theorem verifyRequest_length {authId csr : Str} (response : Digest) (short : authId.length < 64)
    (fits : csr.length < maxCsrSize) :
    (verifyRequest authId response csr).length < maxPayloadSize := by
  have auth : authIdKey.length = 7 := by decide
  have challenge : challengeResponseKey.length = 18 := by decide
  have name : csrKey.length = 3 := by decide
  simp only [verifyRequest,objectText,tailText,List.length_append,List.length_cons,
    List.length_nil,memberText_length,hex_length,response.size,auth,challenge,name]
  change csr.length < 1024 at fits
  change _ < 3072
  omega

theorem authIdKey_body : StringBody authIdKey :=
  stringBody_plain ⟨by decide,by decide,by decide⟩

theorem challengeResponseKey_body : StringBody challengeResponseKey :=
  stringBody_plain ⟨by decide,by decide,by decide⟩

theorem csrKey_body : StringBody csrKey :=
  stringBody_plain ⟨by decide,by decide,by decide⟩

theorem challengeKey_body : StringBody challengeKey :=
  stringBody_plain ⟨by decide,by decide,by decide⟩

theorem hex_sendable (bytes : Str) : Sendable (hex bytes) where
  clean := fun inside => (hex_plain inside).1 rfl
  unquoted := fun inside => (hex_plain inside).2.1 rfl
  bare := fun inside => (hex_plain inside).2.2 rfl

theorem verifyRequest_members {authId csr : Str} (response : Digest) (auth : StringBody authId)
    (escaped : StringBody csr) : ∀ x ∈ [(authIdKey,authId),
      (challengeResponseKey,hex response.bytes),(csrKey,csr)], StringMember x := by
  have first : StringMember (authIdKey,authId) := ⟨authIdKey_body,auth⟩
  have second : StringMember (challengeResponseKey,hex response.bytes) :=
    ⟨challengeResponseKey_body,stringBody_plain (hex_sendable response.bytes)⟩
  have third : StringMember (csrKey,csr) := ⟨csrKey_body,escaped⟩
  intro x inside
  simp only [List.mem_cons,List.not_mem_nil,or_false] at inside
  rcases inside with rfl | rfl | rfl
  · exact first
  · exact second
  · exact third

/-- Each backslash with an n behind it read as a line break. -/
def readLines : Str → Str
  | [] => []
  | [byte] => [byte]
  | byte :: next :: rest =>
    if byte = backslash ∧ next = 110 then newLine :: readLines rest
    else byte :: readLines (next :: rest)

theorem readLines_other {byte : UInt8} (plain : byte ≠ backslash) (rest : Str) :
    readLines (byte :: rest) = byte :: readLines rest := by
  cases rest with
  | nil => rfl
  | cons next rest => rw [readLines,if_neg (fun escape => plain escape.1)]

theorem readLines_escape {text : Str} (bare : backslash ∉ text) :
    readLines (escape text) = text := by
  induction text with
  | nil => rfl
  | cons byte text ih =>
    simp only [List.mem_cons,not_or] at bare
    by_cases line : byte = newLine
    · subst line
      rw [escape_newLine,readLines,if_pos ⟨rfl,rfl⟩,ih bare.2]
    · rw [escape_other line,readLines_other (Ne.symm bare.1),ih bare.2]

/-- The request in the payload and what the parser finds in it, given a buffer that is
large enough. -/
structure CompleteRequest (o : InitOutcome Key) (authId : Str) (response : Digest)
    (pem : Str) : Prop where
  roomy : ∀ code ∈ o.codes, code = 0
  parsed : ∃ request ctx, o.data.payload.text = some request ∧ request.length ≤ 3071 ∧
    parseStart true request = .ok ctx ∧
    (∀ size, authId.length < size → objGetString ctx authIdKey size = .ok authId) ∧
    (∃ digits, digits.length = 128 ∧ unhex digits = some response.bytes ∧
      ∀ size, digits.length < size → objGetString ctx challengeResponseKey size = .ok digits) ∧
    ∃ csr, readLines csr = trimmed pem ∧
      ∀ size, csr.length < size → objGetString ctx csrKey size = .ok csr

theorem verifyRequest_clean {authId csr : Str} (response : Digest) (auth : 0 ∉ authId)
    (escaped : 0 ∉ csr) : 0 ∉ verifyRequest authId response csr := by
  apply objectText_clean
  intro x inside
  simp only [List.mem_cons,List.not_mem_nil,or_false] at inside
  rcases inside with rfl | rfl | rfl
  · exact ⟨authIdKey_body.clean,auth⟩
  · exact ⟨challengeResponseKey_body.clean,(hex_sendable response.bytes).clean⟩
  · exact ⟨csrKey_body.clean,escaped⟩

/-- The request is in the payload, whatever was there before. -/
theorem generateVerifyRequest_text {d : ClaimData Key} {authId csr : Str}
    (held : d.csr.text = some csr) (auth : 0 ∉ authId) (short : authId.length < 64)
    (response : Digest) : ∃ payload codes,
      generateVerifyRequest d authId response = some ({ d with payload := payload },codes) ∧
      (∀ code ∈ codes, code = 0) ∧ payload.text = some (verifyRequest authId response csr) := by
  have room := verifyRequest_length response short (Region.text_length held)
  obtain ⟨codes,jstr,ran,zero,holds⟩ := requestCalls_emit authId response csr
    (strStart (some d.payload) false) [] (strStart_holds (by decide) d.payload)
    (by rw [List.length_nil,Nat.zero_add]; exact room)
  rw [List.nil_append] at holds
  obtain ⟨escaped,_⟩ := CString.read_some held
  have clean := verifyRequest_clean response auth escaped
  obtain ⟨buf,flushed,ended,text⟩ := strEnd_holds holds clean room
  refine ⟨buf,codes,?_,zero,text⟩
  rw [generateVerifyRequest,held]
  simp only [Option.bind_eq_bind,Option.bind_some,ran,ended,Option.getD_some]

theorem generateVerifyRequest_complete {d : ClaimData Key} {authId pem : Str}
    (sendable : Sendable (trimmed pem)) (held : d.csr.text = some (escape (trimmed pem)))
    (auth : StringBody authId) (short : authId.length < 64) (response : Digest) (mod : Module) :
    ∃ data codes, generateVerifyRequest d authId response = some (data,codes) ∧
      CompleteRequest (⟨.ok,data,mod,codes⟩ : InitOutcome Key) authId response pem := by
  have members := verifyRequest_members response auth (stringBody_escape sendable)
  have room := verifyRequest_length response short (Region.text_length held)
  obtain ⟨payload,codes,generated,zero,text⟩ :=
    generateVerifyRequest_text held auth.clean short response
  refine ⟨_,codes,generated,zero,_,_,text,Nat.le_of_lt_succ room,parseStart_object members,?_,
    ⟨_,?_,unhex_hex response.bytes,?_⟩,_,readLines_escape sendable.bare,?_⟩
  · intro size fits
    rw [objGetString_object,List.lookup_cons,beq_self_eq_true]
    exact if_pos fits
  · rw [hex_length,response.size]
  · intro size fits
    have first : (challengeResponseKey == authIdKey) = false := by decide
    rw [objGetString_object,List.lookup_cons,first]
    simp only [List.lookup_cons,beq_self_eq_true]
    exact if_pos fits
  · intro size fits
    have first : (csrKey == authIdKey) = false := by decide
    have second : (csrKey == challengeResponseKey) = false := by decide
    rw [objGetString_object,List.lookup_cons,first]
    simp only [List.lookup_cons,second,beq_self_eq_true]
    exact if_pos fits

theorem trimmed_sendable {pem : Str} (sendable : Sendable pem) : Sendable (trimmed pem) := by
  have less : ∀ byte, byte ∈ trimmed pem → byte ∈ pem := by
    intro byte inside
    rw [trimmed] at inside
    split at inside
    · exact List.dropLast_subset pem inside
    · exact inside
  exact ⟨fun inside => sendable.clean (less _ inside),
    fun inside => sendable.unquoted (less _ inside),fun inside => sendable.bare (less _ inside)⟩

section Verdict
variable {hmacChallenge : Str → Option Digest} {calloc : Bool} {d : ClaimData Key} {mod : Module}
  {js : Str} {jctx : Ctx}

theorem handleSelfClaimInitResponse_refused (arrived : d.payload.text = some js)
    (started : parseStart calloc js = .ok jctx)
    (inside : objGetString jctx authIdKey 64 ≠ .error .outside)
    (inside' : objGetString jctx challengeKey 130 ≠ .error .outside)
    (missing : ¬∃ authId challenge, objGetString jctx authIdKey 64 = .ok authId ∧
      objGetString jctx challengeKey 130 = .ok challenge) :
    handleSelfClaimInitResponse hmacChallenge calloc d mod = some ⟨.fail,d,mod,[]⟩ := by
  rw [handleSelfClaimInitResponse,arrived]
  simp only [Option.bind_eq_bind,Option.bind_some,started]
  cases auth : objGetString jctx authIdKey 64 with
  | error e =>
    cases e with
    | outside => exact absurd auth inside
    | fail =>
      cases asked : objGetString jctx challengeKey 130 with
      | error e =>
        cases e with
        | outside => exact absurd asked inside'
        | fail => rfl
      | ok challenge => rfl
  | ok authId =>
    cases asked : objGetString jctx challengeKey 130 with
    | error e =>
      cases e with
      | outside => exact absurd asked inside'
      | fail => rfl
    | ok challenge => exact absurd ⟨authId,challenge,auth,asked⟩ missing

theorem handleSelfClaimInitResponse_taken (hmacChallenge : Str → Option Digest) (mod : Module)
    {authId challenge : Str} {response : Digest}
    (arrived : d.payload.text = some js) (started : parseStart calloc js = .ok jctx)
    (auth : objGetString jctx authIdKey 64 = .ok authId)
    (asked : objGetString jctx challengeKey 130 = .ok challenge)
    (answered : hmacChallenge challenge = some response) :
    handleSelfClaimInitResponse hmacChallenge calloc d mod =
      (generateVerifyRequest d authId response).map fun made => ⟨.ok,made.1,mod,made.2⟩ := by
  rw [handleSelfClaimInitResponse,arrived]
  simp only [Option.bind_eq_bind,Option.bind_some,started,auth,asked,answered]
  cases generateVerifyRequest d authId response <;> rfl

/-- What becomes of a response, whatever claim data it arrives in. -/
inductive Verdict (Key : Type) (hmacChallenge : Str → Option Digest) (calloc : Bool) (mod : Module)
    (js : Str) : Prop
  | outside (handled : ∀ d : ClaimData Key, d.payload.text = some js →
      handleSelfClaimInitResponse hmacChallenge calloc d mod = none)
  | rejected (handled : ∀ d : ClaimData Key, d.payload.text = some js →
      handleSelfClaimInitResponse hmacChallenge calloc d mod = some ⟨.fail,d,mod,[]⟩)
  | accepted {jctx authId challenge response} (started : parseStart calloc js = .ok jctx)
      (auth : objGetString jctx authIdKey 64 = .ok authId)
      (asked : objGetString jctx challengeKey 130 = .ok challenge)
      (answered : hmacChallenge challenge = some response)
      (handled : ∀ d : ClaimData Key, d.payload.text = some js →
        handleSelfClaimInitResponse hmacChallenge calloc d mod =
          (generateVerifyRequest d authId response).map fun made => ⟨.ok,made.1,mod,made.2⟩)

theorem initResponse_verdict (Key : Type) (hmacChallenge : Str → Option Digest) (calloc : Bool)
    (mod : Module) (js : Str) : Verdict Key hmacChallenge calloc mod js := by
  cases started : parseStart calloc js with
  | error e =>
    cases e with
    | outside =>
      exact .outside fun d arrived => by simp [handleSelfClaimInitResponse,arrived,started]
    | fail =>
      exact .rejected fun d arrived => by simp [handleSelfClaimInitResponse,arrived,started]
  | ok jctx =>
    by_cases outside : objGetString jctx authIdKey 64 = .error .outside
    · exact .outside fun d arrived => by simp [handleSelfClaimInitResponse,arrived,started,outside]
    by_cases outside' : objGetString jctx challengeKey 130 = .error .outside
    · exact .outside fun d arrived => by simp [handleSelfClaimInitResponse,arrived,started,outside']
    by_cases found : ∃ authId challenge, objGetString jctx authIdKey 64 = .ok authId ∧
        objGetString jctx challengeKey 130 = .ok challenge
    · obtain ⟨authId,challenge,auth,asked⟩ := found
      cases answered : hmacChallenge challenge with
      | none =>
        exact .rejected fun d arrived => by
          simp [handleSelfClaimInitResponse,arrived,started,auth,asked,answered]
      | some response =>
        exact .accepted started auth asked answered fun d arrived =>
          handleSelfClaimInitResponse_taken hmacChallenge mod arrived started auth asked answered
    · exact .rejected fun d arrived =>
        handleSelfClaimInitResponse_refused arrived started outside outside' found

theorem handleSelfClaimInitResponse_ok {o : InitOutcome Key} (arrived : d.payload.text = some js)
    (handled : handleSelfClaimInitResponse hmacChallenge calloc d mod = some o)
    (accepted : o.err = .ok) : ∃ jctx authId challenge response,
      parseStart calloc js = .ok jctx ∧ objGetString jctx authIdKey 64 = .ok authId ∧
      objGetString jctx challengeKey 130 = .ok challenge ∧
      hmacChallenge challenge = some response ∧
      generateVerifyRequest d authId response = some (o.data,o.codes) := by
  cases initResponse_verdict Key hmacChallenge calloc mod js with
  | outside outside => cases (outside d arrived).symm.trans handled
  | rejected rejected =>
    cases (rejected d arrived).symm.trans handled
    cases accepted
  | @accepted jctx authId challenge response started auth asked answered made =>
    obtain ⟨⟨data,codes⟩,generated,same⟩ :=
      Option.map_eq_some_iff.mp ((made d arrived).symm.trans handled)
    subst same
    exact ⟨jctx,authId,challenge,response,started,auth,asked,answered,generated⟩

end Verdict

/-- A response with an identity and a challenge that fit their buffers is accepted. -/
theorem handleSelfClaimInitResponse_members {hmacChallenge : Str → Option Digest}
    {d data : ClaimData Key} {authId challenge : Str} {response : Digest} {codes : List Int}
    (auth : StringBody authId) (short : authId.length < 64) (asked : StringBody challenge)
    (room : challenge.length < 130) (answered : hmacChallenge challenge = some response)
    (arrived : d.payload.text = some (objectText (authIdKey,authId) [(challengeKey,challenge)]))
    (generated : generateVerifyRequest d authId response = some (data,codes)) (mod : Module) :
    handleSelfClaimInitResponse hmacChallenge true d mod = some ⟨.ok,data,mod,codes⟩ := by
  have members : ∀ x ∈ [(authIdKey,authId),(challengeKey,challenge)], StringMember x := by
    intro x inside
    rcases List.mem_cons.mp inside with rfl | inside
    · exact ⟨authIdKey_body,auth⟩
    · rw [List.mem_singleton.mp inside]
      exact ⟨challengeKey_body,asked⟩
  have first := objGetString_object (authIdKey,authId) [(challengeKey,challenge)] authIdKey 64
  have second := objGetString_object (authIdKey,authId) [(challengeKey,challenge)] challengeKey 130
  have other : (challengeKey == authIdKey) = false := by decide
  simp only [List.lookup_cons,beq_self_eq_true,other] at first second
  rw [if_pos short] at first
  rw [if_pos room] at second
  rw [handleSelfClaimInitResponse_taken hmacChallenge mod arrived (parseStart_object members) first
    second answered,generated]
  rfl

/-- Every accepted claim init response leads to a complete claim verify request, with the
identity of that response, the HMAC of its challenge and the CSR that was escaped before. -/
theorem verify_request_complete {pem : Str} {begun : ClaimData Key} (sendable : Sendable pem)
    (filled : pem ≠ []) (held : begun.csr.text = some pem)
    (fits : (escape (trimmed pem)).length < maxCsrSize) :
    ∃ claimed, escapeNewLine begun = some claimed ∧
      ∀ (hmacChallenge : Str → Option Digest) (calloc : Bool) (d : ClaimData Key) (mod : Module)
        (o : InitOutcome Key) (js : Str), d.csr = claimed.csr → d.payload.text = some js →
        handleSelfClaimInitResponse hmacChallenge calloc d mod = some o → o.err = .ok →
        ∃ jctx authId challenge response, parseStart calloc js = .ok jctx ∧
          objGetString jctx authIdKey 64 = .ok authId ∧
          objGetString jctx challengeKey 130 = .ok challenge ∧
          hmacChallenge challenge = some response ∧ CompleteRequest o authId response pem := by
  obtain ⟨claimed,escaped,kept⟩ := escapeNewLine_text held filled fits
  refine ⟨claimed,escaped,?_⟩
  intro hmacChallenge calloc d mod o js same arrived handled accepted
  obtain ⟨jctx,authId,challenge,response,started,auth,asked,answered,generated⟩ :=
    handleSelfClaimInitResponse_ok arrived handled accepted
  rw [← same] at kept
  obtain ⟨body,short⟩ := objGetString_body started auth
  obtain ⟨data,codes,again,complete⟩ := generateVerifyRequest_complete
    (trimmed_sendable sendable) kept body short response mod
  cases Option.some.inj (again.symm.trans generated)
  exact ⟨jctx,authId,challenge,response,started,auth,asked,answered,complete.roomy,complete.parsed⟩

def someCsr : Str := [65,newLine]

def someDigest : Digest := ⟨List.replicate 64 7,rfl⟩

def someHmac (_ : Str) : Option Digest := some someDigest

def someResponse : Str := objectText (authIdKey,[97]) [(challengeKey,[98])]

def signing : ClaimData Unit := { ClaimData.calloc Unit with csr := .holding maxCsrSize someCsr }

def answering (d : ClaimData Unit) : ClaimData Unit :=
  { d with payload := .holding maxPayloadSize someResponse }

theorem verify_request_complete_accepting :
    ∃ claimed o authId, escapeNewLine signing = some claimed ∧
      handleSelfClaimInitResponse someHmac true (answering claimed) ⟨none,0⟩ = some o ∧
      o.err = .ok ∧ CompleteRequest o authId someDigest someCsr := by
  have sendable : Sendable someCsr := ⟨by decide,by decide,by decide⟩
  have held : signing.csr.text = some someCsr := by
    apply Region.text_holding
    · decide
    · decide
  have fits : (escape (trimmed someCsr)).length < maxCsrSize := by decide
  obtain ⟨claimed,escaped,complete⟩ := verify_request_complete sendable (by decide) held fits
  obtain ⟨claimed',again,kept⟩ := escapeNewLine_text held (by decide) fits
  cases Option.some.inj (again.symm.trans escaped)
  have arrived : (answering claimed).payload.text = some someResponse := by
    apply Region.text_holding
    · decide
    · decide
  have auth : StringBody [97] := stringBody_plain ⟨by decide,by decide,by decide⟩
  have asked : StringBody [98] := stringBody_plain ⟨by decide,by decide,by decide⟩
  obtain ⟨data,codes,generated,_⟩ := generateVerifyRequest_complete (d := answering claimed)
    (trimmed_sendable sendable) kept auth (by decide) someDigest ⟨none,0⟩
  have answered : someHmac [98] = some someDigest := rfl
  have accepted := handleSelfClaimInitResponse_members auth (by decide) asked (by decide) answered
    arrived generated ⟨none,0⟩
  obtain ⟨_,authId,_,response,_,_,_,same,whole⟩ :=
    complete someHmac true (answering claimed) ⟨none,0⟩ _ someResponse rfl arrived accepted rfl
  cases Option.some.inj same
  exact ⟨claimed,_,authId,escaped,accepted,rfl,whole⟩

end QuickConnect.Claim
