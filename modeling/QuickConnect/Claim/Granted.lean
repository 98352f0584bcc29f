import QuickConnect.Claim.Perform

/-! A claim as a whole: what each phase posts to the claim service, what comes of a service
that answers both requests, and a retried claim beside a first one. -/
namespace QuickConnect.Claim
open Text Trace Jsmn JsonParser
variable {Key : Type}

section Phases
variable {d d' : ClaimData Key} {mod mod' : Module} {station : Station} {attempt : Attempt}

theorem performCommon_posted {service : Service} {path : Str} {o : Outcome Key}
    (performed : performCommon service d path = some o) (accepted : o.err = .ok) :
    ∃ request, d.payload.text = some request ∧ o.posted = some (url path,request) := by
  rw [performCommon] at performed
  by_cases created : service.created = false
  · rw [if_pos created] at performed
    cases performed
    cases accepted
  rw [if_neg created] at performed
  obtain ⟨request,posts,performed⟩ := Option.bind_eq_some_iff.mp performed
  refine ⟨request,posts,?_⟩
  split at performed
  · cases performed
    cases accepted
  · split at performed
    · cases performed
      cases accepted
    · split at performed <;>
        obtain ⟨_,_,performed⟩ := Option.bind_eq_some_iff.mp performed <;> cases performed
      · rfl
      · cases accepted

theorem performCommon_err {service : Service} {path : Str} {o : Outcome Key}
    (performed : performCommon service d path = some o) : o.err = .ok ∨ o.err = .fail := by
  rw [performCommon] at performed
  split at performed
  · cases performed
    exact .inr rfl
  · obtain ⟨_,_,performed⟩ := Option.bind_eq_some_iff.mp performed
    split at performed
    · cases performed
      exact .inr rfl
    · split at performed
      · cases performed
        exact .inr rfl
      · split at performed <;>
          obtain ⟨_,_,performed⟩ := Option.bind_eq_some_iff.mp performed <;> cases performed
        · exact .inl rfl
        · exact .inr rfl

theorem handleSelfClaimInitResponse_mod {hmacChallenge : Str → Option Digest} {calloc : Bool}
    {o : InitOutcome Key} (handled : handleSelfClaimInitResponse hmacChallenge calloc d mod = some o) :
    o.mod = mod := by
  obtain ⟨js,arrived,_⟩ := Option.bind_eq_some_iff.mp handled
  cases initResponse_verdict Key hmacChallenge calloc mod js with
  | outside outside => cases (outside d arrived).symm.trans handled
  | rejected rejected =>
    cases (rejected d arrived).symm.trans handled
    rfl
  | accepted _ _ _ _ made =>
    obtain ⟨_,_,same⟩ := Option.map_eq_some_iff.mp ((made d arrived).symm.trans handled)
    subst same
    rfl

/-- After the init phase the payload holds the verify request for the CSR that was kept. -/
theorem performInit_request {csr : Str} (ready : d.Ready) (held : d.csr.text = some csr)
    (ended : (performInit station attempt d mod).ended = some (.ok,d',mod')) :
    ∃ authId response, d'.payload.text = some (verifyRequest authId response csr) ∧
      d'.csr = d.csr ∧ d'.Ready ∧ mod' = mod := by
  rw [performInit] at ended
  by_cases refused : attempt.getMac ≠ .ok
  · rw [generate_refused ready refused] at ended
    simp only [refused,if_true,ne_eq,not_false_eq_true] at ended
    exact absurd (Prod.mk.inj (Option.some.inj ended)).1 refused
  rw [not_not.mp refused] at ended
  obtain ⟨data,_,made,⟨_,kept⟩,_⟩ := generate_ready ready station
  simp only [made,ne_eq,not_true_eq_false,if_false] at ended
  split at ended
  · cases ended
  rename_i o performed
  have exchanged := (performCommon_exchanged performed).csr.trans kept
  split at ended
  · rename_i failed
    exact absurd (Prod.mk.inj (Option.some.inj ended)).1 failed
  obtain ⟨h,handled,same⟩ := Option.bind_eq_some_iff.mp ended
  obtain ⟨ok,same⟩ := Prod.mk.inj (Option.some.inj same)
  obtain ⟨same,left⟩ := Prod.mk.inj same
  rw [if_pos ok] at same
  subst same
  have unchanged := left.symm.trans (handleSelfClaimInitResponse_mod handled)
  have marked : ({ o.data with state := .init } : ClaimData Key).csr.text = some csr := by
    rw [← held,← exchanged]
  cases arrived : ({ o.data with state := .init } : ClaimData Key).payload.text with
  | none =>
    rw [handleSelfClaimInitResponse] at handled
    simp only [arrived,Option.bind_eq_bind,Option.bind_none,reduceCtorEq] at handled
  | some js =>
    obtain ⟨jctx,authId,_,response,started,auth,_,_,generated⟩ :=
      handleSelfClaimInitResponse_ok arrived handled ok
    obtain ⟨body,short⟩ := objGetString_body started auth
    obtain ⟨payload,codes,again,_,text⟩ :=
      generateVerifyRequest_text marked body.clean short response
    obtain ⟨same,_⟩ := Prod.mk.inj (Option.some.inj (generated.symm.trans again))
    rw [same]
    have done : ClaimState.pkGenerated.value ≤ ClaimState.initDone.value := by decide
    exact ⟨authId,response,text,exchanged,done,unchanged⟩

/-- What the verify response does to the certificate of the module. -/
inductive Certified (mod : Module) : EspErr → Module → Prop
  | taken (mod' : Module) : Certified mod .ok mod'
  | kept {mod' : Module} (same : mod'.certificate = mod.certificate) : Certified mod .fail mod'
  | lost {mod' : Module} (none : mod'.certificate = none) : Certified mod .noMem mod'

theorem handleClaimVerifyResponse_certified {calloc : Allocations}
    {payload : Region maxPayloadSize} {err : EspErr}
    (handled : handleClaimVerifyResponse calloc payload mod = some (err,mod')) :
    Certified mod err mod' := by
  obtain ⟨js,_,handled⟩ := Option.bind_eq_some_iff.mp handled
  split at handled
  · cases handled
  · cases handled
    exact .kept rfl
  · split at handled
    · cases handled
    · cases handled
      exact .kept rfl
    · split at handled
      · cases handled
        exact .lost rfl
      · obtain ⟨_,_,handled⟩ := Option.bind_eq_some_iff.mp handled
        obtain ⟨_,_,handled⟩ := Option.bind_eq_some_iff.mp handled
        cases handled
        exact .taken _

/-- A certificate taken from the response in this form is the one that was sent. -/
theorem handleClaimVerifyResponse_sent {calloc : Allocations} {payload : Region maxPayloadSize}
    {cert : Str} (sendable : Sendable cert) (lines : ¬blankLine <:+: cert)
    (arrived : payload.text = some (verifyResponse cert))
    (handled : handleClaimVerifyResponse calloc payload mod = some (.ok,mod')) :
    getSelfClaimCertificate mod' = some cert := by
  obtain ⟨last,whole,held⟩ := handleClaimVerifyResponse_certificate sendable arrived mod
  have same : handleClaimVerifyResponse calloc payload mod =
      handleClaimVerifyResponse ⟨true,true⟩ payload mod := by
    rw [handleClaimVerifyResponse,arrived] at handled ⊢
    simp only [Option.bind_eq_bind,Option.bind_some] at handled ⊢
    cases started : parseStart calloc.tokens (verifyResponse cert) with
    | error e =>
      rw [started] at handled
      cases e <;> cases handled
    | ok jctx =>
      rw [started] at handled
      simp only [handleClaimVerifyResponse,arrived,parseStart_allocated started,
        Option.bind_eq_bind,Option.bind_some]
      cases room : calloc.certificate with
      | true => rfl
      | false =>
        simp only [room,if_true] at handled
        split at handled <;> cases handled
  cases (whole.symm.trans same.symm).trans handled
  rw [held,(unescape_escape sendable.bare).mpr lines]

theorem performVerify_ended {err : EspErr}
    (ended : (performVerify attempt d mod).ended = some (err,d',mod')) :
    ∃ o, performCommon attempt.verify d claimVerifyPath = some o ∧
      d'.csr = d.csr ∧ (d.Ready → d'.Ready) ∧
      (o.err ≠ .ok ∧ err = o.err ∧ mod' = mod ∨
        o.err = .ok ∧ handleClaimVerifyResponse attempt.calloc o.data.payload mod = some (err,mod')) := by
  rw [performVerify] at ended
  split at ended
  · cases ended
  rename_i o performed
  have exchanged := performCommon_exchanged performed
  split at ended
  · rename_i failed
    cases ended
    refine ⟨o,performed,exchanged.csr,fun ready => ?_,.inl ⟨failed,rfl,rfl⟩⟩
    rw [ClaimData.Ready,exchanged.state]
    exact ready
  · rename_i accepted
    obtain ⟨⟨err,mod'⟩,handled,same⟩ := Option.bind_eq_some_iff.mp ended
    cases same
    refine ⟨o,performed,exchanged.csr,fun _ => ?_,.inr ⟨not_not.mp accepted,handled⟩⟩
    have verified : ClaimState.pkGenerated.value ≤ ClaimState.verifyDone.value := by decide
    have refused : ClaimState.pkGenerated.value ≤ ClaimState.verify.value := by decide
    rw [ClaimData.Ready]
    split
    · exact verified
    · exact refused

end Phases

section Served
variable {d : ClaimData Key} {mod : Module} {station : Station} {attempt : Attempt}
  {request text : Str}

/-- The service takes the whole request and accepts it with this response. -/
structure Service.Serves (service : Service) (request text : Str) : Prop where
  answers : service.Answers request
  accepts : 0 < service.headers ∧ service.status = 200
  response : service.readResponse maxPayloadSize = text

theorem Service.Serves.responseText {service : Service} (serves : service.Serves request text)
    (clean : 0 ∉ text) (fits : text.length < maxPayloadSize) :
    service.responseText = some text := by
  have whole : (text ++ [0]).length ≤ maxPayloadSize := by
    rw [List.length_append,List.length_singleton]
    exact fits
  rw [Service.responseText,serves.response,List.take_of_length_le whole]
  exact CString.read_terminated clean []

theorem performCommon_served {service : Service} (posts : d.payload.text = some request)
    (serves : service.Serves request text) (clean : 0 ∉ text)
    (fits : text.length < maxPayloadSize) (path : Str) :
    ∃ o, performCommon service d path = some o ∧ o.err = .ok ∧
      o.posted = some (url path,request) ∧ o.data.csr = d.csr ∧
      o.data.payload.text = some text := by
  obtain ⟨data,received⟩ := receive_stores service d
  obtain ⟨o,performed,_,_,done⟩ := performCommon_answered posts path serves.answers received
  have ok := done.mpr serves.accepts
  have exchanged := performCommon_exchanged performed
  obtain ⟨request',again,posted⟩ := performCommon_posted performed ok
  cases Option.some.inj (posts.symm.trans again)
  refine ⟨o,performed,ok,posted,exchanged.csr,?_⟩
  rw [(exchanged.answered ok).2,serves.responseText clean fits]

/-- A claim init response, and the two texts that the parser finds in it. -/
structure Challenge where
  response : Str
  authId : Str
  challenge : Str
  clean : 0 ∉ response
  fits : response.length < maxPayloadSize
  found : ∃ jctx, parseStart true response = .ok jctx ∧
    objGetString jctx authIdKey 64 = .ok authId ∧ objGetString jctx challengeKey 130 = .ok challenge

/-- An attempt that nothing goes wrong in. -/
structure Attempt.Grants (attempt : Attempt) (station : Station) (c : Challenge) (response : Digest)
    (csr cert : Str) : Prop where
  getMac : attempt.getMac = .ok
  init : ∃ request, CString.read (Text.printed maxPayloadSize (initRequest station) ++ [0]) =
    some request ∧ attempt.init.Serves request c.response
  initTokens : attempt.initTokens = true
  answered : attempt.hmacChallenge c.challenge = some response
  verify : attempt.verify.Serves (verifyRequest c.authId response csr) (verifyResponse cert)
  calloc : attempt.calloc = ⟨true,true⟩

theorem performInit_served {c : Challenge} {response : Digest} {csr cert : Str}
    (ready : d.Ready) (held : d.csr.text = some csr)
    (grants : attempt.Grants station c response csr cert) (mod : Module) :
    ∃ request d', performInit station attempt d mod =
        ⟨some (url claimInitPath,request),some (.ok,d',mod)⟩ ∧
      d'.payload.text = some (verifyRequest c.authId response csr) := by
  obtain ⟨request,read,serves⟩ := grants.init
  obtain ⟨data,request',made,⟨_,kept⟩,posts,again⟩ := generate_ready ready station
  cases Option.some.inj (read.symm.trans again)
  obtain ⟨o,performed,ok,posted,csr',arrived⟩ :=
    performCommon_served posts serves c.clean c.fits claimInitPath
  have marked : ({ o.data with state := .init } : ClaimData Key).csr.text = some csr := by
    rw [← held,← kept,← csr']
  obtain ⟨jctx,started,auth,asked⟩ := c.found
  obtain ⟨body,short⟩ := objGetString_body started auth
  obtain ⟨payload,codes,generated,_,text⟩ :=
    generateVerifyRequest_text marked body.clean short response
  have handled := handleSelfClaimInitResponse_taken attempt.hmacChallenge mod
    (d := { o.data with state := .init }) arrived started auth asked grants.answered
  rw [generated] at handled
  refine ⟨request,{ o.data with payload := payload, state := .initDone },?_,text⟩
  rw [performInit,grants.getMac,made]
  simp only [ne_eq,not_true_eq_false,if_false,performed,ok,posted,initHandled,grants.initTokens,
    handled,Option.map_some,Option.bind_eq_bind,Option.bind_some,if_true]

theorem verifyResponse_clean {cert : Str} (sendable : Sendable cert) : 0 ∉ verifyResponse cert := by
  rw [verifyResponse_object]
  apply objectText_clean
  intro x inside
  rw [List.mem_singleton.mp inside]
  exact ⟨certificateKey_body.clean,(stringBody_escape sendable).clean⟩

theorem performVerify_served {authId csr cert : Str} {response : Digest}
    (posts : d.payload.text = some (verifyRequest authId response csr))
    (serves : attempt.verify.Serves (verifyRequest authId response csr) (verifyResponse cert))
    (calloc : attempt.calloc = ⟨true,true⟩) (sendable : Sendable cert)
    (fits : (verifyResponse cert).length < maxPayloadSize) (mod : Module) :
    ∃ d' mod', performVerify attempt d mod =
        ⟨some (url claimVerifyPath,verifyRequest authId response csr),some (.ok,d',mod')⟩ ∧
      getSelfClaimCertificate mod' = some (unescape (escape cert)) := by
  obtain ⟨o,performed,ok,posted,_,arrived⟩ :=
    performCommon_served posts serves (verifyResponse_clean sendable) fits claimVerifyPath
  obtain ⟨mod',handled,held⟩ := handleClaimVerifyResponse_certificate sendable arrived mod
  refine ⟨{ o.data with state := .verifyDone },mod',?_,held⟩
  rw [performVerify,performed]
  simp only [ok,posted,ne_eq,not_true_eq_false,if_false,verifyHandled,calloc,handled,
    Option.bind_eq_bind,Option.bind_some,if_true]

/-- Both phases of an attempt that nothing goes wrong in. -/
theorem selfClaimPerform_served {c : Challenge} {response : Digest} {csr cert : Str}
    (ready : d.Ready) (held : d.csr.text = some csr)
    (grants : attempt.Grants station c response csr cert) (sendable : Sendable cert)
    (fits : (verifyResponse cert).length < maxPayloadSize) (mod : Module) :
    ∃ request mod', selfClaimPerform station attempt (some d) mod =
        ⟨some (url claimInitPath,request),
          some (url claimVerifyPath,verifyRequest c.authId response csr),
          some (.ok,none,mod')⟩ ∧
      getSelfClaimCertificate mod' = some (unescape (escape cert)) := by
  obtain ⟨request,middle,init,posts⟩ := performInit_served ready held grants mod
  obtain ⟨last,mod',verify,certificate⟩ :=
    performVerify_served posts grants.verify grants.calloc sendable fits mod
  refine ⟨request,mod',?_,certificate⟩
  simp only [selfClaimPerform,init,verify,ne_eq,not_true_eq_false,if_false,Option.map_some]

/-- However often the claim failed before, a service that answers both requests gets the CSR of
the key that was generated, and its certificate is what the claim ends with. -/
theorem claim_granted {mbedtls : Mbedtls Key} {calls : InitCalls Key} {name : Str}
    {before after : Option (List UInt8)} {d d' : ClaimData Key} {mod mod' : Module}
    {attempts : List Attempt} {c : Challenge} {response : Digest} {cert : Str}
    (begun : claimInit mbedtls calls (some name) (ClaimData.calloc Key) before = some (.ok,d,after))
    (failed : Runs (FailsInit Key station) (d,mod) attempts (d',mod'))
    (grants : attempt.Grants station c response
      (escape (trimmed (mbedtls.csrPem calls.key (subjectName name)))) cert)
    (sendable : Sendable cert) (fits : (verifyResponse cert).length < maxPayloadSize) :
    ∃ request mod'', selfClaimPerform station attempt (some d') mod' =
        ⟨some (url claimInitPath,request),
          some (url claimVerifyPath,verifyRequest c.authId response
            (escape (trimmed (mbedtls.csrPem calls.key (subjectName name))))),
          some (.ok,none,mod'')⟩ ∧
      getSelfClaimCertificate mod'' = some (unescape (escape cert)) ∧
      (getSelfClaimCertificate mod'' = some cert ↔ ¬blankLine <:+: cert) := by
  obtain ⟨_,same,begun⟩ := claimInit_begun begun
  cases same
  have ready : d.Ready := by
    rw [ClaimData.Ready,begun.state]
    decide
  obtain ⟨ready',csr,_⟩ := failsInit_run ready failed
  have held : d'.csr.text = some (escape (trimmed (mbedtls.csrPem calls.key (subjectName name)))) := by
    rw [csr,begun.csr]
  obtain ⟨request,mod'',performed,certificate⟩ :=
    selfClaimPerform_served ready' held grants sendable fits mod'
  refine ⟨request,mod'',performed,certificate,?_⟩
  rw [certificate,Option.some_inj]
  exact unescape_escape sendable.bare

end Served

/-- With a blank behind each colon and each comma. -/
def someChallenge : Challenge where
  response := bytes "\x7b\"auth_id\": \"a\", \"challenge\": \"b\"\x7d"
  authId := [97]
  challenge := [98]
  clean := by decide
  fits := by decide
  found := ⟨_,rfl,rfl,rfl⟩

theorem accepting_serves {text : Str} (request : Str) (filled : text ≠ [])
    (fits : text.length < maxPayloadSize) : (accepting request text).Serves request text := by
  have headers : 0 < text.length := List.length_pos_iff.mpr filled
  refine ⟨⟨rfl,rfl,rfl⟩,⟨Int.natCast_pos.mpr headers,rfl⟩,?_⟩
  rw [Service.readResponse,accepting,List.take_length,List.take_of_length_le (Nat.le_of_lt fits)]

def someCertificate : Str := [65,newLine,66]

theorem someCertificate_sendable : Sendable someCertificate := ⟨by decide,by decide,by decide⟩

theorem someCertificate_fits : (verifyResponse someCertificate).length < maxPayloadSize := by decide

/-- The CSR in the verify request. -/
def someEscaped : Str := escape (trimmed (someMbedtls.csrPem () (subjectName someName)))

def someVerifyRequest : Str := verifyRequest [97] someDigest someEscaped

/-- The first attempt fails, and the service answers both requests of the second one. -/
theorem second_served :
    ∃ (d d' : ClaimData Unit) (after : Option (List UInt8)) (attempt : Attempt),
      claimInit someMbedtls goodCalls (some someName) (ClaimData.calloc Unit) none =
        some (.ok,d,after) ∧ d'.Ready ∧ d'.csr.text = some someEscaped ∧
      Runs (FailsInit Unit someStation) (d,⟨none,0⟩) [unreachable] (d',⟨none,0⟩) ∧
      attempt.Grants someStation someChallenge someDigest someEscaped someCertificate := by
  have csr : goodCalls.CsrMade (some someName) := ⟨Option.some_ne_none _,rfl,rfl,rfl⟩
  obtain ⟨d,done,begun⟩ := claimInit_made someMbedtls (ClaimData.calloc Unit)
    (⟨rfl,rfl,rfl,rfl⟩ : goodCalls.KeyMade) rfl csr none
  have ready : d.Ready := by
    rw [ClaimData.Ready,begun.state]
    decide
  obtain ⟨d',first⟩ := unreachable_fails ready ⟨none,0⟩
  have failed : Runs (FailsInit Unit someStation) (d,⟨none,0⟩) [unreachable] (d',⟨none,0⟩) :=
    .snoc .nil first
  obtain ⟨ready',same,_⟩ := failsInit_run ready failed
  obtain ⟨_,request,_,_,_,read⟩ := generate_ready ready someStation
  refine ⟨d,d',_,⟨.ok,accepting request someChallenge.response,someHmac,true,
    accepting someVerifyRequest (verifyResponse someCertificate),⟨true,true⟩⟩,done,ready',?_,failed,
    rfl,⟨request,read,?_⟩,rfl,rfl,?_,rfl⟩
  · simp only at same
    rw [same,begun.csr]
    rfl
  · exact accepting_serves request (by decide) someChallenge.fits
  · exact accepting_serves someVerifyRequest (by decide) someCertificate_fits

/-- Reached at the second attempt. -/
theorem claim_granted_second :
    ∃ (d d' : ClaimData Unit) (after : Option (List UInt8)) (attempt : Attempt)
      (posted : Option (Str × Str)) (mod : Module),
      claimInit someMbedtls goodCalls (some someName) (ClaimData.calloc Unit) none =
        some (.ok,d,after) ∧
      Runs (FailsInit Unit someStation) (d,⟨none,0⟩) [unreachable] (d',⟨none,0⟩) ∧
      selfClaimPerform someStation attempt (some d') ⟨none,0⟩ =
        ⟨posted,some (url claimVerifyPath,someVerifyRequest),some (.ok,none,mod)⟩ ∧
      getSelfClaimCertificate mod = some someCertificate := by
  obtain ⟨d,d',after,attempt,done,_,_,failed,grants⟩ := second_served
  obtain ⟨_,mod,performed,certificate,_⟩ :=
    claim_granted done failed grants someCertificate_sendable someCertificate_fits
  refine ⟨d,d',after,attempt,_,mod,done,failed,performed,certificate.trans ?_⟩
  decide

section Retries
variable {station : Station}

end Retries

end QuickConnect.Claim
