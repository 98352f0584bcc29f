import QuickConnect.Claim.Required
import QuickConnect.Json.Bounds

/-! What the handlers of the two responses leave behind: the token arrays that are still
allocated, the certificate and the payload. -/
namespace QuickConnect.Claim
open Jsmn JsonParser
variable {Key : Type}

/-- The token arrays are as many as before, and after an error the certificate is the same. -/
structure Leaves (err : EspErr) (mod mod' : Module) : Prop where
  released : mod'.tokenArrays = mod.tokenArrays
  kept : err ≠ .ok → mod'.certificate = mod.certificate

theorem Leaves.rejected {err : EspErr} {mod mod' : Module} (leaves : Leaves err mod mod')
    (failed : err ≠ .ok) : mod' = mod := by
  cases mod
  cases mod'
  cases leaves.released
  cases leaves.kept failed
  rfl

section Init
variable {hmacChallenge : Str → Option Digest} {calloc : Bool} {d : ClaimData Key} {mod : Module}
  {o : InitOutcome Key}

theorem handleSelfClaimInitResponse_leaves
    (handled : handleSelfClaimInitResponse hmacChallenge calloc d mod = some o) :
    Leaves o.err mod o.mod ∧ (o.err ≠ .ok → o.data = d) := by
  obtain ⟨js,arrived,_⟩ := Option.bind_eq_some_iff.mp handled
  cases initResponse_verdict Key hmacChallenge calloc mod js with
  | outside outside => cases (outside d arrived).symm.trans handled
  | rejected rejected =>
    cases (rejected d arrived).symm.trans handled
    exact ⟨⟨rfl,fun _ => rfl⟩,fun _ => rfl⟩
  | accepted _ _ _ _ made =>
    obtain ⟨_,_,same⟩ := Option.map_eq_some_iff.mp ((made d arrived).symm.trans handled)
    subst same
    exact ⟨⟨rfl,fun _ => rfl⟩,fun failed => absurd rfl failed⟩

/-- With a string for a CSR the handler returns unless a name that it looks up is the last token
of all. -/
theorem handleSelfClaimInitResponse_returns {js csr : Str} (arrived : d.payload.text = some js)
    (held : d.csr.text = some csr) (followed : ∀ jctx, parseStart calloc js = .ok jctx →
      ∀ f ∈ initFields, ¬Last js jctx.tokens f.key) :
    ∃ o, handleSelfClaimInitResponse hmacChallenge calloc d mod = some o := by
  cases started : parseStart calloc js with
  | error e =>
    have failed := parseStart_fails started
    subst failed
    exact ⟨⟨.fail,d,mod,[]⟩,by simp [handleSelfClaimInitResponse,arrived,started]⟩
  | ok jctx =>
    obtain ⟨rfl,start,tokenized⟩ := parseStart_tokenized started
    obtain ⟨first,second⟩ := (init_fields (P := fun key _ => ¬Last jctx.js jctx.tokens key)).mp
      (followed jctx started)
    have inside := mt (objGetString_outside tokenized start 64).mp first
    have inside' := mt (objGetString_outside tokenized start 130).mp second
    by_cases found : ∃ authId challenge, objGetString jctx authIdKey 64 = .ok authId ∧
        objGetString jctx challengeKey 130 = .ok challenge
    · obtain ⟨authId,challenge,auth,asked⟩ := found
      cases answered : hmacChallenge challenge with
      | none =>
        refine ⟨⟨.fail,d,mod,[]⟩,?_⟩
        simp [handleSelfClaimInitResponse,arrived,started,auth,asked,answered]
      | some response =>
        obtain ⟨body,short⟩ := objGetString_body started auth
        obtain ⟨payload,codes,made,_⟩ := generateVerifyRequest_text held body.clean short response
        rw [handleSelfClaimInitResponse_taken hmacChallenge mod arrived started auth asked answered,
          made]
        exact ⟨_,rfl⟩
    · exact ⟨_,handleSelfClaimInitResponse_refused arrived started inside inside' found⟩

end Init

section Verify
variable {calloc : Allocations} {payload : Region maxPayloadSize} {mod : Module}

/-- The handler returns and leaves nothing behind. -/
def VerifyLeaves (calloc : Allocations) (payload : Region maxPayloadSize) (mod : Module) : Prop :=
  ∃ err mod', handleClaimVerifyResponse calloc payload mod = some (err,mod') ∧ Leaves err mod mod'

/-- The response is a string; and if the tokenizer accepts it, there is a certificate in it, and
memory for that or no certificate before. -/
def VerifyClean (calloc : Allocations) (payload : Region maxPayloadSize) (mod : Module) : Prop :=
  ∃ js, payload.text = some js ∧ ∀ jctx, parseStart calloc.tokens js = .ok jctx →
    (∃ v, Taken js jctx.tokens certificateKey none v) ∧
      (calloc.certificate = true ∨ mod.certificate = none)

theorem verifyLeaves_found {js : Str} {jctx : Ctx} {length : Int}
    (arrived : payload.text = some js) (started : parseStart calloc.tokens js = .ok jctx)
    (found : objGetStrlen jctx certificateKey = .ok length) :
    VerifyLeaves calloc payload mod ↔ calloc.certificate = true ∨ mod.certificate = none := by
  obtain ⟨tokens,certificate⟩ := calloc
  cases certificate with
  | true =>
    refine iff_of_true ?_ (Or.inl rfl)
    obtain ⟨_,_,_,_,done⟩ := handleClaimVerifyResponse_found arrived started found
    obtain ⟨memory,_,accepted⟩ := done mod
    exact ⟨_,_,accepted,rfl,fun failed => absurd rfl failed⟩
  | false =>
    have refused := handleClaimVerifyResponse_noMem arrived started found mod
    constructor
    · rintro ⟨err,mod',handled,leaves⟩
      cases refused.symm.trans handled
      have kept := leaves.kept (fun same => by cases same)
      exact Or.inr kept.symm
    · intro room
      refine ⟨_,_,refused,rfl,?_⟩
      intro _
      rcases room with other | none
      · cases other
      · exact none.symm

/-- Once the tokenizer accepts the response, the lookup of the certificate decides. -/
theorem verifyLeaves_started {js : Str} {jctx : Ctx} (arrived : payload.text = some js)
    (started : parseStart calloc.tokens js = .ok jctx) :
    VerifyLeaves calloc payload mod ↔
      (∃ v, Taken js jctx.tokens certificateKey none v) ∧
        (calloc.certificate = true ∨ mod.certificate = none) := by
  obtain ⟨rfl,start,tokenized⟩ := parseStart_tokenized started
  have taken := @objGetStrlen_taken _ certificateKey tokenized start
  cases found : objGetStrlen jctx certificateKey with
  | error e =>
    have untaken : ¬∃ v, Taken jctx.js jctx.tokens certificateKey none v := by
      rintro ⟨v,there⟩
      cases found.symm.trans (taken.mpr ⟨v,there,rfl⟩)
    refine iff_of_false ?_ (fun clean => untaken clean.1)
    rintro ⟨err,mod',handled,leaves⟩
    cases e with
    -- The lookup reads behind the last token.
    | outside => simp [handleClaimVerifyResponse,arrived,started,found] at handled
    | fail =>
      cases (handleClaimVerifyResponse_missing arrived started found mod).symm.trans handled
      exact absurd leaves.released (Nat.succ_ne_self _)
  | ok length =>
    rw [verifyLeaves_found arrived started found]
    obtain ⟨v,there,_⟩ := taken.mp found
    exact ⟨fun room => ⟨⟨v,there⟩,room⟩,And.right⟩

theorem verify_leaves_iff (calloc : Allocations) (payload : Region maxPayloadSize)
    (mod : Module) : VerifyLeaves calloc payload mod ↔ VerifyClean calloc payload mod := by
  constructor
  · rintro ⟨err,mod',handled,leaves⟩
    obtain ⟨js,arrived,_⟩ := Option.bind_eq_some_iff.mp (id handled)
    refine ⟨js,arrived,?_⟩
    intro jctx started
    exact (verifyLeaves_started arrived started).mp ⟨err,mod',handled,leaves⟩
  · rintro ⟨js,arrived,clean⟩
    cases started : parseStart calloc.tokens js with
    | error e =>
      have failed := parseStart_fails started
      subst failed
      exact ⟨.fail,mod,by simp [handleClaimVerifyResponse,arrived,started],rfl,fun _ => rfl⟩
    | ok jctx => exact (verifyLeaves_started arrived started).mpr (clean jctx started)

-- A name with nothing behind it sends the lookup behind the last token.
example : ¬VerifyClean ⟨true,true⟩ (.holding maxPayloadSize lonely) ⟨none,0⟩ := by
  intro clean
  obtain ⟨err,mod',handled,_⟩ := (verify_leaves_iff _ _ _).mpr clean
  have arrived : (Region.holding maxPayloadSize lonely).text = some lonely := by
    apply Region.text_holding <;> decide
  have started : parseStart true lonely = .ok ⟨lonely,lonelyTokens,0⟩ := rfl
  have outside : objGetStrlen ⟨lonely,lonelyTokens,0⟩ certificateKey = .error .outside := rfl
  simp [handleClaimVerifyResponse,arrived,started,outside] at handled

end Verify

section Responses

/-- One response handled, with the outcomes of the allocations and of the HMAC. -/
inductive Response (Key : Type)
  | init (hmacChallenge : Str → Option Digest) (calloc : Bool) (d : ClaimData Key)
  | verify (calloc : Allocations) (payload : Region maxPayloadSize)

namespace Response

def handle : Response Key → Module → Option (EspErr × Module)
  | init hmacChallenge calloc d, mod => do
    let o ← handleSelfClaimInitResponse hmacChallenge calloc d mod
    some (o.err,o.mod)
  | verify calloc payload, mod => handleClaimVerifyResponse calloc payload mod

def handleAll : List (Response Key) → Module → Option (List EspErr × Module)
  | [], mod => some ([],mod)
  | response :: rest, mod => do
    let (err,mod) ← response.handle mod
    let (errs,mod) ← handleAll rest mod
    some (err :: errs,mod)

def Clean (mod : Module) : Response Key → Prop
  | init _ _ _ => True
  | verify calloc payload => VerifyClean calloc payload mod

theorem handle_leaves {response : Response Key} {mod mod' : Module} {err : EspErr}
    (clean : response.Clean mod) (handled : response.handle mod = some (err,mod')) :
    Leaves err mod mod' := by
  cases response with
  | init hmacChallenge calloc d =>
    obtain ⟨o,ran,same⟩ := Option.bind_eq_some_iff.mp handled
    cases same
    exact (handleSelfClaimInitResponse_leaves ran).1
  | verify calloc payload =>
    obtain ⟨_,_,handled',leaves⟩ := (verify_leaves_iff calloc payload mod).mpr clean
    cases handled'.symm.trans handled
    exact leaves

/-- Any number of rejected responses leaves the heap and the certificate. -/
theorem handleAll_rejected (responses : List (Response Key)) : ∀ {mod mod' : Module}
    {errs : List EspErr}, handleAll responses mod = some (errs,mod') →
    (∀ err ∈ errs, err ≠ .ok) → (∀ response ∈ responses, response.Clean mod) → mod' = mod := by
  induction responses with
  | nil =>
    intro mod mod' errs ran _ _
    cases ran
    rfl
  | cons response rest ih =>
    intro mod mod' errs ran failed clean
    obtain ⟨⟨err,middle⟩,handled,rest'⟩ := Option.bind_eq_some_iff.mp ran
    obtain ⟨⟨others,last⟩,later,same⟩ := Option.bind_eq_some_iff.mp rest'
    cases same
    have here := (handle_leaves (clean response List.mem_cons_self) handled).rejected
      (failed err List.mem_cons_self)
    subst here
    apply ih later
    · intro other inside
      exact failed other (List.mem_cons_of_mem _ inside)
    · intro other inside
      exact clean other (List.mem_cons_of_mem _ inside)

end Response
end Responses

/-- The init handler leaves nothing behind, and returns unless a lookup leaves the tokens. The
verify handler returns and leaves nothing exactly for these responses, and any number of rejected
ones of both kinds then leaves everything as it was. -/
theorem responses_leave_nothing (Key : Type) (mod : Module) :
    (∀ (hmacChallenge : Str → Option Digest) (calloc : Bool) (d : ClaimData Key),
      (∀ o, handleSelfClaimInitResponse hmacChallenge calloc d mod = some o →
        Leaves o.err mod o.mod ∧ (o.err ≠ .ok → o.data.payload = d.payload)) ∧
      ∀ js csr, d.payload.text = some js → d.csr.text = some csr →
        (∀ jctx, parseStart calloc js = .ok jctx →
          ∀ f ∈ initFields, ¬Last js jctx.tokens f.key) →
        ∃ o, handleSelfClaimInitResponse hmacChallenge calloc d mod = some o) ∧
    (∀ calloc payload, VerifyLeaves calloc payload mod ↔ VerifyClean calloc payload mod) ∧
    ∀ (responses : List (Response Key)) (errs : List EspErr) (mod' : Module),
      Response.handleAll responses mod = some (errs,mod') → (∀ err ∈ errs, err ≠ .ok) →
      (∀ response ∈ responses, response.Clean mod) → mod' = mod := by
  refine ⟨?_,?_,?_⟩
  · intro hmacChallenge calloc d
    refine ⟨?_,fun js csr => handleSelfClaimInitResponse_returns⟩
    intro o handled
    obtain ⟨leaves,data⟩ := handleSelfClaimInitResponse_leaves handled
    exact ⟨leaves,fun failed => congrArg ClaimData.payload (data failed)⟩
  · intro calloc payload
    exact verify_leaves_iff calloc payload mod
  · intro responses errs mod' ran failed clean
    exact Response.handleAll_rejected responses ran failed clean

/-- An object without a certificate. -/
def uncertified : Region maxPayloadSize := .holding maxPayloadSize (Text.bytes "\x7b\x7d")

theorem uncertified_handled (mod : Module) :
    handleClaimVerifyResponse ⟨true,true⟩ uncertified mod = some (.fail,mod.parseStarted) := by
  have arrived : uncertified.text = some (Text.bytes "\x7b\x7d") := by
    apply Region.text_holding <;> decide
  have started : parseStart true (Text.bytes "\x7b\x7d") =
      .ok ⟨Text.bytes "\x7b\x7d",[⟨.object,0,2,0,-1⟩],0⟩ := rfl
  exact handleClaimVerifyResponse_missing arrived started rfl mod

/-- Each response without a certificate leaves its token array, and without memory for the
certificate the one before is lost. -/
theorem responses_leak :
    (∃ err mod', handleClaimVerifyResponse ⟨true,true⟩ uncertified ⟨none,0⟩ = some (err,mod') ∧
      ¬Leaves err ⟨none,0⟩ mod') ∧
    (∀ n mod, ∃ errs, Response.handleAll
      (List.replicate n (Response.verify ⟨true,true⟩ uncertified : Response Unit)) mod =
        some (errs,⟨mod.certificate,mod.tokenArrays + n⟩)) ∧
    ∃ err mod', handleClaimVerifyResponse ⟨true,false⟩
        (.holding maxPayloadSize (verifyResponse [65])) ⟨some [66,0],0⟩ = some (err,mod') ∧
      ¬Leaves err ⟨some [66,0],0⟩ mod' := by
  refine ⟨?_,?_,?_⟩
  · refine ⟨_,_,uncertified_handled _,?_⟩
    intro leaves
    exact absurd leaves.released (Nat.succ_ne_self 0)
  · intro n
    induction n with
    | zero =>
      intro mod
      exact ⟨[],rfl⟩
    | succ n ih =>
      intro mod
      obtain ⟨errs,ran⟩ := ih mod.parseStarted
      refine ⟨.fail :: errs,?_⟩
      rw [List.replicate_succ,Response.handleAll,Response.handle,uncertified_handled]
      simp only [Option.bind_eq_bind,Option.bind_some,ran]
      rw [Module.parseStarted,Nat.add_assoc,Nat.add_comm 1]
  · have arrived : (Region.holding maxPayloadSize (verifyResponse [65])).text =
        some (verifyResponse [65]) := by
      apply Region.text_holding <;> decide
    have started : parseStart true (verifyResponse [65]) =
        .ok ⟨verifyResponse [65],certificateTokens,0⟩ := rfl
    have found : objGetStrlen ⟨verifyResponse [65],certificateTokens,0⟩ certificateKey = .ok 1 :=
      rfl
    refine ⟨_,_,handleClaimVerifyResponse_noMem arrived started found ⟨some [66,0],0⟩,?_⟩
    intro leaves
    cases leaves.kept (fun same => by cases same)

end QuickConnect.Claim
