import QuickConnect.Claim.Extraction
import QuickConnect.Claim.InitResponse
import QuickConnect.Json.Members

/-! The members that the two responses of the claim service are required to have, and what
the handlers take for them. -/
namespace QuickConnect.Claim
open Text Jsmn JsonParser ScanLoop
variable {Key : Type}

/-- A field that a handler looks up, and the size of the buffer for it if that is fixed. -/
structure Field where
  key : Str
  size : Option Nat

def initFields : List Field := [⟨authIdKey,some 64⟩,⟨challengeKey,some 130⟩]

def verifyFields : List Field := [⟨certificateKey,none⟩]

/-- The name of a field is a token directly under the first root, and no colon and value
follow it. -/
def Lone (fields : List Field) (js : Str) (tokens : List Token) : Prop :=
  ∃ f ∈ fields, ∃ (i : Nat) (name : Token), Named js tokens f.key i ∧ tokens[i]? = some name ∧
    ¬Coloned js name

/-- No first token of a name is the last one of all; and if each has a string behind it that
its buffer has room for, it stands between the braces and no such name stands alone. The
names are tokens directly under the first root, as json_obj_search compares them, whatever
the lookups find: a lone one is such a token without a colon and the start of a value. -/
structure Given (fields : List Field) (js : Str) (tokens : List Token) : Prop where
  followed : ∀ f ∈ fields, ¬Last js tokens f.key
  members : (∀ f ∈ fields, ∃ v, Taken js tokens f.key f.size v) → ∀ f ∈ fields,
    (∀ i name, FirstNamed js tokens f.key i → tokens[i]? = some name → Within tokens name) ∧
    ∀ i name, Named js tokens f.key i → tokens[i]? = some name → Coloned js name

section Given
variable {js key v : Str} {tokens : List Token} {size : Option Nat} {fields : List Field}

theorem taken_member (tokenized : Tokenized js tokens) (taken : Taken js tokens key size v)
    (within : ∀ i name, FirstNamed js tokens key i → tokens[i]? = some name → Within tokens name)
    (coloned : ∀ i name, Named js tokens key i → tokens[i]? = some name → Coloned js name) :
    HasMember js tokens key v := by
  obtain ⟨⟨value,⟨i,first,behind⟩,string,place,spelt⟩,_⟩ := taken
  obtain ⟨name,found,_⟩ := first.named.child
  exact coloned_member tokenized first.named found (coloned i name first.named found)
    (within i name first found) behind string spelt

/-- A member between the braces has no name before it outside them. -/
theorem member_within (tokenized : Tokenized js tokens) (member : HasMember js tokens key v)
    {i : Nat} {name : Token} (first : FirstNamed js tokens key i) (found : tokens[i]? = some name) :
    Within tokens name := by
  obtain ⟨j,other,root,before,after,rest,named,there,top,_,_,_,_,_,braces⟩ := member
  obtain ⟨pos,spans⟩ := tokenized.spans
  have kind := named_string tokenized first.named found
  intro root' top'
  cases top.symm.trans top'
  rcases Nat.lt_or_ge i j with less | least
  · have inside := (List.getElem?_eq_some_iff.mp there).1
    obtain ⟨place,k,opens⟩ :=
      spans.spelt j other inside there (named_string tokenized named there)
    have order := (spans.ordered i j name other less inside found there).2 kind
    have start := opens.start
    have stop := opens.stop
    omega
  · rcases Nat.lt_or_eq_of_le least with more | rfl
    · exact absurd named (first.first j more)
    · cases found.symm.trans there
      omega

theorem member_taken {f : Field} {v' : Str} (inside : f ∈ fields) (tokenized : Tokenized js tokens)
    (together : ¬Lone fields js tokens) (member : HasMember js tokens f.key v')
    (taken : Taken js tokens f.key size v) : HasMember js tokens f.key v := by
  apply taken_member tokenized taken
  · intro i name first found
    exact member_within tokenized member first found
  · intro i name named found
    by_contra lone
    exact together ⟨f,inside,i,name,named,found,lone⟩

/-- The condition says what acceptance has to mean: no child of the first root is a lone name,
and what is taken for a field is one of the members there. -/
theorem given_iff (tokenized : Tokenized js tokens) : Given fields js tokens ↔
    (∀ f ∈ fields, ¬Last js tokens f.key) ∧
    ((∀ f ∈ fields, ∃ v, Taken js tokens f.key f.size v) → ¬Lone fields js tokens ∧
      ∀ f ∈ fields, ∀ v, Taken js tokens f.key f.size v → HasMember js tokens f.key v) := by
  constructor
  · rintro ⟨followed,members⟩
    refine ⟨followed,?_⟩
    intro every
    have proper := members every
    refine ⟨?_,?_⟩
    · rintro ⟨f,inside,i,name,named,found,lone⟩
      exact lone ((proper f inside).2 i name named found)
    · intro f inside v taken
      exact taken_member tokenized taken (proper f inside).1 (proper f inside).2
  · rintro ⟨followed,accepted⟩
    refine ⟨followed,?_⟩
    intro every f inside
    obtain ⟨together,member⟩ := accepted every
    refine ⟨?_,?_⟩
    · intro i name first found
      obtain ⟨v,taken⟩ := every f inside
      exact member_within tokenized (member f inside v taken) first found
    · intro i name named found
      by_contra lone
      exact together ⟨f,inside,i,name,named,found,lone⟩

end Given

theorem parseStart_allocated {allocated : Bool} {js : Str} {jctx : Ctx}
    (started : parseStart allocated js = .ok jctx) : parseStart true js = .ok jctx := by
  cases allocated with
  | true => exact started
  | false =>
    obtain ⟨counted,_,rest⟩ := except_bind started
    cases rest

section Init

/-- What is required of handle_self_claim_init_response for the response in this payload: its
lookups stay inside the token array; what it takes from an accepted response are members of
the first root; and a response with a lone name is refused. -/
def InitRequired (Key : Type) (payload : Region maxPayloadSize) : Prop :=
  ∀ (hmacChallenge : Str → Option Digest) (calloc : Bool) (d : ClaimData Key) (mod : Module)
    (js : Str), d.payload = payload → payload.text = some js →
    (∀ jctx, parseStart calloc js = .ok jctx →
      objGetString jctx authIdKey 64 ≠ .error .outside ∧
      objGetString jctx challengeKey 130 ≠ .error .outside ∧
      (Lone initFields js jctx.tokens →
        ∃ o, handleSelfClaimInitResponse hmacChallenge calloc d mod = some o ∧ o.err ≠ .ok)) ∧
    ∀ o, handleSelfClaimInitResponse hmacChallenge calloc d mod = some o → o.err = .ok →
      ∃ jctx authId challenge response, parseStart calloc js = .ok jctx ∧
        HasMember js jctx.tokens authIdKey authId ∧
        HasMember js jctx.tokens challengeKey challenge ∧
        hmacChallenge challenge = some response ∧
        generateVerifyRequest d authId response = some (o.data,o.codes)

variable {hmacChallenge : Str → Option Digest} {calloc : Bool} {d : ClaimData Key} {mod : Module}
  {js : Str} {jctx : Ctx}

/-- The claim data of a device that has begun no request but keeps this payload. -/
def keeping (Key : Type) (payload : Region maxPayloadSize) : ClaimData Key :=
  { ClaimData.calloc Key with payload := payload }

theorem keeping_generates (Key : Type) (payload : Region maxPayloadSize) {authId : Str}
    (auth : StringBody authId) (short : authId.length < 64) (response : Digest) :
    ∃ made, generateVerifyRequest (keeping Key payload) authId response = some made := by
  have sendable : Sendable (trimmed []) :=
    ⟨List.not_mem_nil,List.not_mem_nil,List.not_mem_nil⟩
  obtain ⟨data,codes,made,_⟩ := generateVerifyRequest_complete (d := keeping Key payload)
    sendable rfl auth short response ⟨none,0⟩
  exact ⟨_,made⟩

theorem init_fields {P : Str → Option Nat → Prop} :
    (∀ f ∈ initFields, P f.key f.size) ↔ P authIdKey (some 64) ∧ P challengeKey (some 130) := by
  simp [initFields]

theorem authId_looked : (⟨authIdKey,some 64⟩ : Field) ∈ initFields := List.mem_cons_self

theorem challenge_looked : (⟨challengeKey,some 130⟩ : Field) ∈ initFields :=
  List.mem_cons_of_mem _ List.mem_cons_self

theorem taken_body {key v : Str} {tokens : List Token} {size : Nat}
    (taken : Taken js tokens key (some size) v) : StringBody v ∧ v.length < size := by
  obtain ⟨⟨value,_,_,place,spelt⟩,short⟩ := taken
  exact ⟨spelt.valid,short size rfl⟩

theorem init_taken {tokens : List Token} {authId challenge : Str}
    (first : Taken js tokens authIdKey (some 64) authId)
    (second : Taken js tokens challengeKey (some 130) challenge) :
    ∀ f ∈ initFields, ∃ v, Taken js tokens f.key f.size v :=
  (init_fields (P := fun key size => ∃ v, Taken js tokens key size v)).mpr
    ⟨⟨authId,first⟩,⟨challenge,second⟩⟩

theorem init_required_of_given {payload : Region maxPayloadSize}
    (given : ∀ js jctx, payload.text = some js → parseStart true js = .ok jctx →
      Given initFields js jctx.tokens) : InitRequired Key payload := by
  rintro hmacChallenge calloc d mod js rfl arrived
  refine ⟨?_,?_⟩
  · intro jctx started
    obtain ⟨rfl,start,tokenized⟩ := parseStart_tokenized started
    obtain ⟨followed,accepted⟩ :=
      (given_iff tokenized).mp (given _ jctx arrived (parseStart_allocated started))
    obtain ⟨first,second⟩ :=
      (init_fields (P := fun key _ => ¬Last jctx.js jctx.tokens key)).mp followed
    have inside := mt (objGetString_outside tokenized start 64).mp first
    have inside' := mt (objGetString_outside tokenized start 130).mp second
    refine ⟨inside,inside',?_⟩
    intro lone
    refine ⟨_,handleSelfClaimInitResponse_refused arrived started inside inside' ?_,?_⟩
    · rintro ⟨authId,challenge,auth,asked⟩
      have every := init_taken ((objGetString_taken tokenized start).mp auth)
        ((objGetString_taken tokenized start).mp asked)
      exact (accepted every).1 lone
    · exact fun same => by cases same
  · intro o handled done
    obtain ⟨jctx,authId,challenge,response,started,auth,asked,answered,made⟩ :=
      handleSelfClaimInitResponse_ok arrived handled done
    obtain ⟨rfl,start,tokenized⟩ := parseStart_tokenized started
    obtain ⟨_,accepted⟩ :=
      (given_iff tokenized).mp (given _ jctx arrived (parseStart_allocated started))
    have first := (objGetString_taken tokenized start).mp auth
    have second := (objGetString_taken tokenized start).mp asked
    have members := (accepted (init_taken first second)).2
    refine ⟨jctx,authId,challenge,response,started,?_,?_,answered,made⟩
    · exact members _ authId_looked authId first
    · exact members _ challenge_looked challenge second

theorem given_of_init_required {payload : Region maxPayloadSize}
    (required : InitRequired Key payload) (arrived : payload.text = some js)
    (started : parseStart true js = .ok jctx) : Given initFields js jctx.tokens := by
  have held : (keeping Key payload).payload.text = some js := arrived
  obtain ⟨rfl,start,tokenized⟩ := parseStart_tokenized started
  apply (given_iff tokenized).mpr
  refine ⟨?_,?_⟩
  · obtain ⟨inside,inside',_⟩ :=
      (required (fun _ => none) true (keeping Key payload) ⟨none,0⟩ _ rfl arrived).1 jctx started
    apply (init_fields (P := fun key _ => ¬Last jctx.js jctx.tokens key)).mpr
    refine ⟨?_,?_⟩
    · exact fun last => inside ((objGetString_outside tokenized start _).mpr last)
    · exact fun last => inside' ((objGetString_outside tokenized start _).mpr last)
  · intro every
    obtain ⟨⟨authId,first⟩,challenge,second⟩ :=
      (init_fields (P := fun key size => ∃ v, Taken jctx.js jctx.tokens key size v)).mp every
    have response : Digest := ⟨List.replicate 64 0,rfl⟩
    obtain ⟨body,short⟩ := taken_body first
    obtain ⟨made,generated⟩ := keeping_generates Key payload body short response
    have handled := handleSelfClaimInitResponse_taken (fun _ => some response) ⟨none,0⟩ held
      started ((objGetString_taken tokenized start).mpr first)
      ((objGetString_taken tokenized start).mpr second) rfl
    rw [generated] at handled
    obtain ⟨looked,accepted⟩ :=
      required (fun _ => some response) true (keeping Key payload) ⟨none,0⟩ _ rfl arrived
    have together : ¬Lone initFields jctx.js jctx.tokens := by
      intro lone
      obtain ⟨o,refused,failed⟩ := (looked jctx started).2.2 lone
      cases handled.symm.trans refused
      exact failed rfl
    refine ⟨together,?_⟩
    obtain ⟨jctx',authId',challenge',response',started',auth,asked,_⟩ := accepted _ handled rfl
    cases started.symm.trans started'
    -- Whatever was taken, a member is between the braces, and so is the first name.
    apply (init_fields (P := fun key size => ∀ v, Taken jctx.js jctx.tokens key size v →
      HasMember jctx.js jctx.tokens key v)).mpr
    refine ⟨?_,?_⟩
    · intro v taken
      exact member_taken authId_looked tokenized together auth taken
    · intro v taken
      exact member_taken challenge_looked tokenized together asked taken

/-- Exactly for these responses the handler takes only members that are there. -/
theorem init_required_iff (payload : Region maxPayloadSize) : InitRequired Key payload ↔
    ∀ js jctx, payload.text = some js → parseStart true js = .ok jctx →
      Given initFields js jctx.tokens :=
  ⟨fun required _ _ => given_of_init_required required,init_required_of_given⟩

end Init

section Verify

/-- What is required of handle_claim_verify_response for the response in this payload. -/
def VerifyRequired (payload : Region maxPayloadSize) : Prop :=
  ∀ (calloc : Allocations) (mod : Module) (js : Str), payload.text = some js →
    (∀ jctx, parseStart calloc.tokens js = .ok jctx →
      objGetStrlen jctx certificateKey ≠ .error .outside ∧
      (∀ length, objGetStrlen jctx certificateKey = .ok length →
        objGetString jctx certificateKey (length.toNat + 1) ≠ .error .outside) ∧
      (Lone verifyFields js jctx.tokens →
        ∃ err mod', handleClaimVerifyResponse calloc payload mod = some (err,mod') ∧ err ≠ .ok)) ∧
    ∀ mod', handleClaimVerifyResponse calloc payload mod = some (.ok,mod') →
      ∃ jctx certificate memory, parseStart calloc.tokens js = .ok jctx ∧
        HasMember js jctx.tokens certificateKey certificate ∧
        unescapeNewLine (certificate ++ [0,0]) = some memory ∧ mod'.certificate = some memory

variable {payload : Region maxPayloadSize} {calloc : Allocations} {mod mod' : Module} {js : Str}
  {jctx : Ctx}

theorem certificate_looked : (⟨certificateKey,none⟩ : Field) ∈ verifyFields := List.mem_cons_self

theorem verify_fields {P : Str → Option Nat → Prop} :
    (∀ f ∈ verifyFields, P f.key f.size) ↔ P certificateKey none := by
  simp [verifyFields]

/-- Only a certificate that is found and has its memory is accepted. -/
theorem handleClaimVerifyResponse_ok (arrived : payload.text = some js)
    (handled : handleClaimVerifyResponse calloc payload mod = some (.ok,mod')) :
    calloc.certificate = true ∧ ∃ jctx length, parseStart calloc.tokens js = .ok jctx ∧
      objGetStrlen jctx certificateKey = .ok length := by
  rw [handleClaimVerifyResponse,arrived] at handled
  simp only [Option.bind_eq_bind,Option.bind_some] at handled
  split at handled
  · cases handled
  · cases handled
  · rename_i jctx started
    split at handled
    · cases handled
    · cases handled
    · rename_i length found
      split at handled
      · cases handled
      · rename_i room
        exact ⟨by simpa using room,jctx,length,started,found⟩

theorem verify_taken {tokens : List Token} {s : Str}
    (taken : Taken js tokens certificateKey none s) :
    ∀ f ∈ verifyFields, ∃ v, Taken js tokens f.key f.size v :=
  (verify_fields (P := fun key size => ∃ v, Taken js tokens key size v)).mpr ⟨s,taken⟩

/-- The certificate that is copied is the string behind the first token of its name. -/
theorem handleClaimVerifyResponse_taken {allocated : Bool} {length : Int}
    (arrived : payload.text = some js) (started : parseStart allocated js = .ok jctx)
    (found : objGetStrlen jctx certificateKey = .ok length) (mod : Module) :
    ∃ s, Taken jctx.js jctx.tokens certificateKey none s ∧ ∃ memory,
      unescapeNewLine (s ++ [0,0]) = some memory ∧
      handleClaimVerifyResponse ⟨allocated,true⟩ payload mod =
        some (.ok,{ mod with certificate := some memory }) := by
  obtain ⟨s,_,_,copy,handled⟩ := handleClaimVerifyResponse_found arrived started found
  obtain ⟨rfl,start,tokenized⟩ := parseStart_tokenized started
  obtain ⟨behind,_⟩ := (objGetString_taken tokenized start).mp copy
  exact ⟨s,⟨behind,fun _ none => by cases none⟩,handled mod⟩

theorem verify_required_of_given
    (given : ∀ js jctx, payload.text = some js → parseStart true js = .ok jctx →
      Given verifyFields js jctx.tokens) : VerifyRequired payload := by
  intro calloc mod js arrived
  refine ⟨?_,?_⟩
  · intro jctx started
    obtain ⟨rfl,start,tokenized⟩ := parseStart_tokenized started
    obtain ⟨followed,accepted⟩ :=
      (given_iff tokenized).mp (given _ jctx arrived (parseStart_allocated started))
    have first := followed _ certificate_looked
    have inside := mt (objGetStrlen_outside tokenized start).mp first
    refine ⟨inside,fun _ _ => mt (objGetString_outside tokenized start _).mp first,?_⟩
    intro lone
    have missing : objGetStrlen jctx certificateKey = .error .fail := by
      cases found : objGetStrlen jctx certificateKey with
      | ok length =>
        obtain ⟨v,taken,_⟩ := (objGetStrlen_taken tokenized start).mp found
        exact absurd lone (accepted (verify_taken taken)).1
      | error e =>
        cases e with
        | outside => exact absurd found inside
        | fail => rfl
    exact ⟨_,_,handleClaimVerifyResponse_missing arrived started missing mod,
      fun same => by cases same⟩
  · intro mod' handled
    obtain ⟨room,jctx,length,started,found⟩ := handleClaimVerifyResponse_ok arrived handled
    obtain ⟨s,taken,memory,ran,same⟩ := handleClaimVerifyResponse_taken arrived started found mod
    rw [← room] at same
    cases same.symm.trans handled
    obtain ⟨rfl,start,tokenized⟩ := parseStart_tokenized started
    obtain ⟨_,accepted⟩ :=
      (given_iff tokenized).mp (given _ jctx arrived (parseStart_allocated started))
    have members := (accepted (verify_taken taken)).2
    exact ⟨jctx,s,memory,started,members _ certificate_looked s taken,ran,rfl⟩

theorem given_of_verify_required (required : VerifyRequired payload)
    (arrived : payload.text = some js) (started : parseStart true js = .ok jctx) :
    Given verifyFields js jctx.tokens := by
  obtain ⟨same,start,tokenized⟩ := parseStart_tokenized started
  obtain ⟨looked,accepted⟩ := required ⟨true,true⟩ ⟨none,0⟩ js arrived
  obtain ⟨inside,_,lonely⟩ := looked jctx started
  rw [← same] at tokenized ⊢
  apply (given_iff tokenized).mpr
  refine ⟨?_,?_⟩
  · apply (verify_fields (P := fun key _ => ¬Last jctx.js jctx.tokens key)).mpr
    exact fun last => inside ((objGetStrlen_outside tokenized start).mpr last)
  · intro every
    obtain ⟨v,taken⟩ := (verify_fields (P := fun key size =>
      ∃ v, Taken jctx.js jctx.tokens key size v)).mp every
    have found := (objGetStrlen_taken tokenized start).mpr ⟨v,taken,rfl⟩
    obtain ⟨s,_,memory,_,handled⟩ :=
      handleClaimVerifyResponse_taken arrived started found ⟨none,0⟩
    have together : ¬Lone verifyFields jctx.js jctx.tokens := by
      intro lone
      obtain ⟨err,mod',refused,failed⟩ := lonely (same ▸ lone)
      cases handled.symm.trans refused
      exact failed rfl
    refine ⟨together,?_⟩
    obtain ⟨jctx',certificate,_,started',member,_⟩ := accepted _ handled
    cases started.symm.trans started'
    rw [← same] at member
    apply (verify_fields (P := fun key size => ∀ v, Taken jctx.js jctx.tokens key size v →
      HasMember jctx.js jctx.tokens key v)).mpr
    intro v taken
    exact member_taken certificate_looked tokenized together member taken

theorem verify_required_iff (payload : Region maxPayloadSize) : VerifyRequired payload ↔
    ∀ js jctx, payload.text = some js → parseStart true js = .ok jctx →
      Given verifyFields js jctx.tokens :=
  ⟨fun required _ _ => given_of_verify_required required,verify_required_of_given⟩

end Verify

/-- Both handlers take only members that are really there, exactly for these responses. -/
theorem members_required (Key : Type) (payload : Region maxPayloadSize) :
    (InitRequired Key payload ↔
      ∀ js jctx, payload.text = some js → parseStart true js = .ok jctx →
        Given initFields js jctx.tokens) ∧
    (VerifyRequired payload ↔
      ∀ js jctx, payload.text = some js → parseStart true js = .ok jctx →
        Given verifyFields js jctx.tokens) :=
  ⟨init_required_iff payload,verify_required_iff payload⟩

def certificateTokens : List Token :=
  [⟨.object,0,19,1,-1⟩,⟨.string,2,13,1,0⟩,⟨.string,16,17,0,1⟩]

/-- A response that meets the condition, and what the handler takes from it. -/
theorem certificate_given : Given verifyFields (verifyResponse [65]) certificateTokens ∧
    Taken (verifyResponse [65]) certificateTokens certificateKey none [65] := by
  have only : ∀ i, Named (verifyResponse [65]) certificateTokens certificateKey i → i = 1 := by
    rintro i ⟨_,token,found,under,_⟩
    match i,found with
    | 0,rfl => cases under
    | 1,_ => rfl
    | 2,rfl => cases under
  have named : Named (verifyResponse [65]) certificateTokens certificateKey 1 :=
    ⟨⟨_,rfl,rfl⟩,_,rfl,rfl,rfl⟩
  have first : FirstNamed (verifyResponse [65]) certificateTokens certificateKey 1 := by
    refine ⟨named,?_⟩
    intro j before other
    have same := only j other
    omega
  refine ⟨⟨?_,?_⟩,⟨_,⟨1,first,rfl⟩,rfl,15,?_⟩,fun _ none => by cases none⟩
  · apply (verify_fields (P := fun key _ =>
      ¬Last (verifyResponse [65]) certificateTokens key)).mpr
    rintro ⟨i,last,outside⟩
    cases only i last.named
    exact absurd outside (by decide)
  · intro _
    apply (verify_fields (P := fun key _ =>
      (∀ i name, FirstNamed (verifyResponse [65]) certificateTokens key i →
        certificateTokens[i]? = some name → Within certificateTokens name) ∧
      ∀ i name, Named (verifyResponse [65]) certificateTokens key i →
        certificateTokens[i]? = some name → Coloned (verifyResponse [65]) name)).mpr
    refine ⟨?_,?_⟩
    · intro i name found there
      cases only i found.named
      cases there
      rintro root top
      cases top
      decide
    · intro i name found there
      cases only i found
      cases there
      exact ⟨[],[],quote,[65,quote,125],rfl,by simp [Blank],by simp [Blank],rfl⟩
  · have body : StringBody [65] := .plain (by decide) (by decide) (by decide) .nil
    exact ⟨rfl,rfl,body,[125],rfl⟩

example : VerifyRequired (.holding maxPayloadSize (verifyResponse [65])) := by
  apply (verify_required_iff _).mpr
  intro js jctx arrived started
  have held : (Region.holding maxPayloadSize (verifyResponse [65])).text =
      some (verifyResponse [65]) := by
    apply Region.text_holding <;> decide
  cases held.symm.trans arrived
  have tokenized : parseStart true (verifyResponse [65]) =
      .ok ⟨verifyResponse [65],certificateTokens,0⟩ := rfl
  cases tokenized.symm.trans started
  exact certificate_given.1

/-- A name and a string with nothing but a blank between them. -/
def colonless : Str := Text.bytes "\x7b\"certificate\" \"x\"\x7d"

/-- A name with nothing behind it. -/
def lonely : Str := Text.bytes "\x7b\"certificate\"\x7d"

def colonlessTokens : List Token :=
  [⟨.object,0,19,2,-1⟩,⟨.string,2,13,0,0⟩,⟨.string,16,17,0,0⟩]

def lonelyTokens : List Token := [⟨.object,0,15,1,-1⟩,⟨.string,2,13,0,0⟩]

theorem colonless_lone : Lone verifyFields colonless colonlessTokens := by
  refine ⟨_,certificate_looked,1,⟨.string,2,13,0,0⟩,⟨⟨_,rfl,rfl⟩,_,rfl,rfl,rfl⟩,rfl,?_⟩
  rintro ⟨before,after,c,rest,text,_⟩
  have remaining : colonless.drop 13 = [quote,32,quote,120,quote,125] := rfl
  have colon : (58 : UInt8) ∈ colonless.drop 13 := by
    change colonless.drop 13 = _ at text
    rw [text]
    simp
  rw [remaining] at colon
  revert colon
  decide

/-- The first response is accepted without a colon, and for the second one the lookup leaves
the token array. -/
theorem colonless_accepted :
    ¬VerifyRequired (.holding maxPayloadSize colonless) ∧
    ¬VerifyRequired (.holding maxPayloadSize lonely) := by
  refine ⟨?_,?_⟩
  · intro required
    have arrived : (Region.holding maxPayloadSize colonless).text = some colonless := by
      apply Region.text_holding <;> decide
    have started : parseStart true colonless = .ok ⟨colonless,colonlessTokens,0⟩ := rfl
    obtain ⟨looked,_⟩ := required ⟨true,true⟩ ⟨none,0⟩ colonless arrived
    obtain ⟨err,mod',refused,failed⟩ := (looked _ started).2.2 colonless_lone
    have found : objGetStrlen ⟨colonless,colonlessTokens,0⟩ certificateKey = .ok 1 := rfl
    obtain ⟨s,_,_,_,handled⟩ := handleClaimVerifyResponse_found arrived started found
    obtain ⟨memory,_,accepted⟩ := handled ⟨none,0⟩
    cases accepted.symm.trans refused
    exact failed rfl
  · intro required
    have arrived : (Region.holding maxPayloadSize lonely).text = some lonely := by
      apply Region.text_holding <;> decide
    have started : parseStart true lonely = .ok ⟨lonely,lonelyTokens,0⟩ := rfl
    obtain ⟨looked,_⟩ := required ⟨true,true⟩ ⟨none,0⟩ lonely arrived
    exact (looked _ started).1 rfl

end QuickConnect.Claim
