import QuickConnect.Claim.Granted
import QuickConnect.Firmware.Recovery
import QuickConnect.Lib.Heap

/-! The tasks of main.c over esp_rmaker_claim.c. Where a task calls into that file, what the
call returns is computed from the claim data on the heap and the globals there. -/
namespace QuickConnect.Firmware
variable {Key : Type}

/-- The claim data of esp_rmaker_claim.c, by address, and its globals. -/
structure Memory (Key : Type) where
  objects : List (Claim.ClaimData Key)
  mod : Claim.Module
  privateKey : Option (List UInt8)

def Memory.fresh (Key : Type) : Memory Key := ⟨[],⟨none,0⟩,none⟩

structure Assembly (Key : Type) where
  device : Device
  memory : Memory Key

/-- The outcome of a step, or what a call into esp_rmaker_claim.c meets with. -/
inductive Input (Key : Type)
  | plain (o : Outcome)
  | calls (calls : Claim.InitCalls Key)
  | attempt (attempt : Claim.Attempt)

/-- A step that does not call into esp_rmaker_claim.c leaves the memory of that file. -/
def Input.outcome (i : Input Key) (m : Memory Key) : Option (Outcome × Memory Key) :=
  match i with
  | .plain o => some (o,m)
  | _ => none

section
variable (mbedtls : Claim.Mbedtls Key) (target : Str) (m : Memory Key)

/-- esp_rmaker_self_claim_init. Without memory for the claim data it never returns, and claim
data that is released before there was a key is never seen. -/
def Memory.begin (name : Option Str) (calls : Claim.InitCalls Key) :
    Option (Outcome × Memory Key) :=
  if calls.eventGroup = false ∨ calls.task = false then some (.fail,m)
  else if calls.claimData = false then none
  else match Claim.claimInit mbedtls calls name (.calloc Key) m.privateKey with
    | none => some (.noMemory,m)
    | some (err,data,privateKey) =>
      if (Claim.generateKey mbedtls calls (.calloc Key)).1 ≠ .ok then some (.fail,m)
      else (privateKey.bind CString.read).map fun text =>
        (if err = .ok then .pem text else .noCsr text,
          { m with objects := m.objects ++ [data], privateKey := privateKey })

/-- The init phase of esp_rmaker_self_claim_perform. -/
def Memory.init (mac : Vector UInt8 6) (address : Nat) (attempt : Claim.Attempt) :
    Option (Outcome × Memory Key) := do
  let data ← m.objects[address]?
  let (err,data,mod) ← (Claim.performInit ⟨mac,target⟩ attempt data m.mod).ended
  some (if err = .ok then .ok else .fail,
    { m with objects := m.objects.set address data, mod := mod })

/-- Its verify phase. -/
def Memory.verify (address : Nat) (attempt : Claim.Attempt) : Option (Outcome × Memory Key) := do
  let data ← m.objects[address]?
  let (err,data,mod) ← (Claim.performVerify attempt data m.mod).ended
  let left : Memory Key := { m with objects := m.objects.set address data, mod := mod }
  match err with
  | .ok => (Claim.getSelfClaimCertificate mod).map fun text => (.pem text,left)
  | .noMem => some (.noMemory,left)
  | _ => some (.fail,left)

def answer (a : Assembly Key) (i : Input Key) : Task → Option (Outcome × Memory Key)
  | .privKey .generate => match i with
    | .calls calls => a.memory.begin mbedtls a.device.pcNodeId calls
    | _ => none
  | .cert (.performInit address) => match i with
    | .attempt attempt => a.memory.init target a.device.mac address attempt
    | _ => none
  | .cert (.performVerify address) => match i with
    | .attempt attempt => a.memory.verify address attempt
    | _ => none
  | _ => i.outcome a.memory

def assemble (c : Config) (m : Memory Key) : TaskPool.Config (Assembly Key) Task :=
  ⟨⟨c.shared,m⟩,c.tasks⟩

def outline (c : TaskPool.Config (Assembly Key) Task) : Config := ⟨c.shared.device,c.tasks⟩

/-- The firmware with what it calls of esp_rmaker_claim.c. -/
def assembled : TaskPool.Machine (Assembly Key) Task (Input Key) where
  exec a t i := (answer mbedtls target a i t).bind fun (o,m) =>
    (exec a.device t o).map fun (d,next) => (⟨d,m⟩,next)
  restart a := assemble (boot a.device.mac a.device.nvs) (.fresh Key)

end

section
variable (issues : Str → Str → Prop)

/-- A request that the service accepts is answered with a certificate issued for it. -/
def Issuing (service : Claim.Service) (request : Str) : Prop :=
  service.status = 200 → ∃ cert, service.responseText = some (Claim.verifyResponse cert) ∧
    Claim.Sendable cert ∧ ¬Claim.blankLine <:+: cert ∧ issues request cert

/-- Reads are reliable, using released claim data crashes, and the claim service issues its
certificate for the request that it received. -/
def issuing (Key : Type) : TaskPool.Policy (Assembly Key) Task (Input Key) where
  permits c t i := (∀ o, i = .plain o → reads t o = true) ∧
    (t = .cert .enter → i ≠ .plain .wild) ∧
    ∀ address attempt data request, t = .cert (.performVerify address) → i = .attempt attempt →
      c.shared.memory.objects[address]? = some data → data.payload.text = some request →
      Issuing issues attempt.verify request
  restarts := True

variable (mbedtls : Claim.Mbedtls Key)

/-- The request with which a certificate is asked for. -/
def claimRequest (key : Key) (name authId : Str) (response : Claim.Digest) : Str :=
  Claim.verifyRequest authId response
    (Claim.escape (Claim.trimmed (mbedtls.csrPem key (Claim.subjectName name))))

/-- The certificate was issued for a CSR that this key signed. -/
def IssuedFor (cert keyText : Str) : Prop := ∃ key name authId response,
  keyText = mbedtls.keyPem key ∧ issues (claimRequest mbedtls key name authId response) cert

end

section
variable (mbedtls : Claim.Mbedtls Key)

/-- The claim data holds the CSR of the key that the device has for it. -/
def Signed (object : ClaimObject) (data : Claim.ClaimData Key) : Prop :=
  object.frees = 0 → data.Ready ∧ ∃ key name, object.key = mbedtls.keyPem key ∧
    data.csr.text = some (Claim.escape (Claim.trimmed (mbedtls.csrPem key (Claim.subjectName name))))

/-- What the device model says of esp_rmaker_claim.c is so. -/
structure Agrees (a : Assembly Key) : Prop where
  objects : Heap.Related (Signed mbedtls) a.device.claimData a.memory.objects
  certificate : a.device.selfClaimCertificate = Claim.getSelfClaimCertificate a.memory.mod
  privateKey : a.device.selfClaimPrivateKey = a.memory.privateKey.bind CString.read

/-- The payload holds the request for the key of this claim data. -/
def Requesting (object : ClaimObject) (data : Claim.ClaimData Key) : Prop :=
  ∃ key name authId response, object.key = mbedtls.keyPem key ∧
    data.payload.text = some (claimRequest mbedtls key name authId response)

def CertPoint.Backed (a : Assembly Key) : CertPoint → Prop
  | .performInit address => a.device.claimDataLive address
  | .performVerify address => a.device.claimDataLive address ∧ ∃ object data,
      a.device.claimData[address]? = some object ∧ a.memory.objects[address]? = some data ∧
      Requesting mbedtls object data
  | _ => True

structure Assembled (issues : Str → Str → Prop) (c : TaskPool.Config (Assembly Key) Task) :
    Prop where
  consistent : Consistent (IssuedFor issues mbedtls) (outline c)
  agrees : Agrees mbedtls c.shared
  cert : ∀ point, .cert point ∈ c.tasks → point.Backed mbedtls c.shared

end

section Calls
variable {mbedtls : Claim.Mbedtls Key} {target : Str} {m m' : Memory Key} {o : Outcome}
  {issues : Str → Str → Prop}

/-- What esp_rmaker_self_claim_init leaves behind. -/
inductive Memory.Began (mbedtls : Claim.Mbedtls Key) (m : Memory Key) : Outcome → Memory Key → Prop
  | nothing : Began mbedtls m .fail m
  | faulted : Began mbedtls m .noMemory m
  | released (key : Key) (data : Claim.ClaimData Key) :
      Began mbedtls m (.noCsr (mbedtls.keyPem key)) { m with
        objects := m.objects ++ [data], privateKey := some (mbedtls.keyPem key ++ [0]) }
  | signed {key : Key} {data : Claim.ClaimData Key}
      (signed : Signed mbedtls ⟨mbedtls.keyPem key,0⟩ data) :
      Began mbedtls m (.pem (mbedtls.keyPem key)) { m with
        objects := m.objects ++ [data], privateKey := some (mbedtls.keyPem key ++ [0]) }

theorem claimInit_copied {calls : Claim.InitCalls Key} {name : Option Str} {err : Claim.EspErr}
    {d d' : Claim.ClaimData Key} {privateKey privateKey' : Option (List UInt8)}
    (made : calls.KeyMade)
    (done : Claim.claimInit mbedtls calls name d privateKey = some (err,d',privateKey')) :
    privateKey' = some (mbedtls.keyPem calls.key ++ [0]) := by
  cases copy : calls.keyCopy with
  | false =>
    rw [Claim.claimInit_faults mbedtls d made copy] at done
    cases done
  | true =>
    rw [Claim.claimInit_keyed made copy] at done
    split at done
    · obtain ⟨_,_,same⟩ := Option.bind_eq_some_iff.mp done
      cases same
      rfl
    · cases done
      rfl

theorem begin_began {name : Option Str} {calls : Claim.InitCalls Key}
    (began : m.begin mbedtls name calls = some (o,m')) : m.Began mbedtls o m' := by
  rw [Memory.begin] at began
  split at began
  · cases began
    exact .nothing
  split at began
  · cases began
  split at began
  · cases began
    exact .faulted
  rename_i err data privateKey done
  split at began
  · cases began
    exact .nothing
  rename_i keyed
  have made : calls.KeyMade := by
    by_contra failed
    exact keyed (Claim.generateKey_failed failed)
  have copied := claimInit_copied made done
  subst copied
  have read : CString.read (mbedtls.keyPem calls.key ++ [0]) = some (mbedtls.keyPem calls.key) :=
    CString.read_terminated (mbedtls.key_clean calls.key) []
  simp only [Option.bind_some,read,Option.map_some,Option.some_inj] at began
  split at began
  · rename_i ok
    cases began
    subst ok
    obtain ⟨commonName,_,begun⟩ := Claim.claimInit_begun done
    refine .signed fun _ => ⟨?_,calls.key,commonName,rfl,begun.csr⟩
    rw [Claim.ClaimData.Ready,begun.state]
    decide
  · cases began
    exact .released calls.key data

/-- What the init phase leaves: the claim data with the same CSR, and after a success a request. -/
structure Memory.Initiated (mbedtls : Claim.Mbedtls Key) (m : Memory Key) (object : ClaimObject)
    (address : Nat) (o : Outcome) (m' : Memory Key) : Prop where
  left : ∃ data, m' = { m with objects := m.objects.set address data } ∧ Signed mbedtls object data ∧
    (o = .ok → Requesting mbedtls object data)
  outcome : o = .ok ∨ o = .fail

theorem init_initiated {mac : Vector UInt8 6} {address : Nat} {attempt : Claim.Attempt}
    {object : ClaimObject} (live : object.frees = 0)
    (signed : ∀ data, m.objects[address]? = some data → Signed mbedtls object data)
    (initiated : m.init target mac address attempt = some (o,m')) :
    m.Initiated mbedtls object address o m' := by
  obtain ⟨data,found,initiated⟩ := Option.bind_eq_some_iff.mp initiated
  obtain ⟨⟨err,data',mod⟩,ended,same⟩ := Option.bind_eq_some_iff.mp initiated
  obtain ⟨ready,key,name,own,csr⟩ := signed data found live
  simp only [Option.some_inj,Prod.mk.injEq] at same
  obtain ⟨rfl,rfl⟩ := same
  by_cases ok : err = .ok
  · subst ok
    obtain ⟨authId,response,text,kept,again,rfl⟩ := Claim.performInit_request ready csr ended
    refine ⟨⟨data',rfl,fun _ => ⟨again,key,name,own,kept ▸ csr⟩,fun _ => ?_⟩,.inl rfl⟩
    exact ⟨key,name,authId,response,own,text⟩
  · obtain ⟨again,kept,rfl⟩ := Claim.performInit_failed ready ended ok
    rw [if_neg ok]
    exact ⟨⟨data',rfl,fun _ => ⟨again,key,name,own,kept ▸ csr⟩,fun same => by cases same⟩,.inr rfl⟩

/-- What the verify phase leaves: the claim data with the same CSR, and the certificate. -/
structure Memory.Concluded (mbedtls : Claim.Mbedtls Key) (m : Memory Key) (object : ClaimObject)
    (address : Nat) (o : Outcome) (m' : Memory Key) : Prop where
  left : ∃ data mod, m' = { m with objects := m.objects.set address data, mod := mod } ∧
    Signed mbedtls object data
  certificate : (∃ text, o = .pem text ∧ Claim.getSelfClaimCertificate m'.mod = some text) ∨
    o = .noMemory ∧ Claim.getSelfClaimCertificate m'.mod = none ∨
    o = .fail ∧ Claim.getSelfClaimCertificate m'.mod = Claim.getSelfClaimCertificate m.mod

theorem verify_concluded {address : Nat} {attempt : Claim.Attempt} {object : ClaimObject}
    (live : object.frees = 0)
    (signed : ∀ data, m.objects[address]? = some data → Signed mbedtls object data)
    (concluded : m.verify address attempt = some (o,m')) :
    m.Concluded mbedtls object address o m' := by
  obtain ⟨data,found,concluded⟩ := Option.bind_eq_some_iff.mp concluded
  obtain ⟨⟨err,data',mod⟩,ended,same⟩ := Option.bind_eq_some_iff.mp concluded
  obtain ⟨ready,key,name,own,csr⟩ := signed data found live
  obtain ⟨exchange,performed,kept,again,handled⟩ := Claim.performVerify_ended ended
  have signed' : Signed mbedtls object data' := fun _ => ⟨again ready,key,name,own,kept ▸ csr⟩
  have certified : Claim.Certified m.mod err mod := by
    rcases handled with ⟨failed,rfl,rfl⟩ | ⟨_,handled⟩
    · rcases Claim.performCommon_err performed with ok | fail
      · exact absurd ok failed
      · rw [fail]
        exact .kept rfl
    · exact Claim.handleClaimVerifyResponse_certified handled
  cases certified with
  | taken =>
    obtain ⟨text,held,same⟩ := Option.map_eq_some_iff.mp same
    cases same
    exact ⟨⟨data',mod,rfl,signed'⟩,.inl ⟨text,rfl,held⟩⟩
  | kept unchanged =>
    cases same
    refine ⟨⟨data',mod,rfl,signed'⟩,.inr (.inr ⟨rfl,?_⟩)⟩
    rw [Claim.getSelfClaimCertificate,unchanged]
    rfl
  | lost none =>
    cases same
    refine ⟨⟨data',mod,rfl,signed'⟩,.inr (.inl ⟨rfl,?_⟩)⟩
    rw [Claim.getSelfClaimCertificate,none]
    rfl

/-- The certificate that the verify phase ends with was issued for the request in the payload. -/
theorem verify_issued {address : Nat} {attempt : Claim.Attempt} {data : Claim.ClaimData Key}
    {request text : Str} (found : m.objects[address]? = some data)
    (issuing : Issuing issues attempt.verify request)
    (concluded : m.verify address attempt = some (.pem text,m')) : issues request text := by
  obtain ⟨other,again,concluded⟩ := Option.bind_eq_some_iff.mp concluded
  cases found.symm.trans again
  obtain ⟨⟨err,data',mod⟩,ended,same⟩ := Option.bind_eq_some_iff.mp concluded
  obtain ⟨exchange,performed,_,_,handled⟩ := Claim.performVerify_ended ended
  cases err with
  | ok =>
    obtain ⟨text,held,same⟩ := Option.map_eq_some_iff.mp same
    cases same
    rcases handled with ⟨failed,ok,_⟩ | ⟨accepted,handled⟩
    · exact absurd ok.symm failed
    · obtain ⟨status,arrived⟩ := (Claim.performCommon_exchanged performed).answered accepted
      obtain ⟨cert,sent,sendable,lines,issued⟩ := issuing status
      have taken := Claim.handleClaimVerifyResponse_sent sendable lines (arrived.trans sent) handled
      cases held.symm.trans taken
      exact issued
  | _ => cases same

end Calls

/-- The task calls into esp_rmaker_claim.c, where only claim data is freed otherwise. -/
def Task.calls : Task → Bool
  | .privKey .generate | .cert (.performInit _) | .cert (.performVerify _) => true
  | _ => false

def Task.frees : Task → Bool
  | .cert (.release _ _) => true
  | _ => false

section Runs
variable {mbedtls : Claim.Mbedtls Key} {target : Str} {issues : Str → Str → Prop}
  {a : Assembly Key} {m : Memory Key} {d d' : Device} {before after next : List Task} {t : Task}
  {i : Input Key} {o : Outcome}

theorem answer_quiet (quiet : t.calls = false) :
    answer mbedtls target a i t = i.outcome a.memory := by
  cases t with
  | privKey point => cases point <;> first | rfl | cases quiet
  | cert point => cases point <;> first | rfl | cases quiet
  | _ => rfl

theorem answer_plain (quiet : t.calls = false) (answered : answer mbedtls target a i t = some (o,m)) :
    i = .plain o ∧ m = a.memory := by
  rw [answer_quiet quiet] at answered
  cases i <;> cases answered
  exact ⟨rfl,rfl⟩

theorem claims_kept (quiet : t.calls = false) (kept : t.frees = false)
    (ran : taskStep d o t = some (d',next)) :
    d'.claimData = d.claimData ∧ d'.selfClaimPrivateKey = d.selfClaimPrivateKey ∧
      d'.selfClaimCertificate = d.selfClaimCertificate := by
  cases t with
  | privKey point =>
    cases point <;> first | cases quiet; done | skip
    all_goals
      cases o <;> simp only [taskStep,prvGetPrivKeyTask,proceed,call,reduceCtorEq] at ran
    all_goals (try split at ran) <;> cases ran <;> exact ⟨rfl,rfl,rfl⟩
  | cert point =>
    cases point <;> first | cases quiet; done | cases kept; done | skip
    case waiting =>
      obtain ⟨_,_,rfl,_⟩ := awaitBits_some.mp ran
      exact ⟨rfl,rfl,rfl⟩
    all_goals
      cases o <;> simp only [taskStep,prvGetCertTask,proceed,call,reduceCtorEq] at ran
    all_goals (try split at ran) <;> (try split at ran) <;> cases ran <;> exact ⟨rfl,rfl,rfl⟩
  | _ =>
    obtain ⟨_,_,_,heap,key,cert,_,_⟩ := secrets_eq ((taskStep_effect ran).secrets rfl)
    exact ⟨heap,key,cert⟩

theorem CertPoint.Backed.mono {point : CertPoint} (backed : point.Backed mbedtls a)
    (heap : ∀ (address : Nat) object, a.device.claimData[address]? = some object →
      d'.claimData[address]? = some object)
    (objects : ∀ (address : Nat) data, a.memory.objects[address]? = some data →
      m.objects[address]? = some data) : point.Backed mbedtls ⟨d',m⟩ := by
  cases point with
  | performInit address =>
    obtain ⟨object,found,live⟩ := backed
    exact ⟨object,heap address object found,live⟩
  | performVerify address =>
    obtain ⟨⟨object,found,live⟩,other,data,again,held,requesting⟩ := backed
    exact ⟨⟨object,heap address object found,live⟩,other,data,heap address other again,
      objects address data held,requesting⟩
  | _ => trivial

theorem Agrees.began (agrees : Agrees mbedtls a) (began : a.memory.Began mbedtls o m)
    (ran : prvGetPrivKeyTask a.device o .generate = some (d',next)) : Agrees mbedtls ⟨d',m⟩ := by
  have read (key : Key) : some (mbedtls.keyPem key) =
      (some (mbedtls.keyPem key ++ [0])).bind CString.read :=
    (CString.read_terminated (mbedtls.key_clean key) []).symm
  cases began with
  | nothing | faulted =>
    cases ran
    exact ⟨agrees.objects,agrees.certificate,agrees.privateKey⟩
  | released key data =>
    cases ran
    exact ⟨agrees.objects.allocated (fun live => by cases live),agrees.certificate,read key⟩
  | @signed key data signed =>
    cases ran
    exact ⟨agrees.objects.allocated signed,agrees.certificate,read key⟩

theorem Agrees.initiated (agrees : Agrees mbedtls a) {address : Nat} {object : ClaimObject}
    (found : a.device.claimData[address]? = some object)
    (initiated : a.memory.Initiated mbedtls object address o m)
    (ran : prvGetCertTask a.device o (.performInit address) = some (d',next)) :
    Agrees mbedtls ⟨d',m⟩ := by
  obtain ⟨data,rfl,signed,_⟩ := initiated.left
  have same : d' = a.device := by
    rcases call_some.mp ran with ⟨_,ran⟩ | ⟨_,ran⟩ <;> cases ran <;> rfl
  subst same
  refine ⟨agrees.objects.changed ?_,agrees.certificate,agrees.privateKey⟩
  intro other again
  cases found.symm.trans again
  exact signed

theorem Agrees.concluded (agrees : Agrees mbedtls a) {address : Nat} {object : ClaimObject}
    (found : a.device.claimData[address]? = some object)
    (concluded : a.memory.Concluded mbedtls object address o m)
    (ran : prvGetCertTask a.device o (.performVerify address) = some (d',next)) :
    Agrees mbedtls ⟨d',m⟩ := by
  obtain ⟨data,mod,rfl,signed⟩ := concluded.left
  have related : Heap.Related (Signed mbedtls) a.device.claimData
      (a.memory.objects.set address data) := by
    refine agrees.objects.changed fun other again => ?_
    cases found.symm.trans again
    exact signed
  rcases concluded.certificate with ⟨text,rfl,held⟩ | ⟨rfl,none⟩ | ⟨rfl,same⟩ <;> cases ran
  · exact ⟨related,held.symm,agrees.privateKey⟩
  · exact ⟨related,none.symm,agrees.privateKey⟩
  · exact ⟨related,agrees.certificate.trans same.symm,agrees.privateKey⟩

theorem CertPoint.backed_began {point : CertPoint} (began : a.memory.Began mbedtls o m)
    (ran : prvGetPrivKeyTask a.device o .generate = some (d',next))
    (backed : point.Backed mbedtls a) : point.Backed mbedtls ⟨d',m⟩ := by
  cases began <;> cases ran
  · exact backed.mono (fun _ _ => id) (fun _ _ => id)
  · exact backed.mono (fun _ _ => id) (fun _ _ => id)
  · exact backed.mono (fun _ _ found => Heap.found_allocated found _)
      fun _ _ found => Heap.found_allocated found _
  · exact backed.mono (fun _ _ found => Heap.found_allocated found _)
      fun _ _ found => Heap.found_allocated found _

theorem Agrees.run (agrees : Agrees mbedtls a)
    (backed : ∀ point, t = .cert point → point.Backed mbedtls a)
    (answered : answer mbedtls target a i t = some (o,m))
    (ran : taskStep a.device o t = some (d',next)) : Agrees mbedtls ⟨d',m⟩ := by
  cases quiet : t.calls with
  | false =>
    obtain ⟨_,rfl⟩ := answer_plain quiet answered
    cases kept : t.frees with
    | false =>
      obtain ⟨heap,key,cert⟩ := claims_kept quiet kept ran
      refine ⟨?_,cert.trans agrees.certificate,key.trans agrees.privateKey⟩
      rw [heap]
      exact agrees.objects
    | true =>
      cases t with
      | cert point =>
        cases point <;> try cases kept
        obtain ⟨_,ran⟩ := proceed_some.mp ran
        cases ran
        refine ⟨agrees.objects.modified ?_,agrees.certificate,agrees.privateKey⟩
        intro object data _ live
        cases live
      | _ => cases kept
  | true =>
    cases t with
    | privKey point =>
      cases point <;> try cases quiet
      cases i <;> try cases answered
      exact agrees.began (begin_began answered) ran
    | cert point =>
      cases point <;> try cases quiet
      · obtain ⟨object,found,live⟩ := backed _ rfl
        cases i <;> try cases answered
        exact agrees.initiated found
          (init_initiated live (agrees.objects.pair _ object · found) answered) ran
      · obtain ⟨⟨object,found,live⟩,_⟩ := backed _ rfl
        cases i <;> try cases answered
        exact agrees.concluded found
          (verify_concluded live (agrees.objects.pair _ object · found) answered) ran
    | _ => cases quiet

theorem CertPoint.backed_created {point later : CertPoint}
    (ran : prvGetCertTask d o point = some (d',next)) (created : .cert later ∈ next)
    (crashes : point = .enter → o ≠ .wild) (other : ∀ address, point ≠ .performInit address) :
    later.Backed mbedtls ⟨d',m⟩ := by
  cases point with
  | performInit address => exact absurd rfl (other address)
  | waiting =>
    obtain ⟨_,_,_,rfl⟩ := awaitBits_some.mp ran
    cases List.mem_singleton.mp created
    trivial
  | enter =>
    simp only [prvGetCertTask] at ran
    split at ran
    · obtain ⟨_,ran⟩ := proceed_some.mp ran
      cases ran
      cases List.mem_singleton.mp created
      trivial
    · split at ran
      · rename_i live
        obtain ⟨_,ran⟩ := proceed_some.mp ran
        cases ran
        cases List.mem_singleton.mp created
        exact live
      · cases o <;> simp only [reduceCtorEq] at ran <;> cases ran
        · cases List.mem_singleton.mp created
          trivial
        · exact absurd rfl (crashes rfl)
  | release address verified =>
    obtain ⟨_,ran⟩ := proceed_some.mp ran
    cases ran
    cases List.mem_singleton.mp created
    cases verified <;> trivial
  | _ =>
    cases o <;> simp only [prvGetCertTask,proceed,call,reduceCtorEq] at ran
    all_goals
      (try split at ran) <;> cases ran <;>
        first | cases List.mem_singleton.mp created; trivial | cases created

theorem CertPoint.backed_initiated {address : Nat} {later : CertPoint} {object : ClaimObject}
    (agrees : Agrees mbedtls a) (found : a.device.claimData[address]? = some object)
    (live : object.frees = 0) (initiated : a.memory.Initiated mbedtls object address o m)
    (ran : prvGetCertTask a.device o (.performInit address) = some (d',next))
    (created : .cert later ∈ next) : later.Backed mbedtls ⟨d',m⟩ := by
  rcases call_some.mp ran with ⟨ok,ran⟩ | ⟨_,ran⟩ <;> cases ran <;>
    cases List.mem_singleton.mp created
  · obtain ⟨data,rfl,_,requesting⟩ := initiated.left
    obtain ⟨_,there,_⟩ := agrees.objects.other found
    have stored : (a.memory.objects.set address data)[address]? = some data :=
      List.getElem?_set_self (List.getElem?_eq_some_iff.mp there).1
    exact ⟨⟨object,found,live⟩,object,data,found,stored,requesting ok⟩
  · trivial

/-- What the calls into esp_rmaker_claim.c return is what the device model admits. -/
theorem Assembled.admits (safe : Assembled mbedtls issues ⟨a,before ++ t :: after⟩)
    (permitted : (issuing issues Key).permits ⟨a,before ++ t :: after⟩ t i)
    (answered : answer mbedtls target a i t = some (o,m)) :
    (claimService (IssuedFor issues mbedtls)).permits ⟨a.device,before ++ t :: after⟩ t o := by
  obtain ⟨reliable,crashes,issued⟩ := permitted
  refine ⟨?_,?_,?_⟩
  · cases quiet : t.calls with
    | false =>
      obtain ⟨rfl,_⟩ := answer_plain quiet answered
      exact reliable o rfl
    | true =>
      cases t with
      | privKey point => cases point <;> first | rfl | cases quiet
      | cert point => cases point <;> first | rfl | cases quiet
      | _ => cases quiet
  · rintro rfl rfl
    obtain ⟨rfl,_⟩ := answer_plain rfl answered
    exact crashes rfl rfl
  · rintro address text object rfl rfl found
    cases i <;> try cases answered
    rename_i attempt
    obtain ⟨_,other,data,again,held,key,name,authId,response,own,posts⟩ :=
      safe.cert (.performVerify address) (by simp)
    cases found.symm.trans again
    have issuing := issued address attempt data _ rfl rfl held posts
    exact ⟨key,name,authId,response,own,verify_issued held issuing answered⟩

theorem Assembled.run (safe : Assembled mbedtls issues ⟨a,before ++ t :: after⟩)
    (permitted : (issuing issues Key).permits ⟨a,before ++ t :: after⟩ t i)
    (answered : answer mbedtls target a i t = some (o,m))
    (ran : taskStep a.device o t = some (d',next)) :
    Assembled mbedtls issues ⟨⟨d',m⟩,before ++ next ++ after⟩ := by
  have mine : t ∈ before ++ t :: after := by simp
  have admitted := safe.admits permitted answered
  have agrees := safe.agrees.run (fun point same => safe.cert point (same ▸ mine)) answered ran
  refine ⟨safe.consistent.run admitted ran,agrees,?_⟩
  refine TaskPool.every_replaced safe.cert ?_ fun other inside backed => ?_
  · intro later created
    cases t with
    | cert point =>
      by_cases initiating : ∃ address, point = .performInit address
      · obtain ⟨address,rfl⟩ := initiating
        obtain ⟨object,found,live⟩ := safe.cert _ mine
        cases i <;> try cases answered
        exact CertPoint.backed_initiated safe.agrees found live
          (init_initiated live (safe.agrees.objects.pair _ object · found) answered) ran created
      · refine CertPoint.backed_created ran created (fun entering => ?_) (not_exists.mp initiating)
        exact admitted.2.1 (by rw [entering])
    | _ =>
      cases created_cert ran nofun created
      trivial
  · cases quiet : t.calls || t.frees with
    | false =>
      obtain ⟨quiet,kept⟩ := Bool.or_eq_false_iff.mp quiet
      obtain ⟨_,rfl⟩ := answer_plain quiet answered
      obtain ⟨heap,_,_⟩ := claims_kept quiet kept ran
      exact backed.mono (fun _ _ => heap ▸ id) (fun _ _ => id)
    | true =>
      cases t with
      | privKey point =>
        cases point <;> try cases quiet
        cases i <;> try cases answered
        exact CertPoint.backed_began (begin_began answered) ran backed
      | cert point =>
        have unreported : point.reported = false := by cases point <;> first | rfl | cases quiet
        have reported := cert_alone safe.consistent.links unreported inside
        cases other <;> trivial
      | _ => cases quiet

theorem Assembled.boot {mac : Vector UInt8 6} {nvs : DurableMap RuntimeKey Str}
    (matching : Matching (IssuedFor issues mbedtls) nvs) :
    Assembled mbedtls issues (assemble (boot mac nvs) (.fresh Key)) where
  consistent := .boot matching
  agrees := ⟨.nil,rfl,rfl⟩
  cert point member := by cases List.mem_singleton.mp member

/-- A step of the assembly is one of the device model, and what that says of
esp_rmaker_claim.c stays so. -/
theorem Assembled.step {c c' : TaskPool.Config (Assembly Key) Task}
    (safe : Assembled mbedtls issues c)
    (step : TaskPool.Step (assembled mbedtls target) (issuing issues Key) c c') :
    Assembled mbedtls issues c' ∧
      Reaches (claimService (IssuedFor issues mbedtls)) (outline c) (outline c') := by
  cases step with
  | run a a' before after t i next permitted ran =>
    obtain ⟨⟨o,m⟩,answered,ran⟩ := Option.bind_eq_some_iff.mp ran
    obtain ⟨⟨d',created⟩,ran,same⟩ := Option.map_eq_some_iff.mp ran
    cases same
    refine ⟨safe.run permitted answered (exec_some ran).2,?_⟩
    exact .single (.run _ _ _ _ _ o _ (safe.admits permitted answered) ran)
  | restart _ permitted => exact ⟨.boot safe.consistent.matching,.single (.restart _ trivial)⟩

/-- The device model is an abstraction of the firmware over esp_rmaker_claim.c: every run of
that is one of the model, in which the claim service issues for the key of the claim data, and
key, certificate and claim data agree all along. -/
theorem assembly_refines (mbedtls : Claim.Mbedtls Key) (target : Str) (issues : Str → Str → Prop)
    (mac : Vector UInt8 6) (nvs : DurableMap RuntimeKey Str)
    (c : TaskPool.Config (Assembly Key) Task) (matching : Matching (IssuedFor issues mbedtls) nvs)
    (run : TaskPool.Reaches (assembled mbedtls target) (issuing issues Key)
      (assemble (boot mac nvs) (.fresh Key)) c) :
    Agrees mbedtls c.shared ∧
      Reaches (claimService (IssuedFor issues mbedtls)) (boot mac nvs) (outline c) := by
  obtain ⟨safe,reached⟩ := TaskPool.Reaches.refines outline (Assembled mbedtls issues) run
    (.boot matching) fun _ _ safe step => safe.step step
  exact ⟨safe.agrees,reached⟩

/-- End to end: across all boots the certificate on flash was issued for a CSR that the key on
flash signed, and TLS connects with such a pair. -/
theorem certificate_of_own_key (mbedtls : Claim.Mbedtls Key) (target : Str)
    (issues : Str → Str → Prop) (mac : Vector UInt8 6) (nvs : DurableMap RuntimeKey Str)
    (c : TaskPool.Config (Assembly Key) Task) (matching : Matching (IssuedFor issues mbedtls) nvs)
    (run : TaskPool.Reaches (assembled mbedtls target) (issuing issues Key)
      (assemble (boot mac nvs) (.fresh Key)) c) :
    (∀ cert, c.shared.device.nvs .certificate = some cert → ∃ key name authId response,
      c.shared.device.nvs .key = some (mbedtls.keyPem key) ∧
      issues (claimRequest mbedtls key name authId response) cert) ∧
    ∀ point, .tls point ∈ c.tasks → point ≠ .waiting → ∃ cert key name authId response,
      c.shared.device.pcDevCert = some cert ∧
      c.shared.device.pcDevKey = some (mbedtls.keyPem key) ∧
      issues (claimRequest mbedtls key name authId response) cert := by
  obtain ⟨safe,_⟩ := TaskPool.Reaches.refines outline (Assembled mbedtls issues) run
    (.boot matching) fun _ _ safe step => safe.step step
  refine ⟨fun cert stored => ?_,fun point member connecting => ?_⟩
  · obtain ⟨own,held,key,name,authId,response,rfl,issued⟩ :=
      safe.consistent.matching cert stored
    exact ⟨key,name,authId,response,held,issued⟩
  · obtain ⟨cert,own,held,ownKey,key,name,authId,response,rfl,issued⟩ :=
      safe.consistent.paired member connecting
    exact ⟨cert,key,name,authId,response,held,ownKey,issued⟩

end Runs

section Scenario

/-- No call into esp_rmaker_claim.c, and nothing that the assembly does not admit. -/
def quietly (_ : Config) (t : Task) (o : Outcome) : Bool :=
  !t.calls && reads t o && decide (t = .cert .enter → o ≠ .wild)

def quiet : Policy := ⟨fun c t o => quietly c t o = true,False⟩

variable {mbedtls : Claim.Mbedtls Key} {target : Str} {issues : Str → Str → Prop}

theorem permits_begin {c : TaskPool.Config (Assembly Key) Task} (calls : Claim.InitCalls Key) :
    (issuing issues Key).permits c (.privKey .generate) (.calls calls) := by
  refine ⟨fun o same => ?_,fun same => ?_,fun address _ _ _ same => ?_⟩ <;> cases same

theorem permits_init {c : TaskPool.Config (Assembly Key) Task} (address : Nat)
    (attempt : Claim.Attempt) :
    (issuing issues Key).permits c (.cert (.performInit address)) (.attempt attempt) := by
  refine ⟨fun o same => ?_,fun same => ?_,fun other _ _ _ same => ?_⟩ <;> cases same

theorem permits_verify {c : TaskPool.Config (Assembly Key) Task} {address : Nat}
    {attempt : Claim.Attempt} (issued : ∀ request, Issuing issues attempt.verify request) :
    (issuing issues Key).permits c (.cert (.performVerify address)) (.attempt attempt) := by
  refine ⟨fun o same => ?_,fun same => ?_,fun other _ _ request _ same _ _ => ?_⟩ <;> cases same
  exact issued request

/-- A step of the device model is one of the assembly where the call returns what it says. -/
theorem step_assembled {c c' : Config} {k : Nat} {t : Task} {o : Outcome} {i : Input Key}
    {m m' : Memory Key} (found : c.tasks[k]? = some t)
    (played : TaskPool.stepAt machine (fun _ _ _ => true) c k o = some c')
    (permitted : (issuing issues Key).permits (assemble c m) t i)
    (answered : answer mbedtls target ⟨c.shared,m⟩ i t = some (o,m')) :
    TaskPool.Step (assembled mbedtls target) (issuing issues Key) (assemble c m) (assemble c' m') := by
  simp only [TaskPool.stepAt,found,if_true] at played
  obtain ⟨⟨d',next⟩,ran,rfl⟩ := Option.map_eq_some_iff.mp played
  obtain ⟨bound,rfl⟩ := List.getElem?_eq_some_iff.mp found
  have whole : (⟨⟨c.shared,m⟩,c.tasks.take k ++ c.tasks[k] :: c.tasks.drop (k + 1)⟩ :
      TaskPool.Config (Assembly Key) Task) = assemble c m := by
    rw [assemble]
    simp
  have exec : (assembled mbedtls target).exec ⟨c.shared,m⟩ c.tasks[k] i = some (⟨d',m'⟩,next) := by
    change (answer mbedtls target ⟨c.shared,m⟩ i c.tasks[k]).bind _ = _
    rw [answered,Option.bind_some]
    exact Option.map_eq_some_iff.mpr ⟨_,ran,rfl⟩
  rw [← whole] at permitted ⊢
  exact .run _ _ _ _ _ i next permitted exec

theorem quiet_assembled {c c' : Config} (run : Reaches quiet c c') (m : Memory Key) :
    TaskPool.Reaches (assembled mbedtls target) (issuing issues Key) (assemble c m)
      (assemble c' m) := by
  refine Relation.ReflTransGen.lift (assemble · m) (fun c c' step => ?_) _ _ run
  cases step with
  | run d d' before after t o next permitted ran =>
    have admitted : quietly ⟨d,before ++ t :: after⟩ t o = true := permitted
    simp only [quietly,Bool.and_eq_true,Bool.not_eq_true',decide_eq_true_eq] at admitted
    obtain ⟨⟨idle,reliable⟩,crashes⟩ := admitted
    refine .run _ _ _ _ _ (.plain o) next ⟨?_,?_,?_⟩ ?_
    · intro o' same
      cases same
      exact reliable
    · intro entering wild
      cases wild
      exact crashes entering rfl
    · intro _ _ _ _ _ same
      cases same
    · change (answer mbedtls target ⟨d,m⟩ (.plain o) t).bind _ = _
      rw [answer_quiet idle]
      exact Option.map_eq_some_iff.mpr ⟨_,ran,rfl⟩
  | restart _ never => exact never.elim

end Scenario

def someCert : Str := [65,Text.newLine,66]

/-- Up to the generation of a key. -/
def keyAwaited : List (Nat × Outcome) :=
  allStarted ++ [(5,.go),(5,.ok),(5,.go),(5,.ok),(5,.go),(5,.go)]

/-- The key is stored and a claim with it begins. -/
def claimAwaited : List (Nat × Outcome) :=
  [(5,.go),(5,.go),(5,.ok),(5,.go),(5,.go),(4,.go),(4,.ok),(4,.go),(4,.go),(4,.go),(4,.go)]

/-- The certificate is stored and TLS connects. -/
def claimEnded : List (Nat × Outcome) :=
  [(4,.go),(4,.go),(4,.ok),(4,.go),(4,.go),(3,.go),(3,.go),(3,.go),(3,.ok),(3,.go)]

def connects (c : Config) : Bool := .tls (.connect (some 0)) ∈ c.tasks

def claims (c : Config) : Bool :=
  decide (c.tasks[4]? = some (.cert (.performInit 0))) &&
    ((TaskPool.stepAt machine (fun _ _ _ => true) c 4 .ok).any fun c =>
      decide (c.tasks[4]? = some (.cert (.performVerify 0))) &&
        (TaskPool.stepAt machine (fun _ _ _ => true) c 4 (.pem someCert)).any fun c =>
          (TaskPool.play machine quietly c claimEnded).any connects)

def generates (c : Config) : Bool :=
  decide (c.tasks[5]? = some (.privKey .generate)) && decide (c.shared.pcNodeId = some (Text.bytes "node")) &&
    (TaskPool.stepAt machine (fun _ _ _ => true) c 5 (.pem (Claim.someMbedtls.keyPem ()))).any fun c =>
      (TaskPool.play machine quietly c claimAwaited).any claims

set_option maxRecDepth 8000 in
theorem generates_reached : (TaskPool.play machine quietly (boot someMac named) keyAwaited).any generates = true := by
  decide

theorem begin_good (name : Str) : ∃ data,
    (Memory.fresh Unit).begin Claim.someMbedtls (some name) Claim.goodCalls =
      some (.pem (Claim.someMbedtls.keyPem ()),
        ⟨[data],⟨none,0⟩,some (Claim.someMbedtls.keyPem () ++ [0])⟩) ∧
      Claim.Begun Claim.someMbedtls () name data := by
  have made : Claim.goodCalls.KeyMade := ⟨rfl,rfl,rfl,rfl⟩
  have csr : Claim.goodCalls.CsrMade (some name) := ⟨Option.some_ne_none _,rfl,rfl,rfl⟩
  obtain ⟨data,done,begun⟩ := Claim.claimInit_made Claim.someMbedtls (Claim.ClaimData.calloc Unit)
    made rfl csr none
  have keyed : (Claim.generateKey Claim.someMbedtls Claim.goodCalls (.calloc Unit)).1 = .ok := by
    rw [Claim.generateKey_made made]
  have read : CString.read (Claim.someMbedtls.keyPem () ++ [0]) =
      some (Claim.someMbedtls.keyPem ()) :=
    CString.read_terminated (Claim.someMbedtls.key_clean ()) []
  refine ⟨data,?_,begun⟩
  have key : Claim.goodCalls.key = () := rfl
  rw [Memory.begin,if_neg (by decide),if_neg (by decide)]
  simp only [Memory.fresh,done,keyed,key,read,ne_eq,not_true_eq_false,if_false,if_true,
    Option.bind_some,Option.map_some,List.nil_append]

theorem accepting_issues (request verify : Str) :
    Issuing (fun _ cert => cert = someCert)
      (Claim.accepting verify (Claim.verifyResponse someCert)) request := by
  intro _
  have sendable : Claim.Sendable someCert := ⟨by decide,by decide,by decide⟩
  have fits : (Claim.verifyResponse someCert).length < Claim.maxPayloadSize := by decide
  have serves := Claim.accepting_serves verify (by decide) fits
  refine ⟨someCert,serves.responseText (Claim.verifyResponse_clean sendable) fits,sendable,?_,rfl⟩
  have same : Claim.unescape (Claim.escape someCert) = someCert := by decide
  exact (Claim.unescape_escape sendable.bare).mp same

/-- An attempt in which the claim service answers both requests. -/
theorem claim_served (mac : Vector UInt8 6) {name : Str} {data : Claim.ClaimData Unit}
    (begun : Claim.Begun Claim.someMbedtls () name data) (privateKey : Option (List UInt8)) :
    ∃ attempt posting last mod,
      Memory.init Claim.someStation.target ⟨[data],⟨none,0⟩,privateKey⟩ mac 0 attempt =
        some (.ok,⟨[posting],⟨none,0⟩,privateKey⟩) ∧
      Memory.verify ⟨[posting],⟨none,0⟩,privateKey⟩ 0 attempt =
        some (.pem someCert,⟨[last],mod,privateKey⟩) ∧
      ∀ request, Issuing (fun _ cert => cert = someCert) attempt.verify request := by
  have ready : data.Ready := by
    rw [Claim.ClaimData.Ready,begun.state]
    decide
  obtain ⟨_,request,_,_,_,read⟩ := Claim.generate_ready ready ⟨mac,Claim.someStation.target⟩
  have sendable : Claim.Sendable someCert := ⟨by decide,by decide,by decide⟩
  have fits : (Claim.verifyResponse someCert).length < Claim.maxPayloadSize := by decide
  let verify : Str := claimRequest Claim.someMbedtls () name [97] Claim.someDigest
  let attempt : Claim.Attempt :=
    ⟨.ok,Claim.accepting request Claim.someChallenge.response,Claim.someHmac,true,
      Claim.accepting verify (Claim.verifyResponse someCert),⟨true,true⟩⟩
  have serves : attempt.verify.Serves verify (Claim.verifyResponse someCert) :=
    Claim.accepting_serves verify (by decide) fits
  have grants : attempt.Grants ⟨mac,Claim.someStation.target⟩ Claim.someChallenge
      Claim.someDigest (Claim.escape (Claim.trimmed (Claim.someMbedtls.csrPem ()
        (Claim.subjectName name)))) someCert :=
    ⟨rfl,⟨request,read,Claim.accepting_serves request (by decide)
      Claim.someChallenge.fits⟩,rfl,rfl,serves,rfl⟩
  obtain ⟨_,posting,init,posts⟩ := Claim.performInit_served ready begun.csr grants ⟨none,0⟩
  obtain ⟨last,mod,done,certificate⟩ :=
    Claim.performVerify_served posts serves rfl sendable fits ⟨none,0⟩
  have taken : Claim.getSelfClaimCertificate mod = some someCert := certificate.trans (by decide)
  refine ⟨attempt,posting,last,mod,?_,?_,fun request => accepting_issues request verify⟩
  · simp [Memory.init,init]
  · simp [Memory.verify,done,taken]

/-- A claim goes through and TLS connects with what it brought. -/
theorem claim_assembled : ∃ c, TaskPool.Reaches (assembled Claim.someMbedtls Claim.someStation.target)
    (issuing (fun _ cert => cert = someCert) Unit) (assemble (boot someMac named) (.fresh Unit)) c ∧
    .tls (.connect (some 0)) ∈ c.tasks := by
  have keepsAny : ∀ c t o, quietly c t o = true → quiet.permits c t o := fun _ _ _ => id
  obtain ⟨c₁,run₁,test₁⟩ := TaskPool.play_any machine quietly quiet keepsAny
    (boot someMac named) keyAwaited generates generates_reached
  simp only [generates,Bool.and_eq_true,decide_eq_true_eq,Option.any_eq_true] at test₁
  obtain ⟨⟨awaited,node⟩,c₂,step₂,c₃,play₃,test₃⟩ := test₁
  simp only [claims,Bool.and_eq_true,decide_eq_true_eq,Option.any_eq_true] at test₃
  obtain ⟨initiates,c₄,step₄,concludes,c₅,step₅,c₆,play₆,test₆⟩ := test₃
  obtain ⟨data,begin,begun⟩ := begin_good (Text.bytes "node")
  obtain ⟨attempt,posting,last,mod,init,verify,issued⟩ := claim_served c₃.shared.mac begun
    (some (Claim.someMbedtls.keyPem () ++ [0]))
  refine ⟨assemble c₆ ⟨[last],mod,some (Claim.someMbedtls.keyPem () ++ [0])⟩,?_,
    of_decide_eq_true test₆⟩
  have run₃ := TaskPool.play_reaches machine quietly keepsAny claimAwaited c₂ c₃ play₃
  have run₆ := TaskPool.play_reaches machine quietly keepsAny claimEnded c₅ c₆ play₆
  refine (quiet_assembled run₁ (.fresh Unit)).trans ?_
  refine .head (step_assembled (i := .calls Claim.goodCalls) awaited step₂
    (permits_begin _) ((congrArg (Memory.begin _ _ · _) node).trans begin)) ?_
  refine (quiet_assembled run₃ _).trans ?_
  refine .head (step_assembled (i := .attempt attempt) initiates step₄
    (permits_init _ _) init) ?_
  exact .head (step_assembled (i := .attempt attempt) concludes step₅ (permits_verify issued) verify)
    (quiet_assembled run₆ _)

theorem assembly_refines_connecting :
    ∃ c : TaskPool.Config (Assembly Unit) Task, .tls (.connect (some 0)) ∈ c.tasks ∧
      Agrees Claim.someMbedtls c.shared ∧
      Reaches (claimService (IssuedFor (fun _ cert => cert = someCert) Claim.someMbedtls))
        (boot someMac named) (outline c) := by
  obtain ⟨c,run,connecting⟩ := claim_assembled
  exact ⟨c,connecting,assembly_refines Claim.someMbedtls Claim.someStation.target _ someMac named c
    nofun run⟩

theorem certificate_of_own_key_connecting :
    ∃ c : TaskPool.Config (Assembly Unit) Task, .tls (.connect (some 0)) ∈ c.tasks ∧
      c.shared.device.pcDevCert = some someCert ∧
      c.shared.device.pcDevKey = some (Claim.someMbedtls.keyPem ()) := by
  obtain ⟨c,run,connecting⟩ := claim_assembled
  obtain ⟨cert,key,_,_,_,ownCert,ownKey,issued⟩ := (certificate_of_own_key Claim.someMbedtls
    Claim.someStation.target _ someMac named c nofun run).2 _ connecting nofun
  exact ⟨c,connecting,ownCert.trans (congrArg some issued),ownKey⟩

end QuickConnect.Firmware
