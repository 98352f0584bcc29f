import QuickConnect.Firmware.ClaimData

/-! The private key and the certificate belong together, on flash and in RAM. The
certificate is absent until one was issued for the stored key, and from then on
the key is left alone. -/
namespace QuickConnect.Firmware
open EventGroup

/-- prvNvsGetStr answers whatever is stored. -/
def reads (t : Task) (o : Outcome) : Bool :=
  match t with
  | .main .readThingName | .main .readNodeId => o ≠ .fail
  | .privKey .readKey | .privKey .readCert => o ≠ .fail
  | .cert .read => o ≠ .fail
  | _ => true

/-- Reads are reliable, using released claim data crashes, and the claim service
issues its certificate for the key that signed the CSR. -/
def claimService (issuedFor : Str → Str → Prop) : Policy where
  permits c t o := reads t o = true ∧ (t = .cert .enter → o ≠ .wild) ∧
    ∀ a text data, t = .cert (.performVerify a) → o = .pem text →
      c.shared.claimData[a]? = some data → issuedFor text data.key
  restarts := True

section
variable (issuedFor : Str → Str → Prop)

def Matching (nvs : DurableMap RuntimeKey Str) : Prop :=
  ∀ cert, nvs .certificate = some cert → ∃ key, nvs .key = some key ∧ issuedFor cert key

/-- The stored key is in RAM, and the next claim is made with it. -/
def Device.KeyReady (d : Device) : Prop :=
  ∃ key, d.nvs .key = some key ∧ d.pcDevKey = some key ∧
    (d.nvs .certificate = none → ∃ a data, d.pxSelfClaimData = some a ∧
      d.claimData[a]? = some data ∧ data.key = key)

def Device.Claimed (d : Device) (cert : Option Str) : Prop :=
  ∃ text key, cert = some text ∧ d.nvs .key = some key ∧ issuedFor text key

def PrivKeyPoint.Right (d : Device) : PrivKeyPoint → Prop
  | .notify | .readKey | .notifyReport _ => True
  | .assignKey value => value = d.nvs .key
  | .readCert => d.pcDevKey = d.nvs .key
  | .assignCert value => d.pcDevKey = d.nvs .key ∧ value = d.nvs .certificate
  | .test => d.pcDevKey = d.nvs .key ∧ d.pcDevCert = d.nvs .certificate
  | .generate => d.nvs .certificate = none
  | .assignData address => d.nvs .certificate = none ∧ ∀ a, address = some a →
      ∃ data, d.claimData[a]? = some data ∧ d.selfClaimPrivateKey = some data.key
  | .claimed => d.nvs .certificate = none ∧ ∀ a, d.pxSelfClaimData = some a →
      ∃ data, d.claimData[a]? = some data ∧ d.selfClaimPrivateKey = some data.key
  | .store => d.nvs .certificate = none ∧ ∃ a data, d.pxSelfClaimData = some a ∧
      d.claimData[a]? = some data ∧ d.pcDevKey = some data.key
  | .report acquired => acquired = true → d.KeyReady

def CertPoint.Right (d : Device) : CertPoint → Prop
  | .notify | .read | .notifyReport _ => True
  | .assign value => value = d.nvs .certificate
  | .test => d.pcDevCert = d.nvs .certificate
  | .waiting | .enter => d.nvs .certificate = none
  | .performInit a | .performVerify a => d.nvs .certificate = none ∧ d.pxSelfClaimData = some a
  | .release _ verified => d.nvs .certificate = none ∧
      (verified = true → d.Claimed issuedFor d.selfClaimCertificate)
  | .take => d.nvs .certificate = none ∧ d.Claimed issuedFor d.selfClaimCertificate
  | .store => d.nvs .certificate = none ∧ d.Claimed issuedFor d.pcDevCert
  | .report acquired => acquired = true →
      d.nvs .certificate ≠ none ∧ d.pcDevCert = d.nvs .certificate

structure Consistent (c : Config) : Prop where
  links : Links c
  claiming : ∀ point, .cert point ∈ c.tasks → point.claiming = true → .privKeySuccess ∈ c.shared.net
  connecting : ∀ point, .tls point ∈ c.tasks → point ≠ .waiting →
    .privKeySuccess ∈ c.shared.net ∧ .certSuccess ∈ c.shared.net
  matching : Matching issuedFor c.shared.nvs
  privKey : ∀ point, .privKey point ∈ c.tasks → point.Right c.shared
  cert : ∀ point, .cert point ∈ c.tasks → point.Right issuedFor c.shared
  keyReady : .privKeySuccess ∈ c.shared.net → c.shared.KeyReady
  certReady : .certSuccess ∈ c.shared.net →
    c.shared.nvs .certificate ≠ none ∧ c.shared.pcDevCert = c.shared.nvs .certificate

variable {issuedFor} {d d' : Device} {o : Outcome} {next : List Task}

structure KeyRight (d d' : Device) (next : List Task) : Prop where
  points : ∀ point, .privKey point ∈ next → point.Right d'
  cert : d'.nvs .certificate = d.nvs .certificate
  key : d.nvs .certificate ≠ none → d'.nvs .key = d.nvs .key
  devCert : d'.pcDevCert = d.pcDevCert ∨ d'.pcDevCert = d.nvs .certificate
  success : .privKeySuccess ∈ d'.net → .privKeySuccess ∉ d.net → d'.KeyReady

theorem KeyRight.at {point : PrivKeyPoint} (right : point.Right d')
    (cert : d'.nvs .certificate = d.nvs .certificate)
    (key : d.nvs .certificate ≠ none → d'.nvs .key = d.nvs .key)
    (devCert : d'.pcDevCert = d.pcDevCert ∨ d'.pcDevCert = d.nvs .certificate)
    (net : d'.net = d.net) : KeyRight d d' [.privKey point] where
  points other member := by
    cases List.mem_singleton.mp member
    exact right
  cert := cert
  key := key
  devCert := devCert
  success new old := by
    rw [net] at new
    exact absurd new old

theorem KeyRight.same {point : PrivKeyPoint} (right : point.Right d) : KeyRight d d [.privKey point] :=
  .at right rfl (fun _ => rfl) (.inl rfl) rfl

theorem PrivKeyPoint.right_failed : (PrivKeyPoint.report false).Right d := by
  intro acquired
  cases acquired

theorem PrivKeyPoint.right_unclaimed (absent : d.nvs .certificate = none) :
    (PrivKeyPoint.assignData none).Right d := by
  refine ⟨absent,fun a same => ?_⟩
  cases same

theorem prvGetPrivKeyTask_right {point : PrivKeyPoint} (right : point.Right d)
    (matching : Matching issuedFor d.nvs) (reliable : reads (.privKey point) o = true)
    (ran : prvGetPrivKeyTask d o point = some (d',next)) : KeyRight d d' next := by
  cases point with
  | notify =>
    obtain ⟨_,ran⟩ := proceed_some.mp ran
    cases ran
    exact .at trivial rfl (fun _ => rfl) (.inl rfl) rfl
  | readKey =>
    rcases call_some.mp ran with ⟨_,ran⟩ | ⟨rfl,_⟩
    · cases ran
      exact .same rfl
    · cases reliable
  | assignKey value =>
    obtain ⟨_,ran⟩ := proceed_some.mp ran
    cases ran
    exact .at right rfl (fun _ => rfl) (.inl rfl) rfl
  | readCert =>
    rcases call_some.mp ran with ⟨_,ran⟩ | ⟨rfl,_⟩
    · cases ran
      exact .same ⟨right,rfl⟩
    · cases reliable
  | assignCert value =>
    obtain ⟨key,answer⟩ := right
    obtain ⟨_,ran⟩ := proceed_some.mp ran
    cases ran
    exact .at ⟨key,answer⟩ rfl (fun _ => rfl) (.inr answer) rfl
  | test =>
    obtain ⟨key,cert⟩ := right
    obtain ⟨_,ran⟩ := proceed_some.mp ran
    split at ran <;> rename_i missing <;> cases ran
    · refine .same ?_
      cases found : d.nvs .certificate with
      | none => exact found
      | some text =>
        exfalso
        obtain ⟨own,stored,_⟩ := matching text found
        rw [key,cert,found,stored] at missing
        simp at missing
    · refine .same fun _ => ?_
      rw [not_or,key,cert] at missing
      obtain ⟨own,stored⟩ := Option.ne_none_iff_exists'.mp missing.1
      exact ⟨own,stored,key.trans stored,fun absent => absurd absent missing.2⟩
  | generate =>
    cases o <;> simp only [prvGetPrivKeyTask,reduceCtorEq] at ran <;> cases ran
    · exact .same (PrivKeyPoint.right_unclaimed right)
    · rename_i text
      refine .at ⟨right,fun a same => ?_⟩ rfl (fun _ => rfl) (.inl rfl) rfl
      cases same
      exact ⟨⟨text,0⟩,by simp,rfl⟩
    · exact .at (PrivKeyPoint.right_unclaimed right) rfl (fun _ => rfl) (.inl rfl) rfl
    · exact .at right rfl (fun _ => rfl) (.inl rfl) rfl
  | assignData address =>
    obtain ⟨_,ran⟩ := proceed_some.mp ran
    cases ran
    exact .at right rfl (fun _ => rfl) (.inl rfl) rfl
  | claimed =>
    obtain ⟨absent,owned⟩ := right
    obtain ⟨_,ran⟩ := proceed_some.mp ran
    split at ran <;> rename_i pending <;> cases ran
    · exact .same PrivKeyPoint.right_failed
    · obtain ⟨a,current⟩ := Option.ne_none_iff_exists'.mp pending
      obtain ⟨data,found,own⟩ := owned a current
      exact .at ⟨absent,a,data,current,found,own⟩ rfl (fun _ => rfl) (.inl rfl) rfl
  | store =>
    obtain ⟨absent,a,data,current,found,own⟩ := right
    rcases call_some.mp ran with ⟨_,ran⟩ | ⟨_,ran⟩ <;> cases ran
    · refine .at (fun _ => ?_) ?_ (fun present => absurd absent present) (.inl rfl) rfl
      · refine ⟨data.key,?_,own,fun _ => ⟨a,data,current,found,rfl⟩⟩
        rw [own]
        simp
      · simp [DurableMap.write_other]
    · exact .same PrivKeyPoint.right_failed
  | report acquired =>
    obtain ⟨_,ran⟩ := proceed_some.mp ran
    cases ran
    refine ⟨fun other member => ?_,rfl,fun _ => rfl,.inl rfl,fun new old => ?_⟩
    · cases List.mem_singleton.mp member
      trivial
    · cases acquired with
      | true => exact right rfl
      | false => simp [old] at new
  | notifyReport acquired =>
    obtain ⟨_,ran⟩ := proceed_some.mp ran
    cases ran
    exact ⟨fun _ member => absurd member List.not_mem_nil,rfl,fun _ => rfl,.inl rfl,
      fun new old => absurd new old⟩

variable (issuedFor) in
structure CertRight (point : CertPoint) (d d' : Device) (next : List Task) : Prop where
  points : ∀ later, .cert later ∈ next → later.Right issuedFor d'
  matching : Matching issuedFor d'.nvs
  keyReady : d.KeyReady → d'.KeyReady
  keys : point.claiming = false → ∀ key : PrivKeyPoint, key.Right d → key.Right d'
  success : .certSuccess ∈ d'.net → .certSuccess ∉ d.net →
    d'.nvs .certificate ≠ none ∧ d'.pcDevCert = d'.nvs .certificate

theorem CertRight.at {point later : CertPoint} (right : later.Right issuedFor d')
    (matching : Matching issuedFor d'.nvs) (keyReady : d.KeyReady → d'.KeyReady)
    (keys : point.claiming = false → ∀ key : PrivKeyPoint, key.Right d → key.Right d')
    (net : d'.net = d.net) : CertRight issuedFor point d d' [.cert later] where
  points other member := by
    cases List.mem_singleton.mp member
    exact right
  matching := matching
  keyReady := keyReady
  keys := keys
  success new old := by
    rw [net] at new
    exact absurd new old

theorem CertRight.claims {point later : CertPoint} (claiming : point.claiming = true)
    (right : later.Right issuedFor d') (matching : Matching issuedFor d'.nvs)
    (keyReady : d.KeyReady → d'.KeyReady) (net : d'.net = d.net) :
    CertRight issuedFor point d d' [.cert later] :=
  .at right matching keyReady (fun idle => Bool.noConfusion (claiming.symm.trans idle)) net

theorem CertRight.same {point later : CertPoint} (right : later.Right issuedFor d)
    (matching : Matching issuedFor d.nvs) : CertRight issuedFor point d d [.cert later] :=
  .at right matching id (fun _ _ => id) rfl

theorem CertPoint.right_failed : (CertPoint.report false).Right issuedFor d := by
  intro acquired
  cases acquired

theorem PrivKeyPoint.Right.congr (same : d'.secrets = d.secrets) {point : PrivKeyPoint}
    (right : point.Right d) : point.Right d' := by
  obtain ⟨key,cert,px,heap,own,_,storedKey,storedCert⟩ := secrets_eq same
  cases point <;> first
    | trivial
    | simpa only [PrivKeyPoint.Right,Device.KeyReady,px,heap,own,key,cert,storedKey,storedCert]
        using right

theorem freed_keyReady {a : Nat} (ready : d.KeyReady) : (d.freeClaimData a).KeyReady := by
  obtain ⟨key,stored,own,claim⟩ := ready
  refine ⟨key,stored,own,fun absent => ?_⟩
  obtain ⟨b,data,current,found,same⟩ := claim absent
  refine ⟨b,if a = b then { data with frees := data.frees + 1 } else data,current,?_,?_⟩
  · simp [Device.freeClaimData,List.getElem?_modify,found]
  · split <;> exact same

theorem prvGetCertTask_right {point : CertPoint} (right : point.Right issuedFor d)
    (matching : Matching issuedFor d.nvs) (ready : point.claiming = true → d.KeyReady)
    (reliable : reads (.cert point) o = true) (crashes : point = .enter → o ≠ .wild)
    (issues : ∀ a text data, point = .performVerify a → o = .pem text →
      d.claimData[a]? = some data → issuedFor text data.key)
    (ran : prvGetCertTask d o point = some (d',next)) : CertRight issuedFor point d d' next := by
  cases point with
  | notify =>
    obtain ⟨_,ran⟩ := proceed_some.mp ran
    cases ran
    exact .at trivial matching id (fun _ key right => right.congr rfl) rfl
  | read =>
    rcases call_some.mp ran with ⟨_,ran⟩ | ⟨rfl,_⟩
    · cases ran
      exact .same rfl matching
    · cases reliable
  | assign value =>
    obtain ⟨_,ran⟩ := proceed_some.mp ran
    cases ran
    refine .at right matching id (fun _ key sound => ?_) rfl
    cases key with
    | test => exact ⟨sound.1,right⟩
    | _ => exact sound
  | test =>
    obtain ⟨_,ran⟩ := proceed_some.mp ran
    split at ran <;> rename_i missing <;> cases ran
    · exact .same (right.symm.trans missing) matching
    · exact .same (fun _ => ⟨fun absent => missing (right.trans absent),right⟩) matching
  | waiting =>
    obtain ⟨_,_,rfl,rfl⟩ := awaitBits_some.mp ran
    exact .same right matching
  | enter =>
    simp only [prvGetCertTask] at ran
    split at ran
    · obtain ⟨_,ran⟩ := proceed_some.mp ran
      cases ran
      exact .same CertPoint.right_failed matching
    · rename_i a current
      split at ran
      · obtain ⟨_,ran⟩ := proceed_some.mp ran
        cases ran
        exact .same ⟨right,current⟩ matching
      · cases o <;> simp only [reduceCtorEq] at ran <;> cases ran
        · exact .claims rfl right matching id rfl
        · exact absurd rfl (crashes rfl)
  | performInit a =>
    rcases call_some.mp ran with ⟨_,ran⟩ | ⟨_,ran⟩ <;> cases ran
    · exact .same right matching
    · exact .same CertPoint.right_failed matching
  | performVerify a =>
    obtain ⟨absent,current⟩ := right
    obtain ⟨key,stored,own,claim⟩ := ready rfl
    cases o <;> simp only [prvGetCertTask,reduceCtorEq] at ran <;> cases ran
    · exact .same ⟨absent,fun verified => by cases verified⟩ matching
    · rename_i text
      obtain ⟨b,data,same,found,owner⟩ := claim absent
      rw [current,Option.some_inj] at same
      subst same owner
      have issued := issues a text data rfl rfl found
      exact .claims rfl ⟨absent,fun _ => ⟨text,data.key,rfl,stored,issued⟩⟩ matching id rfl
    · exact .claims rfl ⟨absent,fun verified => by cases verified⟩ matching id rfl
  | release a verified =>
    obtain ⟨absent,claimed⟩ := right
    obtain ⟨_,ran⟩ := proceed_some.mp ran
    cases ran
    cases verified with
    | true => exact .claims rfl ⟨absent,claimed rfl⟩ matching freed_keyReady rfl
    | false => exact .claims rfl CertPoint.right_failed matching freed_keyReady rfl
  | take =>
    obtain ⟨_,ran⟩ := proceed_some.mp ran
    cases ran
    exact .claims rfl right matching id rfl
  | store =>
    obtain ⟨absent,cert,key,certificate,stored,issued⟩ := right
    rcases call_some.mp ran with ⟨_,ran⟩ | ⟨_,ran⟩ <;> cases ran
    · have saved : d.nvs.write true .certificate d.pcDevCert =
          (Function.update d.nvs .certificate (some cert),true) := by
        rw [certificate,DurableMap.write_some]
      have now : Function.update d.nvs .certificate (some cert) .certificate = some cert := by simp
      have kept : Function.update d.nvs .certificate (some cert) .key = some key := by simp [stored]
      rw [saved]
      refine .claims rfl (fun _ => ⟨?_,certificate.trans now.symm⟩) ?_ ?_ rfl
      · exact fun absent => Option.some_ne_none cert (now.symm.trans absent)
      · intro text found
        cases Option.some.inj (now.symm.trans found)
        exact ⟨key,kept,issued⟩
      · rintro ⟨own,same,held,_⟩
        cases Option.some.inj (stored.symm.trans same)
        exact ⟨key,kept,held,fun absent => (Option.some_ne_none cert (now.symm.trans absent)).elim⟩
    · exact .same CertPoint.right_failed matching
  | report acquired =>
    obtain ⟨_,ran⟩ := proceed_some.mp ran
    cases ran
    refine ⟨fun other member => ?_,matching,id,fun _ _ right => right.congr rfl,fun new old => ?_⟩
    · cases List.mem_singleton.mp member
      trivial
    · cases acquired with
      | true => exact right rfl
      | false => simp [old] at new
  | notifyReport acquired =>
    obtain ⟨_,ran⟩ := proceed_some.mp ran
    cases ran
    exact ⟨fun _ member => absurd member List.not_mem_nil,matching,id,fun _ _ right => right.congr rfl,
      fun new old => absurd new old⟩

theorem CertPoint.Right.congr (same : d'.secrets = d.secrets) {point : CertPoint}
    (right : point.Right issuedFor d) : point.Right issuedFor d' := by
  obtain ⟨_,cert,px,_,_,taken,storedKey,storedCert⟩ := secrets_eq same
  cases point <;> first
    | trivial
    | simpa only [CertPoint.Right,Device.Claimed,px,taken,cert,storedKey,storedCert] using right

theorem connecting_next {point : TlsPoint}
    (ran : prvTlsConnectionTask d o point = some (d',next)) :
    point ≠ .waiting ∨ .privKeySuccess ∈ d.net ∧ .certSuccess ∈ d.net := by
  cases point with
  | waiting =>
    obtain ⟨_,ready,_,_⟩ := awaitBits_some.mp ran
    exact .inr ⟨ready (by decide),ready (by decide)⟩
  | _ => exact .inl nofun

end

section
variable {issuedFor : Str → Str → Prop} {d d' : Device} {before after next : List Task} {t : Task}
  {o : Outcome}

theorem connecting_run (links : Links ⟨d,before ++ t :: after⟩)
    (ran : taskStep d o t = some (d',next))
    (connects : ∀ point, .tls point ∈ before ++ t :: after → point ≠ .waiting →
      .privKeySuccess ∈ d.net ∧ .certSuccess ∈ d.net) :
    ∀ point, .tls point ∈ before ++ next ++ after → point ≠ .waiting →
      .privKeySuccess ∈ d'.net ∧ .certSuccess ∈ d'.net := by
  intro point member connecting
  have ready : .privKeySuccess ∈ d.net ∧ .certSuccess ∈ d.net := by
    rcases TaskPool.mem_replaced.mp member with created | inside
    · rcases (succession ran).programs _ created with ⟨first,_⟩ | same
      · have waiting : point = .waiting := by simpa [firstTasks] using first
        exact absurd waiting connecting
      · cases t <;> cases same
        rename_i own
        exact (connecting_next ran).elim (connects own (by simp)) id
    · exact connects point (TaskPool.mem_focused.mpr (.inr inside)) connecting
  have effect := taskStep_effect ran
  exact ⟨kept_success links effect (.inl rfl) ready.1,kept_success links effect (.inr rfl) ready.2⟩

theorem matching_congr (same : d'.secrets = d.secrets) (matching : Matching issuedFor d.nvs) :
    Matching issuedFor d'.nvs := by
  obtain ⟨_,_,_,_,_,_,storedKey,storedCert⟩ := secrets_eq same
  intro cert found
  rw [storedCert] at found
  rw [storedKey]
  exact matching cert found

theorem Consistent.run_quiet (safe : Consistent issuedFor ⟨d,before ++ t :: after⟩)
    (ran : taskStep d o t = some (d',next)) (same : d'.secrets = d.secrets)
    (fresh : ∀ point, .cert point ∈ next → point = .notify)
    (freshKey : ∀ point, .privKey point ∈ next → point = .notify)
    (keyReport : t ≠ .privKey (.report true)) (certReport : t ≠ .cert (.report true)) :
    Consistent issuedFor ⟨d',before ++ next ++ after⟩ := by
  refine ⟨safe.links.run ran,claiming_run safe.links ran safe.claiming,
    connecting_run safe.links ran safe.connecting,matching_congr same safe.matching,?_,?_,?_,?_⟩
  · refine TaskPool.every_replaced safe.privKey (fun point created => ?_) fun _ _ right =>
      right.congr same
    cases freshKey point created
    trivial
  · refine TaskPool.every_replaced safe.cert (fun point created => ?_) fun _ _ right =>
      right.congr same
    cases fresh point created
    trivial
  · intro pending
    have ready := safe.keyReady (old_success (a := .privKey) ran keyReport pending)
    have right : PrivKeyPoint.Right d (.report true) := fun _ => ready
    exact (right.congr same) rfl
  · intro pending
    have ready := safe.certReady (old_success (a := .cert) ran certReport pending)
    have right : CertPoint.Right issuedFor d (.report true) := fun _ => ready
    exact (right.congr same) rfl

theorem Consistent.run_key {point : PrivKeyPoint}
    (safe : Consistent issuedFor ⟨d,before ++ .privKey point :: after⟩)
    (unreported : point.reported = false) (reliable : reads (.privKey point) o = true)
    (ran : taskStep d o (.privKey point) = some (d',next)) :
    Consistent issuedFor ⟨d',before ++ next ++ after⟩ := by
  have mine : .privKey point ∈ before ++ .privKey point :: after := by simp
  have step := prvGetPrivKeyTask_right (safe.privKey point mine) safe.matching reliable ran
  have fresh : .privKeySuccess ∉ d.net := by
    intro pending
    exact bit_excludes (safe.links.single .privKey) (by decide) pending mine
      (privKey_holds unreported)
  have devCert : d.pcDevCert = d.nvs .certificate → d'.pcDevCert = d'.nvs .certificate := by
    intro same
    rw [step.cert]
    exact step.devCert.elim (·.trans same) id
  refine ⟨safe.links.run ran,claiming_run safe.links ran safe.claiming,
    connecting_run safe.links ran safe.connecting,?_,?_,?_,?_,?_⟩
  · intro cert found
    change d'.nvs .certificate = some cert at found
    rw [step.cert] at found
    change ∃ key, d'.nvs .key = some key ∧ _
    rw [step.key (by rw [found]; exact Option.some_ne_none cert)]
    exact safe.matching cert found
  · refine TaskPool.every_replaced safe.privKey step.points fun other inside _ => ?_
    have reported := key_alone safe.links unreported inside
    cases other with
    | notifyReport => trivial
    | _ => cases reported
  · refine TaskPool.every_replaced safe.cert ?_ ?_
    · exact fun other created => Program.noConfusion (created_alike ran rfl created)
    · intro other inside right
      have early : other.claiming = false := by
        cases claiming : other.claiming with
        | false => rfl
        | true =>
          have pending := safe.claiming other (TaskPool.mem_focused.mpr (.inr inside)) claiming
          exact absurd pending fresh
      cases other with
      | notify | read | notifyReport => trivial
      | assign value => exact right.trans step.cert.symm
      | test => exact devCert right
      | waiting => exact step.cert.trans right
      | report acquired =>
        intro success
        obtain ⟨present,same⟩ := right success
        exact ⟨fun absent => present (step.cert.symm.trans absent),devCert same⟩
      | _ => cases early
  · intro pending
    exact step.success pending fresh
  · intro pending
    obtain ⟨present,same⟩ := safe.certReady (old_success (a := .cert) ran nofun pending)
    exact ⟨fun absent => present (step.cert.symm.trans absent),devCert same⟩

theorem Consistent.run_cert {point : CertPoint}
    (safe : Consistent issuedFor ⟨d,before ++ .cert point :: after⟩)
    (unreported : point.reported = false) (reliable : reads (.cert point) o = true)
    (crashes : point = .enter → o ≠ .wild)
    (issues : ∀ a text data, point = .performVerify a → o = .pem text →
      d.claimData[a]? = some data → issuedFor text data.key)
    (ran : taskStep d o (.cert point) = some (d',next)) :
    Consistent issuedFor ⟨d',before ++ next ++ after⟩ := by
  have mine : .cert point ∈ before ++ .cert point :: after := by simp
  have fresh : .certSuccess ∉ d.net := by
    intro pending
    exact bit_excludes (safe.links.single .cert) (by decide) pending mine (cert_holds unreported)
  have step := prvGetCertTask_right (safe.cert point mine) safe.matching
    (fun claiming => safe.keyReady (safe.claiming point mine claiming)) reliable crashes issues ran
  refine ⟨safe.links.run ran,claiming_run safe.links ran safe.claiming,
    connecting_run safe.links ran safe.connecting,step.matching,?_,?_,?_,?_⟩
  · refine TaskPool.every_replaced safe.privKey ?_ ?_
    · exact fun other created => Program.noConfusion (created_alike ran rfl created)
    · intro other inside right
      cases claiming : point.claiming with
      | false => exact step.keys claiming other right
      | true =>
        have reported := key_done safe.links safe.claiming mine claiming
          (TaskPool.mem_focused.mpr (.inr inside))
        cases other with
        | notifyReport => trivial
        | _ => cases reported
  · refine TaskPool.every_replaced safe.cert step.points fun other inside _ => ?_
    have reported := cert_alone safe.links unreported inside
    cases other with
    | notifyReport => trivial
    | _ => cases reported
  · intro pending
    exact step.keyReady (safe.keyReady (old_success (a := .privKey) ran nofun pending))
  · intro pending
    exact step.success pending fresh

theorem Consistent.run (safe : Consistent issuedFor ⟨d,before ++ t :: after⟩)
    (permitted : (claimService issuedFor).permits ⟨d,before ++ t :: after⟩ t o)
    (ran : taskStep d o t = some (d',next)) : Consistent issuedFor ⟨d',before ++ next ++ after⟩ := by
  obtain ⟨reliable,crashes,issues⟩ := permitted
  cases t with
  | privKey point =>
    cases reported : point.reported with
    | false => exact safe.run_key reported reliable ran
    | true =>
      cases point <;> try cases reported
      obtain ⟨_,finished⟩ := proceed_some.mp ran
      cases finished
      exact safe.run_quiet ran rfl nofun nofun nofun nofun
  | cert point =>
    cases reported : point.reported with
    | false =>
      exact safe.run_cert reported reliable (fun entering => crashes (by rw [entering]))
        (fun a text data verifying => issues a text data (by rw [verifying])) ran
    | true =>
      cases point <;> try cases reported
      obtain ⟨_,finished⟩ := proceed_some.mp ran
      cases finished
      exact safe.run_quiet ran rfl nofun nofun nofun nofun
  | _ =>
    exact safe.run_quiet ran ((taskStep_effect ran).secrets rfl) (fun _ => created_cert ran nofun)
      (fun _ => created_key ran nofun) nofun nofun

theorem Consistent.boot {mac : Vector UInt8 6} {nvs : DurableMap RuntimeKey Str}
    (matching : Matching issuedFor nvs) : Consistent issuedFor (boot mac nvs) where
  links := .boot mac nvs
  claiming point member := by cases List.mem_singleton.mp member
  connecting point member := by cases List.mem_singleton.mp member
  matching := matching
  privKey point member := by cases List.mem_singleton.mp member
  cert point member := by cases List.mem_singleton.mp member
  keyReady pending := by cases pending
  certReady pending := by cases pending

theorem consistent_run {mac : Vector UInt8 6} {nvs : DurableMap RuntimeKey Str} {c : Config}
    (matching : Matching issuedFor nvs) (run : Reaches (claimService issuedFor) (boot mac nvs) c) :
    Consistent issuedFor c := by
  apply TaskPool.Reaches.invariant (Consistent issuedFor) run
  · exact .boot matching
  · intro c c' safe step
    cases step with
    | run s s' before after t o next permitted ran => exact safe.run permitted (exec_some ran).2
    | restart _ permitted => exact .boot safe.matching

/-- Across all boots a stored certificate was issued for the stored key, and when
the TLS task is past its wait it connects with exactly that pair. -/
theorem credentials_belong_together (issuedFor : Str → Str → Prop) (mac : Vector UInt8 6)
    (nvs : DurableMap RuntimeKey Str) (c : Config) (matching : Matching issuedFor nvs)
    (run : Reaches (claimService issuedFor) (boot mac nvs) c) :
    Matching issuedFor c.shared.nvs ∧
      ∀ point, .tls point ∈ c.tasks → point ≠ .waiting → ∃ cert key,
        c.shared.pcDevCert = some cert ∧ c.shared.pcDevKey = some key ∧
        c.shared.nvs .certificate = some cert ∧ c.shared.nvs .key = some key ∧
        issuedFor cert key := by
  have safe := consistent_run matching run
  refine ⟨safe.matching,fun point member connecting => ?_⟩
  obtain ⟨keySet,certSet⟩ := safe.connecting point member connecting
  obtain ⟨key,storedKey,ownKey,_⟩ := safe.keyReady keySet
  obtain ⟨present,same⟩ := safe.certReady certSet
  obtain ⟨cert,storedCert⟩ := Option.ne_none_iff_exists'.mp present
  obtain ⟨issued,found,belongs⟩ := safe.matching cert storedCert
  rw [storedKey,Option.some_inj] at found
  subst found
  exact ⟨cert,key,same.trans storedCert,ownKey,storedCert,storedKey,belongs⟩

end

def certificateOf (key : Str) : Str := Text.bytes "certificate of " ++ key

def issues (c : Config) (t : Task) (o : Outcome) : Bool :=
  match t with
  | .cert (.performVerify a) => match o with
    | .pem text => (c.shared.claimData[a]?).all fun data => text = certificateOf data.key
    | _ => true
  | .cert .enter => o ≠ .wild
  | _ => true

theorem issues_sound (c : Config) (t : Task) (o : Outcome)
    (admitted : (reads t o && issues c t o) = true) :
    (claimService fun cert key => cert = certificateOf key).permits c t o := by
  obtain ⟨reliable,issued⟩ := Bool.and_eq_true_iff.mp admitted
  refine ⟨reliable,?_,?_⟩
  · rintro rfl
    exact of_decide_eq_true issued
  · rintro a text data rfl rfl found
    simp only [issues,found,Option.all_some] at issued
    exact of_decide_eq_true issued

/-- The certificate of a generated key is claimed and stored, and TLS connects with both. -/
def claimsAndConnects : List (Nat × Outcome) :=
  claimBegins ++
    [(4,.go),(4,.ok),(4,.pem (certificateOf (Text.bytes "key"))),(4,.go),(4,.go),(4,.ok),(4,.go),(4,.go),
      (3,.go),(3,.go),(3,.go),(3,.ok),(3,.go)]

set_option maxRecDepth 8000 in
theorem credentials_belong_together_connecting :
    ∃ c cert key, Reaches (claimService fun cert key => cert = certificateOf key) (boot someMac named) c ∧
      c.shared.pcDevCert = some cert ∧ c.shared.pcDevKey = some key ∧ cert = certificateOf key := by
  obtain ⟨c,run,test⟩ := TaskPool.play_any machine (fun c t o => reads t o && issues c t o)
    (claimService fun cert key => cert = certificateOf key) issues_sound (boot someMac named)
    claimsAndConnects (fun c => .tls (.connect (some 0)) ∈ c.tasks) (by decide)
  obtain ⟨cert,key,ownCert,ownKey,_,_,belongs⟩ := (credentials_belong_together
    (fun cert key => cert = certificateOf key) someMac named c nofun run).2 _ (of_decide_eq_true test) nofun
  exact ⟨c,cert,key,run,ownCert,ownKey,belongs⟩

end QuickConnect.Firmware
