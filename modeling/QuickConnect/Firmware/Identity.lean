import QuickConnect.Firmware.Credentials

/-! What a failed read does to a provisioned identity. The tasks take the NULL of a
failed read for an absent value and generate a new one; where no read that they act
on fails, nothing is written. -/
namespace QuickConnect.Firmware
open EventGroup

def Complete (nvs : DurableMap RuntimeKey Str) : Prop := ∀ k, nvs k ≠ none

def ownReads (t : Task) (o : Outcome) : Bool :=
  match t with
  | .main .readThingName | .main .readNodeId => o ≠ .fail
  | .privKey .readKey | .privKey .readCert => o ≠ .fail
  | _ => true

/-- The reads of prvAssignThingNameAndNodeId and prvGetPrivKeyTask succeed, and
prvGetCertTask does not write the NULL of a failed read to pcDevCert while
prvGetPrivKeyTask is about to test it. -/
def identityRead : Policy where
  permits c t o := ownReads t o = true ∧ (t = .cert (.assign none) → .privKey .test ∉ c.tasks)
  restarts := True

def MainPoint.Named (d : Device) : MainPoint → Prop
  | .readNodeId => d.pcThingName ≠ none
  | .test => d.pcThingName ≠ none ∧ d.pcNodeId ≠ none
  | .getMac | .format | .storeNodeId | .storeThingName => False
  | _ => True

def PrivKeyPoint.Found (d : Device) : PrivKeyPoint → Prop
  | .assignKey value => value ≠ none
  | .readCert => d.pcDevKey ≠ none
  | .assignCert value => d.pcDevKey ≠ none ∧ value ≠ none
  | .test => d.pcDevKey ≠ none ∧ d.pcDevCert ≠ none
  | .generate | .assignData _ | .claimed | .store => False
  | _ => True

def CertPoint.Unclaimed : CertPoint → Prop
  | .performInit _ | .performVerify _ | .release _ _ | .take | .store => False
  | _ => True

structure Kept (nvs : DurableMap RuntimeKey Str) (c : Config) : Prop where
  links : Links c
  stored : c.shared.nvs = nvs
  claim : c.shared.pxSelfClaimData = none
  main : ∀ point, .main point ∈ c.tasks → point.Named c.shared
  privKey : ∀ point, .privKey point ∈ c.tasks → point.Found c.shared
  cert : ∀ point, .cert point ∈ c.tasks → point.Unclaimed

section
variable {d d' : Device} {o : Outcome} {next : List Task}

theorem appMain_named {point : MainPoint} (complete : Complete d.nvs) (named : point.Named d)
    (reliable : ownReads (.main point) o = true) (ran : appMain d o point = some (d',next)) :
    d'.nvs = d.nvs ∧ ∀ later, .main later ∈ next → later.Named d' := by
  have single : ∀ {later : MainPoint}, later.Named d' → d'.nvs = d.nvs →
      d'.nvs = d.nvs ∧ ∀ other, .main other ∈ [Task.main later] → other.Named d' := by
    intro later right same
    refine ⟨same,fun other member => ?_⟩
    cases List.mem_singleton.mp member
    exact right
  cases point with
  | readThingName =>
    rcases call_some.mp ran with ⟨_,ran⟩ | ⟨rfl,_⟩
    · cases ran
      exact single (complete .thingname) rfl
    · cases reliable
  | readNodeId =>
    rcases call_some.mp ran with ⟨_,ran⟩ | ⟨rfl,_⟩
    · cases ran
      exact single ⟨named,complete .nodeid⟩ rfl
    · cases reliable
  | test =>
    obtain ⟨_,ran⟩ := proceed_some.mp ran
    split at ran <;> rename_i missing <;> cases ran
    · exact (missing.elim named.1 named.2).elim
    · exact single trivial rfl
  | getMac | format | storeNodeId | storeThingName => cases named
  | createGroups =>
    obtain ⟨_,ran⟩ := proceed_some.mp ran
    cases ran
    refine ⟨rfl,fun other member => ?_⟩
    simp only [List.mem_cons,Task.main.injEq,reduceCtorEq,List.not_mem_nil,or_false] at member
    cases member
    trivial
  | createUtility | createNetwork =>
    rcases call_some.mp ran with ⟨_,ran⟩ | ⟨_,ran⟩ <;> cases ran <;>
      refine ⟨rfl,fun other member => ?_⟩ <;>
      simp only [List.mem_cons,Task.main.injEq,reduceCtorEq,List.not_mem_nil,or_false] at member <;>
      cases member <;> trivial
  | createSending =>
    rcases call_some.mp ran with ⟨_,ran⟩ | ⟨_,ran⟩ <;> cases ran <;>
      exact ⟨rfl,fun other member => by simp at member⟩

theorem prvGetPrivKeyTask_found {point : PrivKeyPoint} (complete : Complete d.nvs)
    (found : point.Found d) (reliable : ownReads (.privKey point) o = true)
    (ran : prvGetPrivKeyTask d o point = some (d',next)) :
    (d'.nvs = d.nvs ∧ d'.pxSelfClaimData = d.pxSelfClaimData) ∧
      ∀ later, .privKey later ∈ next → later.Found d' := by
  have single : ∀ {later : PrivKeyPoint}, later.Found d' →
      ∀ other, .privKey other ∈ [Task.privKey later] → other.Found d' := by
    intro later right other member
    cases List.mem_singleton.mp member
    exact right
  cases point with
  | notify =>
    obtain ⟨_,ran⟩ := proceed_some.mp ran
    cases ran
    exact ⟨⟨rfl,rfl⟩,single trivial⟩
  | readKey =>
    rcases call_some.mp ran with ⟨_,ran⟩ | ⟨rfl,_⟩
    · cases ran
      exact ⟨⟨rfl,rfl⟩,single (complete .key)⟩
    · cases reliable
  | assignKey value =>
    obtain ⟨_,ran⟩ := proceed_some.mp ran
    cases ran
    exact ⟨⟨rfl,rfl⟩,single found⟩
  | readCert =>
    rcases call_some.mp ran with ⟨_,ran⟩ | ⟨rfl,_⟩
    · cases ran
      exact ⟨⟨rfl,rfl⟩,single ⟨found,complete .certificate⟩⟩
    · cases reliable
  | assignCert value =>
    obtain ⟨key,cert⟩ := found
    obtain ⟨_,ran⟩ := proceed_some.mp ran
    cases ran
    exact ⟨⟨rfl,rfl⟩,single ⟨key,cert⟩⟩
  | test =>
    obtain ⟨_,ran⟩ := proceed_some.mp ran
    split at ran <;> rename_i missing <;> cases ran
    · exact (missing.elim found.1 found.2).elim
    · exact ⟨⟨rfl,rfl⟩,single trivial⟩
  | generate | assignData | claimed | store => cases found
  | report acquired =>
    obtain ⟨_,ran⟩ := proceed_some.mp ran
    cases ran
    exact ⟨⟨rfl,rfl⟩,single trivial⟩
  | notifyReport acquired =>
    obtain ⟨_,ran⟩ := proceed_some.mp ran
    cases ran
    exact ⟨⟨rfl,rfl⟩,fun _ member => absurd member List.not_mem_nil⟩

/-- With no claim data a certificate task writes nothing but what it read. -/
theorem prvGetCertTask_unclaimed {point : CertPoint} (claim : d.pxSelfClaimData = none)
    (unclaimed : point.Unclaimed) (ran : prvGetCertTask d o point = some (d',next)) :
    (d'.nvs = d.nvs ∧ d'.pxSelfClaimData = d.pxSelfClaimData ∧ d'.pcDevKey = d.pcDevKey) ∧
      (d'.pcDevCert = d.pcDevCert ∨ ∃ value, point = .assign value ∧ d'.pcDevCert = value) ∧
      ∀ later, .cert later ∈ next → later.Unclaimed := by
  have single : ∀ {later : CertPoint}, later.Unclaimed →
      ∀ other, .cert other ∈ [Task.cert later] → other.Unclaimed := by
    intro later right other member
    cases List.mem_singleton.mp member
    exact right
  cases point with
  | notify | report =>
    obtain ⟨_,ran⟩ := proceed_some.mp ran
    cases ran
    exact ⟨⟨rfl,rfl,rfl⟩,.inl rfl,single trivial⟩
  | read =>
    rcases call_some.mp ran with ⟨_,ran⟩ | ⟨_,ran⟩ <;> cases ran <;>
      exact ⟨⟨rfl,rfl,rfl⟩,.inl rfl,single trivial⟩
  | assign value =>
    obtain ⟨_,ran⟩ := proceed_some.mp ran
    cases ran
    exact ⟨⟨rfl,rfl,rfl⟩,.inr ⟨value,rfl,rfl⟩,single trivial⟩
  | test =>
    obtain ⟨_,ran⟩ := proceed_some.mp ran
    split at ran <;> cases ran <;> exact ⟨⟨rfl,rfl,rfl⟩,.inl rfl,single trivial⟩
  | waiting =>
    obtain ⟨_,_,rfl,rfl⟩ := awaitBits_some.mp ran
    exact ⟨⟨rfl,rfl,rfl⟩,.inl rfl,single trivial⟩
  | enter =>
    simp only [prvGetCertTask,claim,proceed_some] at ran
    obtain ⟨_,ran⟩ := ran
    cases ran
    exact ⟨⟨rfl,rfl,rfl⟩,.inl rfl,single trivial⟩
  | notifyReport acquired =>
    obtain ⟨_,ran⟩ := proceed_some.mp ran
    cases ran
    exact ⟨⟨rfl,rfl,rfl⟩,.inl rfl,fun _ member => absurd member List.not_mem_nil⟩
  | performInit | performVerify | release | take | store => cases unclaimed

theorem nvs_same (secrets : d'.secrets = d.secrets) (names : d'.names = d.names) :
    d'.nvs = d.nvs := by
  funext k
  cases k with
  | certificate => exact congrArg Secrets.storedCert secrets
  | key => exact congrArg Secrets.storedKey secrets
  | thingname => exact congrArg (·.2.2.2) names
  | nodeid => exact congrArg (·.2.2.1) names

theorem MainPoint.Named.congr (names : d'.names = d.names) {point : MainPoint}
    (named : point.Named d) : point.Named d' := by
  have thing : d'.pcThingName = d.pcThingName := congrArg (·.2.1) names
  have node : d'.pcNodeId = d.pcNodeId := congrArg (·.1) names
  cases point <;> first
    | trivial
    | simpa only [MainPoint.Named,thing,node] using named

theorem PrivKeyPoint.Found.kept {point : PrivKeyPoint} (key : d'.pcDevKey = d.pcDevKey)
    (cert : point = .test → d.pcDevCert ≠ none → d'.pcDevCert ≠ none) (found : point.Found d) :
    point.Found d' := by
  cases point with
  | readCert => exact fun absent => found (key.symm.trans absent)
  | assignCert value => exact ⟨fun absent => found.1 (key.symm.trans absent),found.2⟩
  | test => exact ⟨fun absent => found.1 (key.symm.trans absent),cert rfl found.2⟩
  | _ => exact found

end

section
variable {nvs : DurableMap RuntimeKey Str} {d d' : Device} {before after next : List Task}
  {t : Task} {o : Outcome}

theorem Kept.run_main {point : MainPoint} (complete : Complete nvs)
    (safe : Kept nvs ⟨d,before ++ .main point :: after⟩)
    (reliable : ownReads (.main point) o = true)
    (ran : taskStep d o (.main point) = some (d',next)) : Kept nvs ⟨d',before ++ next ++ after⟩ := by
  have secrets := (taskStep_effect ran).secrets rfl
  obtain ⟨key,cert,px,_⟩ := secrets_eq secrets
  have stored : d.nvs = nvs := safe.stored
  obtain ⟨same,points⟩ := appMain_named (by rwa [stored]) (safe.main point (by simp)) reliable ran
  refine ⟨safe.links.run ran,same.trans stored,?_,?_,?_,?_⟩
  · exact px.trans safe.claim
  · refine TaskPool.every_replaced safe.main points fun other inside _ => ?_
    have mine : Task.population .sending (.main point) = 1 := by cases point <;> rfl
    have theirs : Task.population .sending (.main other) = 1 := by cases other <;> rfl
    rw [alone_in_population .sending safe.links.sender mine inside] at theirs
    cases theirs
  · refine TaskPool.every_replaced safe.privKey (fun other created => ?_) fun other _ found => ?_
    · cases created_key ran nofun created
      trivial
    · exact found.kept key fun _ present absent => present (cert.symm.trans absent)
  · refine TaskPool.every_replaced safe.cert (fun other created => ?_) fun _ _ unclaimed => unclaimed
    cases created_cert ran nofun created
    trivial

theorem Kept.run_key {point : PrivKeyPoint} (complete : Complete nvs)
    (safe : Kept nvs ⟨d,before ++ .privKey point :: after⟩)
    (reliable : ownReads (.privKey point) o = true)
    (ran : taskStep d o (.privKey point) = some (d',next)) :
    Kept nvs ⟨d',before ++ next ++ after⟩ := by
  have mine : .privKey point ∈ before ++ .privKey point :: after := by simp
  have stored : d.nvs = nvs := safe.stored
  obtain ⟨⟨same,claim⟩,points⟩ :=
    prvGetPrivKeyTask_found (by rwa [stored]) (safe.privKey point mine) reliable ran
  refine ⟨safe.links.run ran,same.trans stored,claim.trans safe.claim,?_,?_,?_⟩
  · refine TaskPool.every_replaced safe.main ?_ ?_
    · exact fun other created => Program.noConfusion (created_alike ran rfl created)
    · exact fun other _ named => named.congr ((taskStep_effect ran).names rfl)
  · refine TaskPool.every_replaced safe.privKey points fun other inside found => ?_
    cases reported : point.reported with
    | false =>
      have done := key_alone safe.links reported inside
      cases other with
      | notifyReport => trivial
      | _ => cases done
    | true =>
      cases point <;> try cases reported
      obtain ⟨_,finished⟩ := proceed_some.mp ran
      cases finished
      exact found.kept rfl fun _ => id
  · refine TaskPool.every_replaced safe.cert ?_ ?_
    · exact fun other created => Program.noConfusion (created_alike ran rfl created)
    · exact fun _ _ unclaimed => unclaimed

theorem Kept.run_cert {point : CertPoint} (safe : Kept nvs ⟨d,before ++ .cert point :: after⟩)
    (unseen : point = .assign none → .privKey .test ∉ before ++ .cert point :: after)
    (ran : taskStep d o (.cert point) = some (d',next)) : Kept nvs ⟨d',before ++ next ++ after⟩ := by
  have mine : .cert point ∈ before ++ .cert point :: after := by simp
  obtain ⟨⟨same,claim,key⟩,devCert,points⟩ :=
    prvGetCertTask_unclaimed safe.claim (safe.cert point mine) ran
  refine ⟨safe.links.run ran,same.trans safe.stored,claim.trans safe.claim,?_,?_,?_⟩
  · refine TaskPool.every_replaced safe.main ?_ ?_
    · exact fun other created => Program.noConfusion (created_alike ran rfl created)
    · exact fun other _ named => named.congr ((taskStep_effect ran).names rfl)
  · refine TaskPool.every_replaced safe.privKey ?_ ?_
    · exact fun other created => Program.noConfusion (created_alike ran rfl created)
    · intro other inside found
      refine found.kept key fun testing present absent => ?_
      subst testing
      rcases devCert with unchanged | ⟨value,rfl,assigned⟩
      · exact present (unchanged.symm.trans absent)
      · rw [assigned] at absent
        subst absent
        exact unseen rfl (TaskPool.mem_focused.mpr (.inr inside))
  · exact TaskPool.every_replaced safe.cert points fun _ _ unclaimed => unclaimed

theorem Kept.run_other (safe : Kept nvs ⟨d,before ++ t :: after⟩) (secretless : t.handlesSecrets = false)
    (nameless : t.handlesNames = false) (ran : taskStep d o t = some (d',next)) :
    Kept nvs ⟨d',before ++ next ++ after⟩ := by
  have secrets := (taskStep_effect ran).secrets secretless
  have names := (taskStep_effect ran).names nameless
  obtain ⟨key,cert,px,_⟩ := secrets_eq secrets
  refine ⟨safe.links.run ran,(nvs_same secrets names).trans safe.stored,?_,?_,?_,?_⟩
  · exact px.trans safe.claim
  · refine TaskPool.every_replaced safe.main (fun other created => ?_) fun _ _ named => named.congr names
    rcases (succession ran).programs _ created with ⟨first,_⟩ | same
    · simp [firstTasks] at first
    · cases t <;> cases same
      cases nameless
  · refine TaskPool.every_replaced safe.privKey (fun other created => ?_) fun other _ found => ?_
    · have fresh := created_key ran (fun own => by cases t <;> cases own; cases secretless) created
      cases fresh
      trivial
    · exact found.kept key fun _ present absent =>
        present (cert.symm.trans absent)
  · refine TaskPool.every_replaced safe.cert (fun other created => ?_) fun _ _ unclaimed => unclaimed
    have fresh := created_cert ran (fun own => by cases t <;> cases own; cases secretless) created
    cases fresh
    trivial

theorem Kept.run (complete : Complete nvs) (safe : Kept nvs ⟨d,before ++ t :: after⟩)
    (permitted : identityRead.permits ⟨d,before ++ t :: after⟩ t o)
    (ran : taskStep d o t = some (d',next)) : Kept nvs ⟨d',before ++ next ++ after⟩ := by
  obtain ⟨reliable,unseen⟩ := permitted
  cases t with
  | main point => exact safe.run_main complete reliable ran
  | privKey point => exact safe.run_key complete reliable ran
  | cert point => exact safe.run_cert (fun assigning => unseen (by rw [assigning])) ran
  | _ => exact safe.run_other rfl rfl ran

end

theorem Kept.boot (mac : Vector UInt8 6) (nvs : DurableMap RuntimeKey Str) :
    Kept nvs (boot mac nvs) where
  links := .boot mac nvs
  stored := rfl
  claim := rfl
  main point member := by
    cases List.mem_singleton.mp member
    trivial
  privKey point member := by cases List.mem_singleton.mp member
  cert point member := by cases List.mem_singleton.mp member

theorem kept_run {mac : Vector UInt8 6} {nvs : DurableMap RuntimeKey Str} {c : Config}
    (complete : Complete nvs) (run : Reaches identityRead (boot mac nvs) c) : Kept nvs c := by
  apply TaskPool.Reaches.invariant (Kept nvs) run
  · exact .boot mac nvs
  · intro c c' safe step
    cases step with
    | run s s' before after t o next permitted ran =>
      exact safe.run complete permitted (exec_some ran).2
    | restart _ permitted =>
      have same : boot c.shared.mac c.shared.nvs = boot c.shared.mac nvs := by rw [safe.stored]
      change Kept nvs (boot c.shared.mac c.shared.nvs)
      rw [same]
      exact .boot _ _

/-- A provisioned device keeps its thing name and its pair of key and certificate in
every run in which the reads that are acted on succeed. -/
theorem identity_kept (issuedFor : Str → Str → Prop) (mac : Vector UInt8 6)
    (nvs : DurableMap RuntimeKey Str) (c : Config) (complete : Complete nvs)
    (matching : Matching issuedFor nvs) (run : Reaches identityRead (boot mac nvs) c) :
    c.shared.nvs .thingname = nvs .thingname ∧ Matching issuedFor c.shared.nvs := by
  have safe := kept_run complete run
  rw [safe.stored]
  exact ⟨rfl,matching⟩

def ownReading : Policy := ⟨fun _ t o => ownReads t o = true,True⟩

def issuedPair (cert key : Str) : Prop := cert = Text.bytes "certificate" ∧ key = Text.bytes "key"

/-- The certificate task fails to read and waits, and the key task finds both credentials. -/
def certificateUnread : List (Nat × Outcome) :=
  allStarted ++ [(4,.go),(4,.fail),(4,.go),(4,.go),(5,.go),(5,.ok),(5,.go),(5,.ok),(5,.go),(5,.go)]

def thingNameUnread : List (Nat × Outcome) :=
  [(0,.fail),(0,.ok),(0,.go),(0,.ok),(0,.random 7),(0,.ok),(0,.ok)]

def keyUnread : List (Nat × Outcome) :=
  allStarted ++
    [(5,.go),(5,.fail),(5,.go),(5,.ok),(5,.go),(5,.go),(5,.pem (Text.bytes "fresh")),(5,.go),(5,.go),(5,.ok)]

/-- The certificate task writes the NULL of its failed read just before the key task's test. -/
def certificateUnreadAtTest : List (Nat × Outcome) :=
  allStarted ++
    [(5,.go),(5,.ok),(5,.go),(5,.ok),(5,.go),(4,.go),(4,.fail),(4,.go),(5,.go),
      (5,.pem (Text.bytes "fresh")),(5,.go),(5,.go),(5,.ok)]

theorem provisioned_complete : Complete provisioned := by
  intro k
  cases k <;> exact Option.some_ne_none _

theorem provisioned_matching : Matching issuedPair provisioned := by
  intro cert found
  cases found
  exact ⟨Text.bytes "key",rfl,rfl,rfl⟩

theorem fresh_unmatched {c : Config} (test : c.shared.nvs .certificate = some (Text.bytes "certificate") ∧
    c.shared.nvs .key = some (Text.bytes "fresh")) : ¬ Matching issuedPair c.shared.nvs := by
  intro matching
  obtain ⟨key,found,_,same⟩ := matching _ test.1
  rw [test.2,Option.some_inj,same] at found
  exact absurd found (by decide)

set_option maxRecDepth 4000 in
theorem identity_kept_unread :
    ∃ c, Reaches identityRead (boot someMac provisioned) c ∧
      (.cert .waiting ∈ c.tasks ∧ .privKey (.report true) ∈ c.tasks) ∧
      c.shared.nvs .thingname = provisioned .thingname ∧ Matching issuedPair c.shared.nvs := by
  obtain ⟨c,run,test⟩ := TaskPool.play_any machine
    (fun c t o => ownReads t o && decide (t = .cert (.assign none) → .privKey .test ∉ c.tasks))
    identityRead (fun _ _ _ admitted => (Bool.and_eq_true_iff.mp admitted).imp_right of_decide_eq_true)
    (boot someMac provisioned) certificateUnread
    (fun c => .cert .waiting ∈ c.tasks ∧ .privKey (.report true) ∈ c.tasks) (by decide)
  exact ⟨c,run,of_decide_eq_true test,
    identity_kept issuedPair someMac provisioned c provisioned_complete provisioned_matching run⟩

set_option maxRecDepth 4000 in
theorem identity_destroyed :
    (∃ c, Reaches TaskPool.Policy.free (boot someMac provisioned) c ∧
      c.shared.nvs .thingname ≠ provisioned .thingname) ∧
    (∃ c, Reaches TaskPool.Policy.free (boot someMac provisioned) c ∧
      ¬ Matching issuedPair c.shared.nvs) ∧
    ∃ c, Reaches ownReading (boot someMac provisioned) c ∧ ¬ Matching issuedPair c.shared.nvs := by
  refine ⟨?_,?_,?_⟩
  · obtain ⟨c,run,test⟩ := TaskPool.play_free machine (boot someMac provisioned) thingNameUnread
      (fun c => c.shared.nvs .thingname ≠ provisioned .thingname) (by decide)
    exact ⟨c,run,of_decide_eq_true test⟩
  · obtain ⟨c,run,test⟩ := TaskPool.play_free machine (boot someMac provisioned) keyUnread
      (fun c => c.shared.nvs .certificate = some (Text.bytes "certificate") ∧
        c.shared.nvs .key = some (Text.bytes "fresh")) (by decide)
    exact ⟨c,run,fresh_unmatched (of_decide_eq_true test)⟩
  · obtain ⟨c,run,test⟩ := TaskPool.play_any machine (fun _ t o => ownReads t o) ownReading
      (fun _ _ _ => id) (boot someMac provisioned) certificateUnreadAtTest
      (fun c => c.shared.nvs .certificate = some (Text.bytes "certificate") ∧
        c.shared.nvs .key = some (Text.bytes "fresh")) (by decide)
    exact ⟨c,run,fresh_unmatched (of_decide_eq_true test)⟩

end QuickConnect.Firmware
