import QuickConnect.Firmware.TlsHandle

/-! The lifetime of the claim data. Performing a claim releases it, but the pointer
to it stays, and only a certificate that was acquired keeps it from being used again. -/
namespace QuickConnect.Firmware
open EventGroup

def Device.ClaimLive (d : Device) : Prop := ∀ a, d.pxSelfClaimData = some a → d.claimDataLive a

def Device.FreedOnce (d : Device) : Prop := ∀ data ∈ d.claimData, data.frees ≤ 1

def CertPoint.claiming : CertPoint → Bool
  | .enter | .performInit _ | .performVerify _ | .release _ _ | .take | .store => true
  | _ => false

def CertPoint.released : CertPoint → Bool
  | .take | .store | .report true => true
  | _ => false

def CertPoint.Sound (d : Device) : CertPoint → Prop
  | .notify | .read | .assign _ | .test | .waiting | .enter => d.ClaimLive
  | .performInit a | .performVerify a => d.pxSelfClaimData = some a ∧ d.claimDataLive a
  | .release a verified =>
    verified = true ∧ d.claimDataLive a ∧ d.selfClaimCertificate ≠ none
  | .take => d.selfClaimCertificate ≠ none
  | .store => d.pcDevCert ≠ none
  | .report acquired => acquired = false → d.ClaimLive
  | .notifyReport _ => True

def PrivKeyPoint.Sound (d : Device) : PrivKeyPoint → Prop
  | .assignData address => ∀ a, address = some a → d.claimDataLive a
  | _ => True

structure Claimable (c : Config) : Prop where
  links : Links c
  claiming : ∀ point, .cert point ∈ c.tasks → point.claiming = true → .privKeySuccess ∈ c.shared.net
  cert : ∀ point, .cert point ∈ c.tasks → point.Sound c.shared
  privKey : ∀ point, .privKey point ∈ c.tasks → point.Sound c.shared
  live : c.shared.ClaimLive ∨ .certSuccess ∈ c.shared.net ∨
    ∃ point, .cert point ∈ c.tasks ∧ point.released = true
  once : c.shared.FreedOnce

def verified (t : Task) (o : Outcome) : Bool :=
  match t with
  | .cert (.performVerify _) => match o with
    | .pem _ => true
    | _ => false
  | _ => true

def stored (t : Task) (o : Outcome) : Bool :=
  match t with
  | .cert .store => o = .ok
  | _ => true

/-- Every verify exchange brings a certificate. -/
def verifying : Policy := ⟨fun _ t o => verified t o = true,True⟩

/-- Every claimed certificate is stored. -/
def storing : Policy := ⟨fun _ t o => stored t o = true,True⟩

def serving : Policy := ⟨fun _ t o => verified t o = true ∧ stored t o = true,True⟩

section
variable {d d' : Device} {o : Outcome} {next : List Task}

theorem claimDataLive_append {a : Nat} {more : List ClaimObject} (live : d.claimDataLive a) :
    Device.claimDataLive { d with claimData := d.claimData ++ more } a := by
  obtain ⟨data,found,unfreed⟩ := live
  exact ⟨data,Heap.found_allocated found more,unfreed⟩

theorem freeClaimData_once {a : Nat} (live : d.claimDataLive a) (once : d.FreedOnce) :
    (d.freeClaimData a).FreedOnce := by
  obtain ⟨own,found,unfreed⟩ := live
  refine Heap.every_changed once fun data same => ?_
  rw [found,Option.some_inj] at same
  subst same
  exact (congrArg (· + 1) unfreed).le

theorem append_once {data : ClaimObject} (few : data.frees ≤ 1) (once : d.FreedOnce) :
    Device.FreedOnce { d with claimData := d.claimData ++ [data] } :=
  Heap.every_allocated once few

/-- What a step of the key task leaves alone of the claim data, and what it guarantees. -/
structure KeyStep (d d' : Device) (next : List Task) : Prop where
  points : ∀ point, .privKey point ∈ next → point.Sound d'
  live : d.ClaimLive → d'.ClaimLive
  persists : ∀ a, d.claimDataLive a → d'.claimDataLive a
  once : d'.FreedOnce

theorem KeyStep.at {point : PrivKeyPoint} (sound : point.Sound d')
    (live : d.ClaimLive → d'.ClaimLive) (persists : ∀ a, d.claimDataLive a → d'.claimDataLive a)
    (once : d'.FreedOnce) : KeyStep d d' [.privKey point] where
  points other member := by
    cases List.mem_singleton.mp member
    exact sound
  live := live
  persists := persists
  once := once

theorem PrivKeyPoint.sound_unclaimed : (PrivKeyPoint.assignData none).Sound d := by
  intro a same
  cases same

theorem CertPoint.sound_acquired : (CertPoint.report true).Sound d := by
  intro failed
  cases failed

theorem prvGetPrivKeyTask_claim {point : PrivKeyPoint} (sound : point.Sound d)
    (once : d.FreedOnce) (ran : prvGetPrivKeyTask d o point = some (d',next)) :
    KeyStep d d' next := by
  cases point with
  | generate =>
    cases o <;> simp only [prvGetPrivKeyTask,reduceCtorEq] at ran
    case pem text =>
      cases ran
      refine .at ?_ ?_ (fun a => claimDataLive_append) (append_once (Nat.zero_le _) once)
      · intro a same
        cases same
        refine ⟨⟨text,0⟩,?_,rfl⟩
        simp
      · intro live a current
        exact claimDataLive_append (live a current)
    case noCsr text =>
      cases ran
      refine .at PrivKeyPoint.sound_unclaimed ?_ (fun a => claimDataLive_append)
        (append_once (Nat.le_refl _) once)
      intro live a current
      exact claimDataLive_append (live a current)
    case fail =>
      cases ran
      exact .at PrivKeyPoint.sound_unclaimed id (fun _ => id) once
    case noMemory =>
      cases ran
      exact .at trivial id (fun _ => id) once
  | assignData address =>
    obtain ⟨_,ran⟩ := proceed_some.mp ran
    cases ran
    exact .at trivial (fun _ => sound) (fun _ => id) once
  | notifyReport acquired =>
    obtain ⟨_,ran⟩ := proceed_some.mp ran
    cases ran
    exact ⟨fun _ member => absurd member List.not_mem_nil,id,fun _ => id,once⟩
  | _ =>
    cases o <;> simp only [prvGetPrivKeyTask,proceed,call,reduceCtorEq] at ran
    all_goals (try split at ran) <;> cases ran <;> exact .at trivial id (fun _ => id) once

structure CertStep (point : CertPoint) (d d' : Device) (next : List Task) : Prop where
  points : ∀ later, .cert later ∈ next → later.Sound d'
  live : d'.ClaimLive ∨ .certSuccess ∈ d'.net ∨ ∃ later, .cert later ∈ next ∧ later.released = true
  persists : point.claiming = false → ∀ a, d.claimDataLive a → d'.claimDataLive a
  once : d'.FreedOnce

theorem CertStep.at {point later : CertPoint} (sound : later.Sound d')
    (live : d'.ClaimLive ∨ later.released = true) (once : d'.FreedOnce)
    (persists : point.claiming = false → ∀ a, d.claimDataLive a → d'.claimDataLive a) :
    CertStep point d d' [.cert later] where
  points other member := by
    cases List.mem_singleton.mp member
    exact sound
  live := live.imp_right fun released => .inr ⟨later,List.mem_singleton_self _,released⟩
  persists := persists
  once := once

theorem live_of_current {a : Nat} (current : d.pxSelfClaimData = some a) (live : d.claimDataLive a) :
    d.ClaimLive := by
  intro b same
  rw [current,Option.some_inj] at same
  subst same
  exact live

theorem prvGetCertTask_claim {point : CertPoint} (unreported : point.reported = false)
    (sound : point.Sound d) (once : d.FreedOnce) (verifies : verified (.cert point) o = true)
    (stores : stored (.cert point) o = true)
    (ran : prvGetCertTask d o point = some (d',next)) : CertStep point d d' next := by
  cases point with
  | waiting =>
    obtain ⟨_,_,rfl,rfl⟩ := awaitBits_some.mp ran
    exact .at sound (.inl sound) once (fun _ _ => id)
  | enter =>
    simp only [prvGetCertTask] at ran
    split at ran
    · obtain ⟨_,ran⟩ := proceed_some.mp ran
      cases ran
      exact .at (fun _ => sound) (.inl sound) once (fun _ _ => id)
    · rename_i a current
      have live := sound a current
      rw [if_pos live] at ran
      obtain ⟨_,ran⟩ := proceed_some.mp ran
      cases ran
      exact .at ⟨current,live⟩ (.inl sound) once (fun _ _ => id)
  | performInit a =>
    have live := live_of_current sound.1 sound.2
    rcases call_some.mp ran with ⟨_,ran⟩ | ⟨_,ran⟩ <;> cases ran
    · exact .at sound (.inl live) once (fun _ _ => id)
    · exact .at (fun _ => live) (.inl live) once (fun _ _ => id)
  | performVerify a =>
    cases o with
    | pem text =>
      cases ran
      refine .at ⟨rfl,sound.2,Option.some_ne_none text⟩ (.inl ?_) once (fun _ _ => id)
      exact live_of_current (d := { d with selfClaimCertificate := some text }) sound.1 sound.2
    | _ => cases verifies
  | release a verified =>
    obtain ⟨rfl,live,certificate⟩ := sound
    obtain ⟨_,ran⟩ := proceed_some.mp ran
    cases ran
    exact .at certificate (.inr rfl) (freeClaimData_once live once) fun idle => by cases idle
  | take =>
    obtain ⟨_,ran⟩ := proceed_some.mp ran
    cases ran
    exact .at sound (.inr rfl) once (fun _ _ => id)
  | store =>
    rcases call_some.mp ran with ⟨_,ran⟩ | ⟨rfl,ran⟩ <;> cases ran
    · obtain ⟨text,certificate⟩ := Option.ne_none_iff_exists'.mp sound
      have stored : (d.nvs.write true .certificate d.pcDevCert).2 = true := by
        rw [certificate,DurableMap.write_some]
      rw [stored]
      exact .at CertPoint.sound_acquired (.inr rfl) once (fun _ _ => id)
    · cases stores
  | report acquired =>
    obtain ⟨_,ran⟩ := proceed_some.mp ran
    cases ran
    refine ⟨fun later member => ?_,?_,fun _ _ => id,once⟩
    · cases List.mem_singleton.mp member
      trivial
    · cases acquired with
      | true => exact .inr (.inl (by simp))
      | false => exact .inl (sound rfl)
  | notifyReport acquired => cases unreported
  | test =>
    obtain ⟨_,ran⟩ := proceed_some.mp ran
    split at ran <;> cases ran
    · exact .at sound (.inl sound) once (fun _ _ => id)
    · exact .at CertPoint.sound_acquired (.inl sound) once (fun _ _ => id)
  | _ =>
    cases o <;> simp only [prvGetCertTask,proceed,call,reduceCtorEq] at ran <;> cases ran <;>
      exact .at sound (.inl sound) once (fun _ _ => id)

theorem claiming_next {point later : CertPoint} (ran : prvGetCertTask d o point = some (d',next))
    (created : .cert later ∈ next) (claiming : later.claiming = true) :
    point.claiming = true ∨ .privKeySuccess ∈ d.net := by
  cases point with
  | waiting =>
    obtain ⟨_,ready,_,_⟩ := awaitBits_some.mp ran
    exact .inr (ready (by decide))
  | enter | performInit | performVerify | release | take | store => exact .inl rfl
  | notify | assign | report | notifyReport =>
    obtain ⟨_,ran⟩ := proceed_some.mp ran
    cases ran
    first | cases List.mem_singleton.mp created; cases claiming | cases created
  | read =>
    rcases call_some.mp ran with ⟨_,ran⟩ | ⟨_,ran⟩ <;> cases ran <;>
      cases List.mem_singleton.mp created <;> cases claiming
  | test =>
    obtain ⟨_,ran⟩ := proceed_some.mp ran
    split at ran <;> cases ran <;> cases List.mem_singleton.mp created <;> cases claiming

theorem clears_success {t : Task} {b : NetworkBit} (credential : b = .privKeySuccess ∨ b = .certSuccess)
    (clears : b ∈ t.clears) : t = .main .createGroups := by
  cases t with
  | main point =>
    by_cases same : point = .createGroups
    · rw [same]
    · simp [Task.clears,same] at clears
  | handler point => rcases credential with rfl | rfl <;> cases point <;> simp [Task.clears] at clears
  | network point =>
    rcases credential with rfl | rfl <;> cases point <;> simp [Task.clears,restartMask] at clears
  | mqtt point =>
    rcases credential with rfl | rfl <;> cases point <;> simp [Task.clears] at clears <;>
      split at clears <;> simp at clears
  | sending point =>
    rcases credential with rfl | rfl <;> cases point <;> simp [Task.clears] at clears <;>
      split at clears <;> simp at clears
  | _ => simp [Task.clears] at clears

theorem CertPoint.Sound.congr (same : d'.secrets = d.secrets) {point : CertPoint}
    (sound : point.Sound d) : point.Sound d' := by
  obtain ⟨_,cert,px,heap,_,taken,_,_⟩ := secrets_eq same
  cases point <;> first
    | trivial
    | simpa only [CertPoint.Sound,Device.ClaimLive,Device.claimDataLive,px,heap,taken,cert] using sound

theorem PrivKeyPoint.Sound.congr (persists : ∀ a, d.claimDataLive a → d'.claimDataLive a)
    {point : PrivKeyPoint} (sound : point.Sound d) : point.Sound d' := by
  cases point with
  | assignData address => exact fun a same => persists a (sound a same)
  | _ => trivial

theorem ClaimLive.congr (same : d'.secrets = d.secrets) (live : d.ClaimLive) : d'.ClaimLive :=
  CertPoint.Sound.congr same (show CertPoint.notify.Sound d from live)

end

section
variable {d d' : Device} {before after next : List Task} {t : Task} {o : Outcome}

theorem kept_success (links : Links ⟨d,before ++ t :: after⟩) (effect : Effect t d d')
    {b : NetworkBit} (credential : b = .privKeySuccess ∨ b = .certSuccess) (pending : b ∈ d.net) :
    b ∈ d'.net := by
  have mine : t ∈ before ++ t :: after := by simp
  rw [effect.net,mem_setBits,mem_clearBits]
  refine .inl ⟨pending,fun clears => ?_⟩
  cases clears_success credential clears
  rcases credential with rfl | rfl
  · exact bit_excludes (links.single .privKey) (by decide) pending mine rfl
  · exact bit_excludes (links.single .cert) (by decide) pending mine rfl

theorem cert_holds {point : CertPoint} (unreported : point.reported = false) :
    Task.holds .cert (.cert point) = true := by
  simp [Task.holds,Task.unreported,unreported]

theorem privKey_holds {point : PrivKeyPoint} (unreported : point.reported = false) :
    Task.holds .privKey (.privKey point) = true := by
  simp [Task.holds,Task.unreported,unreported]

theorem released_unreported {point : CertPoint} (released : point.released = true) :
    point.reported = false := by
  cases point <;> first | rfl | cases released

theorem cert_alone {point other : CertPoint} (links : Links ⟨d,before ++ .cert point :: after⟩)
    (unreported : point.reported = false) (inside : .cert other ∈ before ++ after) :
    other.reported = true := by
  cases reported : other.reported with
  | true => rfl
  | false =>
    exact (task_excludes (links.single .cert) (cert_holds unreported) inside
      (cert_holds reported)).elim

theorem created_alike {u : Task} (ran : taskStep d o t = some (d',next)) (quiet : t.spawns = false)
    (created : u ∈ next) : u.program = t.program := by
  rcases (succession ran).programs u created with ⟨_,spawns⟩ | same
  · exact Bool.noConfusion (quiet.symm.trans spawns)
  · exact same

theorem created_cert {point : CertPoint} (ran : taskStep d o t = some (d',next))
    (other : t.program ≠ .cert) (created : .cert point ∈ next) : point = .notify := by
  rcases (succession ran).programs _ created with ⟨first,_⟩ | same
  · simpa [firstTasks] using first
  · exact absurd same.symm other

theorem created_key {point : PrivKeyPoint} (ran : taskStep d o t = some (d',next))
    (other : t.program ≠ .privKey) (created : .privKey point ∈ next) : point = .notify := by
  rcases (succession ran).programs _ created with ⟨first,_⟩ | same
  · simpa [firstTasks] using first
  · exact absurd same.symm other

theorem claiming_run (links : Links ⟨d,before ++ t :: after⟩)
    (ran : taskStep d o t = some (d',next))
    (claims : ∀ point, .cert point ∈ before ++ t :: after → point.claiming = true →
      .privKeySuccess ∈ d.net) :
    ∀ point, .cert point ∈ before ++ next ++ after → point.claiming = true →
      .privKeySuccess ∈ d'.net := by
  intro point member claiming
  apply kept_success links (taskStep_effect ran) (.inl rfl)
  rcases TaskPool.mem_replaced.mp member with created | inside
  · cases t with
    | cert own =>
      have mine : .cert own ∈ before ++ .cert own :: after := by simp
      exact (claiming_next ran created claiming).elim (claims own mine) id
    | _ =>
      cases created_cert ran nofun created
      cases claiming
  · exact claims point (TaskPool.mem_focused.mpr (.inr inside)) claiming

theorem key_alone {point other : PrivKeyPoint} (links : Links ⟨d,before ++ .privKey point :: after⟩)
    (unreported : point.reported = false) (inside : .privKey other ∈ before ++ after) :
    other.reported = true := by
  cases reported : other.reported with
  | true => rfl
  | false =>
    exact (task_excludes (links.single .privKey) (privKey_holds unreported) inside
      (privKey_holds reported)).elim

/-- No key task runs beside a certificate task that is claiming. -/
theorem key_done {c : Config} (links : Links c)
    (claims : ∀ point, .cert point ∈ c.tasks → point.claiming = true → .privKeySuccess ∈ c.shared.net)
    {point : CertPoint} (member : .cert point ∈ c.tasks) (claiming : point.claiming = true)
    {key : PrivKeyPoint} (other : .privKey key ∈ c.tasks) : key.reported = true := by
  cases unreported : key.reported with
  | true => rfl
  | false =>
    have pending := claims point member claiming
    exact (bit_excludes (links.single .privKey) (by decide) pending other
      (privKey_holds unreported)).elim

theorem Claimable.run_quiet (safe : Claimable ⟨d,before ++ t :: after⟩)
    (ran : taskStep d o t = some (d',next)) (same : d'.secrets = d.secrets)
    (fresh : ∀ point, .cert point ∈ next → point = .notify)
    (freshKey : ∀ point, .privKey point ∈ next → point = .notify)
    (holding : ∀ point, t = .cert point → point.released = false) :
    Claimable ⟨d',before ++ next ++ after⟩ := by
  have links := safe.links.run ran
  have effect := taskStep_effect ran
  have heap : d'.claimData = d.claimData := congrArg Secrets.claimData same
  have live : d'.ClaimLive ∨ .certSuccess ∈ d'.net ∨
      ∃ point, .cert point ∈ before ++ after ∧ point.released = true := by
    rcases safe.live with live | success | ⟨point,member,released⟩
    · exact .inl (ClaimLive.congr same live)
    · exact .inr (.inl (kept_success safe.links effect (.inr rfl) success))
    · refine .inr (.inr ⟨point,?_,released⟩)
      rcases TaskPool.mem_focused.mp member with own | inside
      · have unreleased := holding point own.symm
        rw [released] at unreleased
        cases unreleased
      · exact inside
  refine ⟨links,claiming_run safe.links ran safe.claiming,?_,?_,?_,?_⟩
  · intro point member
    rcases TaskPool.mem_replaced.mp member with created | inside
    · have single := links.single .cert
      cases fresh point created
      rcases live with live | success | ⟨other,inside,released⟩
      · exact live
      · exact (bit_excludes single (by decide) success member rfl).elim
      · have pair := TaskPool.created_le_total (fun d : Device => held Activity.cert.bits d.net)
          (Task.weight .cert) d' created inside
        have other_holds := cert_holds (released_unreported released)
        unfold tokens at single
        rw [Task.weight,Task.weight,other_holds] at pair
        change _ + 1 + 1 ≤ _ at pair
        omega
    · exact (safe.cert point (TaskPool.mem_focused.mpr (.inr inside))).congr same
  · refine TaskPool.every_replaced safe.privKey (fun point created => ?_) fun point _ sound => ?_
    · cases freshKey point created
      trivial
    · exact sound.congr fun a ⟨data,found,unfreed⟩ => ⟨data,by rw [heap,found],unfreed⟩
  · refine live.imp_right (.imp_right fun ⟨point,inside,released⟩ => ⟨point,?_,released⟩)
    exact TaskPool.mem_replaced.mpr (.inr inside)
  · change ∀ data ∈ d'.claimData, _
    rw [heap]
    exact safe.once

theorem Claimable.run_key {point : PrivKeyPoint}
    (safe : Claimable ⟨d,before ++ .privKey point :: after⟩) (unreported : point.reported = false)
    (ran : taskStep d o (.privKey point) = some (d',next)) :
    Claimable ⟨d',before ++ next ++ after⟩ := by
  have mine : .privKey point ∈ before ++ .privKey point :: after := by simp
  have effect := taskStep_effect ran
  have step := prvGetPrivKeyTask_claim (safe.privKey point mine) safe.once ran
  have noCert : ∀ other, .cert other ∉ next := fun other created =>
    Program.noConfusion (created_alike ran rfl created)
  have waiting : ∀ other, .cert other ∈ before ++ after → other.claiming = false := by
    intro other inside
    cases claiming : other.claiming with
    | false => rfl
    | true =>
      have done := key_done safe.links safe.claiming (TaskPool.mem_focused.mpr (.inr inside))
        claiming mine
      exact Bool.noConfusion (unreported.symm.trans done)
  refine ⟨safe.links.run ran,claiming_run safe.links ran safe.claiming,?_,?_,?_,step.once⟩
  · refine TaskPool.every_replaced safe.cert ?_ ?_
    · exact fun other created => (noCert other created).elim
    · intro other inside sound
      have early := waiting other inside
      cases other with
      | notify | read | assign | test | waiting => exact step.live sound
      | report acquired => exact fun failed => step.live (sound failed)
      | notifyReport => trivial
      | _ => cases early
  · exact TaskPool.every_replaced safe.privKey step.points fun _ _ sound => sound.congr step.persists
  · rcases safe.live with live | success | ⟨other,member,released⟩
    · exact .inl (step.live live)
    · exact .inr (.inl (kept_success safe.links effect (.inr rfl) success))
    · refine .inr (.inr ⟨other,TaskPool.mem_replaced.mpr (.inr ?_),released⟩)
      rcases TaskPool.mem_focused.mp member with own | inside
      · cases own
      · exact inside

theorem Claimable.run_cert {point : CertPoint}
    (safe : Claimable ⟨d,before ++ .cert point :: after⟩) (unreported : point.reported = false)
    (verifies : verified (.cert point) o = true) (stores : stored (.cert point) o = true)
    (ran : taskStep d o (.cert point) = some (d',next)) :
    Claimable ⟨d',before ++ next ++ after⟩ := by
  have mine : .cert point ∈ before ++ .cert point :: after := by simp
  have step := prvGetCertTask_claim unreported (safe.cert point mine) safe.once verifies stores ran
  refine ⟨safe.links.run ran,claiming_run safe.links ran safe.claiming,?_,?_,?_,step.once⟩
  · refine TaskPool.every_replaced safe.cert step.points fun other inside _ => ?_
    have reported := cert_alone safe.links unreported inside
    cases other with
    | notifyReport => trivial
    | _ => cases reported
  · refine TaskPool.every_replaced safe.privKey ?_ ?_
    · exact fun other created => Program.noConfusion (created_alike ran rfl created)
    · intro other inside sound
      cases claiming : point.claiming with
      | false => exact sound.congr (step.persists claiming)
      | true =>
        have reported := key_done safe.links safe.claiming mine claiming
          (TaskPool.mem_focused.mpr (.inr inside))
        cases other with
        | notifyReport => trivial
        | _ => cases reported
  · refine step.live.imp_right (.imp_right fun ⟨other,created,released⟩ => ⟨other,?_,released⟩)
    exact TaskPool.mem_replaced.mpr (.inl created)

theorem Claimable.run (safe : Claimable ⟨d,before ++ t :: after⟩) (verifies : verified t o = true)
    (stores : stored t o = true) (ran : taskStep d o t = some (d',next)) :
    Claimable ⟨d',before ++ next ++ after⟩ := by
  cases t with
  | privKey point =>
    cases reported : point.reported with
    | false => exact safe.run_key reported ran
    | true =>
      cases point <;> try cases reported
      obtain ⟨_,finished⟩ := proceed_some.mp ran
      cases finished
      exact safe.run_quiet ran rfl nofun nofun nofun
  | cert point =>
    cases reported : point.reported with
    | false => exact safe.run_cert reported verifies stores ran
    | true =>
      cases point <;> try cases reported
      obtain ⟨_,finished⟩ := proceed_some.mp ran
      cases finished
      refine safe.run_quiet ran rfl nofun nofun fun point own => ?_
      cases own
      rfl
  | _ =>
    exact safe.run_quiet ran ((taskStep_effect ran).secrets rfl) (fun _ => created_cert ran nofun)
      (fun _ => created_key ran nofun) nofun

end

theorem Claimable.boot (mac : Vector UInt8 6) (nvs : DurableMap RuntimeKey Str) :
    Claimable (boot mac nvs) where
  links := .boot mac nvs
  claiming point member := by cases List.mem_singleton.mp member
  cert point member := by cases List.mem_singleton.mp member
  privKey point member := by cases List.mem_singleton.mp member
  live := .inl nofun
  once := nofun

theorem claimable_run {mac : Vector UInt8 6} {nvs : DurableMap RuntimeKey Str} {c : Config}
    (run : Reaches serving (boot mac nvs) c) : Claimable c := by
  apply TaskPool.Reaches.invariant Claimable run
  · exact .boot mac nvs
  · intro c c' safe step
    cases step with
    | run s s' before after t o next permitted ran =>
      exact safe.run permitted.1 permitted.2 (exec_some ran).2
    | restart _ permitted => exact .boot _ _

instance (d : Device) : Decidable d.ClaimLive :=
  decidable_of_iff (d.pxSelfClaimData.all fun a => d.claimDataLive a) (by
    unfold Device.ClaimLive
    cases d.pxSelfClaimData <;> simp)

instance (d : Device) : Decidable d.FreedOnce := by
  unfold Device.FreedOnce
  infer_instance

/-- Claim data is live whenever a claim is performed and is never freed twice, in every
run in which the verify exchanges succeed and the certificates claimed are stored. -/
theorem claim_data_live (mac : Vector UInt8 6) (nvs : DurableMap RuntimeKey Str) (c : Config)
    (run : Reaches serving (boot mac nvs) c) :
    (.cert .enter ∈ c.tasks → c.shared.ClaimLive) ∧ c.shared.FreedOnce := by
  have safe := claimable_run run
  exact ⟨safe.cert .enter,safe.once⟩

def named : DurableMap RuntimeKey Str
  | .thingname => some (Text.bytes "thing")
  | .nodeid => some (Text.bytes "node")
  | _ => none

/-- A key is generated and stored, and a claim with its claim data begins. -/
def claimBegins : List (Nat × Outcome) :=
  allStarted ++
    [(5,.go),(5,.ok),(5,.go),(5,.ok),(5,.go),(5,.go),(5,.pem (Text.bytes "key")),(5,.go),(5,.go),
      (5,.ok),(5,.go),(5,.go),(4,.go),(4,.ok),(4,.go),(4,.go),(4,.go)]

def claimFailsAtVerify : List (Nat × Outcome) := [(4,.go),(4,.ok),(4,.fail),(4,.go),(4,.go),(4,.go)]

def claimFailsAtStore : List (Nat × Outcome) :=
  [(4,.go),(4,.ok),(4,.pem (Text.bytes "certificate")),(4,.go),(4,.go),(4,.fail),(4,.go),(4,.go)]

/-- The supervisor starts the certificate task again, which comes to performing the claim. -/
def claimBeginsAgain : List (Nat × Outcome) :=
  [(1,.go),(1,.go),(1,.go),(1,.ok),(1,.go),(1,.go),(2,.go),(2,.ok),(2,.go),(2,.go),(2,.go)]

set_option maxRecDepth 4000 in
theorem claim_data_live_entering :
    ∃ c, Reaches serving (boot someMac named) c ∧ .cert .enter ∈ c.tasks ∧
      c.shared.pxSelfClaimData = some 0 ∧ c.shared.claimDataLive 0 := by
  obtain ⟨c,run,test⟩ := TaskPool.play_any machine (fun _ t o => verified t o && stored t o) serving
    (fun _ _ _ => Bool.and_eq_true_iff.mp) (boot someMac named) claimBegins
    (fun c => .cert .enter ∈ c.tasks ∧ c.shared.pxSelfClaimData = some 0) (by decide)
  obtain ⟨member,current⟩ := of_decide_eq_true test
  exact ⟨c,run,member,current,(claim_data_live someMac named c run).1 member 0 current⟩

set_option maxRecDepth 8000 in
theorem claim_data_used_after_release :
    (∃ c, Reaches storing (boot someMac named) c ∧ .cert .enter ∈ c.tasks ∧ ¬ c.shared.ClaimLive) ∧
      (∃ c, Reaches verifying (boot someMac named) c ∧ .cert .enter ∈ c.tasks ∧
        ¬ c.shared.ClaimLive) ∧
      ∃ c, Reaches TaskPool.Policy.free (boot someMac named) c ∧ ¬ c.shared.FreedOnce := by
  refine ⟨?_,?_,?_⟩
  · obtain ⟨c,run,test⟩ := TaskPool.play_any machine (fun _ t o => stored t o) storing
      (fun _ _ _ => id) (boot someMac named) (claimBegins ++ claimFailsAtVerify ++ claimBeginsAgain)
      (fun c => .cert .enter ∈ c.tasks ∧ ¬ c.shared.ClaimLive) (by decide)
    exact ⟨c,run,of_decide_eq_true test⟩
  · obtain ⟨c,run,test⟩ := TaskPool.play_any machine (fun _ t o => verified t o) verifying
      (fun _ _ _ => id) (boot someMac named) (claimBegins ++ claimFailsAtStore ++ claimBeginsAgain)
      (fun c => .cert .enter ∈ c.tasks ∧ ¬ c.shared.ClaimLive) (by decide)
    exact ⟨c,run,of_decide_eq_true test⟩
  · obtain ⟨c,run,test⟩ := TaskPool.play_free machine (boot someMac named)
      (claimBegins ++ claimFailsAtVerify ++ claimBeginsAgain ++ [(2,.wild),(2,.ok),(2,.fail),(2,.go)])
      (fun c => ¬ c.shared.FreedOnce) (by decide)
    exact ⟨c,run,of_decide_eq_true test⟩

end QuickConnect.Firmware
