import QuickConnect.Firmware.Credentials
import QuickConnect.Firmware.Names
import QuickConnect.Firmware.SerialProtocol

/-! What the utility is told and keeps: the certificate and the thing name on the serial line
are those on flash, and neither is replaced in that boot or a later one. -/
namespace QuickConnect.Firmware
open EventGroup

section Registration
variable {d d' : Device} {o : Outcome} {next : List Task} {before after : List Task} {t : Task}

/-- The node ID is written before the thing name. -/
def Device.Ordered (d : Device) : Prop := d.nvs .thingname ≠ none → d.nvs .nodeid ≠ none

def Device.Registered (d : Device) : Prop := ∃ name, d.pcThingName = some name ∧
  d.nvs .thingname = some name

def MainPoint.Registers (d : Device) : MainPoint → Prop
  | .readThingName => True
  | .readNodeId => d.pcThingName = d.nvs .thingname
  | .test => d.pcThingName = d.nvs .thingname ∧ d.pcNodeId = d.nvs .nodeid
  | .getMac | .format => d.nvs .thingname = none
  | .storeNodeId => d.nvs .thingname = none ∧ d.pcThingName ≠ none ∧ d.pcNodeId ≠ none
  | .storeThingName => d.nvs .thingname = none ∧ d.pcThingName ≠ none ∧ d.nvs .nodeid ≠ none
  | .createGroups | .createUtility | .createNetwork | .createSending => False

/-- The thing name is stored before there is a task that uses it. -/
inductive Registering (d : Device) : List Task → Prop
  | given_up : Registering d []
  | assigning {point} (registers : point.Registers d) : Registering d [.main point]
  | started {tasks} (registered : d.Registered)
      (creates : ∀ point, .main point ∈ tasks → point.creates = true) : Registering d tasks

theorem Registering.create (registered : d.Registered) : Registering d [.main .createGroups] := by
  refine .started registered fun point inside => ?_
  cases List.mem_singleton.mp inside
  rfl

theorem appMain_registers {point : MainPoint} (registers : point.Registers d) (ordered : d.Ordered)
    (reliable : reads (.main point) o = true) (ran : appMain d o point = some (d',next)) :
    Registering d' next ∧ d'.Ordered ∧ (d.nvs .thingname ≠ none → d'.nvs = d.nvs) := by
  cases point with
  | readThingName =>
    rcases call_some.mp ran with ⟨_,ran⟩ | ⟨rfl,_⟩
    · cases ran
      exact ⟨.assigning rfl,ordered,fun _ => rfl⟩
    · cases reliable
  | readNodeId =>
    rcases call_some.mp ran with ⟨_,ran⟩ | ⟨rfl,_⟩
    · cases ran
      exact ⟨.assigning ⟨registers,rfl⟩,ordered,fun _ => rfl⟩
    · cases reliable
  | test =>
    obtain ⟨thing,node⟩ := registers
    obtain ⟨_,ran⟩ := proceed_some.mp ran
    split at ran <;> rename_i missing <;> cases ran
    · refine ⟨.assigning ?_,ordered,fun _ => rfl⟩
      change d.nvs .thingname = none
      by_contra present
      rw [thing,node] at missing
      exact missing.elim present (ordered present)
    · obtain ⟨name,assigned⟩ := Option.ne_none_iff_exists'.mp fun none => missing (Or.inl none)
      exact ⟨.create ⟨name,assigned,thing.symm.trans assigned⟩,ordered,fun _ => rfl⟩
  | getMac =>
    rcases call_some.mp ran with ⟨_,ran⟩ | ⟨_,ran⟩ <;> cases ran
    · exact ⟨.assigning registers,ordered,fun _ => rfl⟩
    · exact ⟨.given_up,ordered,fun _ => rfl⟩
  | format =>
    cases o <;> simp only [appMain,drawn,reduceCtorEq] at ran <;> cases ran
    · exact ⟨.given_up,ordered,fun _ => rfl⟩
    · exact ⟨.assigning ⟨registers,Option.some_ne_none _,Option.some_ne_none _⟩,ordered,fun _ => rfl⟩
  | storeNodeId =>
    obtain ⟨absent,thing,node⟩ := registers
    rcases call_some.mp ran with ⟨_,ran⟩ | ⟨_,ran⟩ <;> cases ran
    · obtain ⟨id,assigned⟩ := Option.ne_none_iff_exists'.mp node
      have still : (d.nvs.write true .nodeid d.pcNodeId).1 .thingname = none :=
        (DurableMap.write_other (by decide)).trans absent
      refine ⟨.assigning ⟨still,thing,?_⟩,fun present => absurd still present,
        fun present => absurd absent present⟩
      simp [assigned]
    · exact ⟨.given_up,ordered,fun _ => rfl⟩
  | storeThingName =>
    obtain ⟨absent,thing,node⟩ := registers
    rcases call_some.mp ran with ⟨_,ran⟩ | ⟨_,ran⟩ <;> cases ran
    · obtain ⟨name,assigned⟩ := Option.ne_none_iff_exists'.mp thing
      have kept : (d.nvs.write true .thingname d.pcThingName).1 .nodeid ≠ none := by
        rw [DurableMap.write_other (by decide)]
        exact node
      refine ⟨.create ⟨name,assigned,?_⟩,fun _ => kept,fun present => absurd absent present⟩
      simp [assigned]
    · exact ⟨.given_up,ordered,fun _ => rfl⟩
  | createGroups | createUtility | createNetwork | createSending => cases registers

/-- Once app_main creates the other tasks, no step changes the thing name. -/
theorem thingName_kept (creates : ∀ point, t = .main point → point.creates = true)
    (ran : taskStep d o t = some (d',next)) : d'.pcThingName = d.pcThingName ∧
      d'.nvs .thingname = d.nvs .thingname ∧ d'.nvs .nodeid = d.nvs .nodeid := by
  cases t with
  | main point =>
    have early := creates point rfl
    cases point with
    | createGroups =>
      obtain ⟨_,ran⟩ := proceed_some.mp ran
      cases ran
      exact ⟨rfl,rfl,rfl⟩
    | createUtility | createNetwork | createSending =>
      rcases call_some.mp ran with ⟨_,ran⟩ | ⟨_,ran⟩ <;> cases ran <;> exact ⟨rfl,rfl,rfl⟩
    | _ => cases early
  | _ =>
    have names := (taskStep_effect ran).names rfl
    exact ⟨congrArg (·.2.1) names,congrArg (·.2.2.2) names,congrArg (·.2.2.1) names⟩

theorem Registering.run (registering : Registering d (before ++ t :: after)) (ordered : d.Ordered)
    (reliable : reads t o = true) (ran : taskStep d o t = some (d',next)) :
    Registering d' (before ++ next ++ after) ∧ d'.Ordered ∧
      (d.nvs .thingname ≠ none → d'.nvs .thingname = d.nvs .thingname) := by
  generalize whole : before ++ t :: after = tasks at registering
  cases registering with
  | given_up => simp at whole
  | assigning registers =>
    obtain ⟨rfl,single⟩ | ⟨rest,_,empty⟩ := List.append_eq_cons_iff.mp whole
    · obtain ⟨rfl,rfl⟩ := List.cons.inj single
      obtain ⟨later,ordered',kept⟩ := appMain_registers registers ordered reliable ran
      refine ⟨?_,ordered',fun present => congrFun (kept present) _⟩
      simpa using later
    · simp at empty
  | started registered creates =>
    subst whole
    have main : ∀ point, t = .main point → point.creates = true := by
      rintro point rfl
      exact creates point (TaskPool.mem_focused.mpr (.inl rfl))
    obtain ⟨name,assigned,stored⟩ := registered
    obtain ⟨own,thing,node⟩ := thingName_kept main ran
    refine ⟨.started ⟨name,own.trans assigned,thing.trans stored⟩ ?_,?_,fun _ => thing⟩
    · intro point inside
      rcases TaskPool.mem_replaced.mp inside with new | old
      · exact (names_kept main ran).2 point new
      · exact creates point (TaskPool.mem_focused.mpr (.inr old))
    · intro present absent
      exact ordered (thing ▸ present) (node ▸ absent)

theorem Registering.registered {c : Config} (registering : Registering c.shared c.tasks)
    (running : t ∈ c.tasks) (other : t.program ≠ .main) : c.shared.Registered := by
  generalize c.tasks = tasks at registering running
  cases registering with
  | given_up => cases running
  | assigning =>
    cases List.mem_singleton.mp running
    exact absurd rfl other
  | started registered => exact registered

end Registration

section Registries
variable {policy : Policy} {c c' : Config}

/-- The thing name in use is the stored one. -/
structure Registry (c : Config) : Prop where
  registering : Registering c.shared c.tasks
  ordered : c.shared.Ordered

theorem Registry.step (reliable : ∀ c t o, policy.permits c t o → reads t o = true)
    (safe : Registry c) (step : Step policy c c') : Registry c' ∧
      (c.shared.nvs .thingname ≠ none → c'.shared.nvs .thingname = c.shared.nvs .thingname) := by
  cases step with
  | run s s' before after t o next permitted ran =>
    obtain ⟨registering,ordered,named⟩ := safe.registering.run safe.ordered
      (reliable _ t o permitted) (exec_some ran).2
    exact ⟨⟨registering,ordered⟩,named⟩
  | restart _ permitted => exact ⟨⟨.assigning trivial,safe.ordered⟩,fun _ => rfl⟩

theorem Registry.later (reliable : ∀ c t o, policy.permits c t o → reads t o = true)
    (safe : Registry c) (later : Reaches policy c c') : Registry c' ∧
      (c.shared.nvs .thingname ≠ none → c'.shared.nvs .thingname = c.shared.nvs .thingname) := by
  induction later with
  | refl => exact ⟨safe,fun _ => rfl⟩
  | tail earlier last ih =>
    obtain ⟨safe',named⟩ := ih
    obtain ⟨safe'',still⟩ := safe'.step reliable last
    refine ⟨safe'',fun present => ?_⟩
    rw [still (named present ▸ present),named present]

end Registries

section Telling
variable {issuedFor : Str → Str → Prop} {d d' : Device} {before after next : List Task} {t : Task}
  {o : Outcome} {c c' : Config}

/-- Only prvNvsSetStr of a claimed certificate changes the stored one, and there is none yet. -/
theorem certificate_kept (safe : Consistent issuedFor ⟨d,before ++ t :: after⟩)
    (permitted : (claimService issuedFor).permits ⟨d,before ++ t :: after⟩ t o)
    (ran : taskStep d o t = some (d',next)) (present : d.nvs .certificate ≠ none) :
    d'.nvs .certificate = d.nvs .certificate ∧ d'.nvs .key = d.nvs .key := by
  have mine : t ∈ before ++ t :: after := by simp
  cases t with
  | privKey point =>
    have step := prvGetPrivKeyTask_right (safe.privKey point mine) safe.matching permitted.1 ran
    exact ⟨step.cert,step.key present⟩
  | cert point =>
    cases point with
    | store => exact absurd (safe.cert .store mine).1 present
    | waiting =>
      obtain ⟨_,_,rfl,_⟩ := awaitBits_some.mp ran
      exact ⟨rfl,rfl⟩
    | enter =>
      simp only [taskStep,prvGetCertTask] at ran
      cases o <;> split at ran <;> (try split at ran) <;>
        simp only [proceed,reduceCtorEq] at ran <;> cases ran <;> exact ⟨rfl,rfl⟩
    | _ =>
      simp only [taskStep,prvGetCertTask] at ran
      cases o <;> simp only [proceed,call,reduceCtorEq] at ran <;> (try split at ran) <;>
        cases ran <;> exact ⟨rfl,rfl⟩
  | _ =>
    obtain ⟨_,_,_,_,_,_,key,cert⟩ := secrets_eq ((taskStep_effect ran).secrets rfl)
    exact ⟨cert,key⟩

/-- The task is about to tell that there is a certificate. -/
def Task.announces : Task → Bool
  | .cert (.notifyReport acquired) => acquired
  | .utility (.printCert bits) => decide (.selfClaimCertFail ∉ bits)
  | .utility .sendCert => true
  | _ => false

/-- The line is true of the device. -/
def Line.Holds (d : Device) : Line → Prop
  | .cert text => text ≠ none ∧ d.nvs .certificate = text
  | .thingName text => text ≠ none ∧ d.nvs .thingname = text
  | _ => True

variable (issuedFor) in
structure Told (c : Config) : Prop where
  consistent : Consistent issuedFor c
  ordered : c.shared.Ordered
  registering : Registering c.shared c.tasks
  pending : .selfClaimCertSuccess ∈ c.shared.util → .certSuccess ∈ c.shared.net
  announcing : ∀ t ∈ c.tasks, t.announces = true → .certSuccess ∈ c.shared.net
  serial : ∀ line ∈ c.shared.serial, line.Holds c.shared

theorem notifies_certSuccess (notifies : .selfClaimCertSuccess ∈ t.notifies) :
    t.announces = true := by
  cases t with
  | handler point => cases point <;> simp [Task.notifies] at notifies
  | privKey point => cases point <;> simp [Task.notifies] at notifies; split at notifies <;> cases notifies
  | cert point =>
    cases point <;> simp [Task.notifies] at notifies
    rename_i acquired
    cases acquired with
    | true => rfl
    | false => cases notifies
  | _ => simp [Task.notifies] at notifies

theorem notifyReport_next {point : CertPoint} {acquired : Bool}
    (ran : prvGetCertTask d o point = some (d',next))
    (created : .cert (.notifyReport acquired) ∈ next) : point = .report acquired := by
  cases point with
  | report =>
    obtain ⟨_,ran⟩ := proceed_some.mp ran
    cases ran
    cases List.mem_singleton.mp created
    rfl
  | waiting =>
    obtain ⟨_,_,_,rfl⟩ := awaitBits_some.mp ran
    cases List.mem_singleton.mp created
  | enter =>
    simp only [prvGetCertTask] at ran
    cases o <;> split at ran <;> (try split at ran) <;>
      simp only [proceed,reduceCtorEq] at ran <;> cases ran <;>
      cases List.mem_singleton.mp created
  | release address verified =>
    obtain ⟨_,ran⟩ := proceed_some.mp ran
    cases ran
    cases verified <;> cases List.mem_singleton.mp created
  | _ =>
    simp only [prvGetCertTask] at ran
    cases o <;> simp only [proceed,call,reduceCtorEq] at ran <;> (try split at ran) <;>
      cases ran <;> simp at created

theorem announces_utility {point later : UtilityPoint}
    (ran : prvUtilityOutputTask d o point = some (d',next)) (created : .utility later ∈ next)
    (announces : (Task.utility later).announces = true) :
    (Task.utility point).announces = true ∨ .selfClaimCertSuccess ∈ d.util := by
  cases point <;> simp only [prvUtilityOutputTask,consumeBits_some,proceed_some] at ran
  case waitCert =>
    obtain ⟨_,ready,_,rfl⟩ := ran
    cases List.mem_singleton.mp created
    have unfailed : .selfClaimCertFail ∉ d.util := of_decide_eq_true announces
    obtain ⟨b,inside⟩ : (d.util ∩ {.selfClaimCertSuccess,.selfClaimCertFail}).Nonempty := by
      simpa [Ready] using ready
    simp only [Finset.mem_inter,Finset.mem_insert,Finset.mem_singleton] at inside
    obtain ⟨present,rfl | rfl⟩ := inside
    · exact .inr present
    · exact absurd present unfailed
  case waitWifi | waitGen | waitPrivKey | waitGet =>
    obtain ⟨_,_,_,rfl⟩ := ran
    cases List.mem_singleton.mp created
    cases announces
  case printCert bits =>
    obtain ⟨_,ran⟩ := ran
    cases ran
    split at created <;> rename_i failed
    · cases created
    · exact .inl (decide_eq_true failed)
  case printWifi bits =>
    obtain ⟨_,ran⟩ := ran
    cases ran
    split at created <;> cases List.mem_singleton.mp created <;> cases announces
  case sendCert => exact .inl rfl
  case sendThingName =>
    obtain ⟨_,ran⟩ := ran
    cases ran
    cases created
  all_goals
    obtain ⟨_,ran⟩ := ran
    cases ran
    cases List.mem_singleton.mp created
    cases announces

/-- A task that announces a certificate was told of it, or has just reported it. -/
theorem announces_next {u : Task} (ran : taskStep d o t = some (d',next)) (created : u ∈ next)
    (announces : u.announces = true) : t.announces = true ∨ t = .cert (.report true) ∨
      .selfClaimCertSuccess ∈ d.util := by
  have same : u.program = t.program := by
    rcases (succession ran).programs u created with ⟨first,_⟩ | same
    · simp only [firstTasks,List.mem_cons,List.not_mem_nil,or_false] at first
      rcases first with rfl | rfl | rfl | rfl | rfl | rfl | rfl | rfl <;> cases announces
    · exact same
  cases u with
  | cert later =>
    cases t <;> cases same
    cases later <;> try cases announces
    exact .inr (.inl (congrArg Task.cert (notifyReport_next ran created)))
  | utility later =>
    cases t <;> cases same
    exact (announces_utility ran created announces).imp_right .inr
  | _ => cases announces

theorem Told.prints (safe : Told issuedFor c) (member : t ∈ c.tasks) {line : Line}
    (printed : line ∈ t.prints c.shared) : line.Holds c.shared := by
  cases t with
  | utility point =>
    cases point with
    | sendCert =>
      cases List.mem_singleton.mp printed
      obtain ⟨present,same⟩ := safe.consistent.certReady (safe.announcing _ member rfl)
      exact ⟨fun absent => present (same.symm.trans absent),same.symm⟩
    | sendThingName =>
      cases List.mem_singleton.mp printed
      obtain ⟨name,assigned,stored⟩ := safe.registering.registered member nofun
      exact ⟨fun absent => Option.some_ne_none name (assigned.symm.trans absent),
        stored.trans assigned.symm⟩
    | printWifi bits =>
      cases List.mem_singleton.mp printed
      unfold wifiNotification
      split <;> trivial
    | printPrivKey bits =>
      cases List.mem_singleton.mp printed
      unfold privKeyNotification
      split <;> trivial
    | printCert bits =>
      cases List.mem_singleton.mp printed
      unfold certNotification
      split <;> trivial
    | printGen | printGet =>
      cases List.mem_singleton.mp printed
      trivial
    | _ => cases printed
  | _ => cases printed

theorem Told.run (safe : Told issuedFor ⟨d,before ++ t :: after⟩)
    (permitted : (claimService issuedFor).permits ⟨d,before ++ t :: after⟩ t o)
    (ran : taskStep d o t = some (d',next)) : Told issuedFor ⟨d',before ++ next ++ after⟩ := by
  have mine : t ∈ before ++ t :: after := by simp
  have effect := taskStep_effect ran
  obtain ⟨registering,ordered,named⟩ := safe.registering.run safe.ordered permitted.1 ran
  have kept : .certSuccess ∈ d.net → .certSuccess ∈ d'.net :=
    kept_success safe.consistent.links effect (.inr rfl)
  have told : t.announces = true → .certSuccess ∈ d'.net := fun announces =>
    kept (safe.announcing t mine announces)
  refine ⟨safe.consistent.run permitted ran,ordered,registering,?_,?_,?_⟩
  · intro pending
    change .selfClaimCertSuccess ∈ d'.util at pending
    rw [effect.util,mem_setBits,mem_clearBits,List.mem_toFinset] at pending
    rcases pending with ⟨pending,_⟩ | notifies
    · exact kept (safe.pending pending)
    · exact told (notifies_certSuccess notifies)
  · intro u member announces
    rcases TaskPool.mem_replaced.mp member with created | inside
    · rcases announces_next ran created announces with already | rfl | pending
      · exact told already
      · change .certSuccess ∈ d'.net
        rw [effect.net]
        simp [Task.sets]
      · exact kept (safe.pending pending)
    · exact kept (safe.announcing u (TaskPool.mem_focused.mpr (.inr inside)) announces)
  · have still : ∀ line : Line, line.Holds d → line.Holds d' := by
      intro line holds
      cases line with
      | cert text =>
        obtain ⟨present,same⟩ := holds
        refine ⟨present,?_⟩
        rw [(certificate_kept safe.consistent permitted ran (same ▸ present)).1]
        exact same
      | thingName text =>
        obtain ⟨present,same⟩ := holds
        exact ⟨present,(named (same ▸ present)).trans same⟩
      | _ => trivial
    intro line printed
    change line ∈ d'.serial at printed
    rw [(taskStep_outward ran).serial,List.mem_append] at printed
    rcases printed with already | now
    · exact still line (safe.serial line already)
    · exact still line (safe.prints mine now)

theorem Told.boot {mac : Vector UInt8 6} {nvs : DurableMap RuntimeKey Str}
    (matching : Matching issuedFor nvs) (ordered : nvs .thingname ≠ none → nvs .nodeid ≠ none) :
    Told issuedFor (boot mac nvs) where
  consistent := .boot matching
  ordered := ordered
  registering := .assigning trivial
  pending signalled := by cases signalled
  announcing t member announces := by
    cases List.mem_singleton.mp member
    cases announces
  serial line printed := by cases printed

theorem Told.step (safe : Told issuedFor c) (step : Step (claimService issuedFor) c c') :
    Told issuedFor c' := by
  cases step with
  | run s s' before after t o next permitted ran => exact safe.run permitted (exec_some ran).2
  | restart _ permitted => exact .boot safe.consistent.matching safe.ordered

theorem Told.later (safe : Told issuedFor c) (later : Reaches (claimService issuedFor) c c') :
    Told issuedFor c' :=
  TaskPool.Reaches.invariant (Told issuedFor) later safe fun _ _ safe step => safe.step step

/-- A stored certificate, its key and a stored thing name are there for good. -/
theorem Told.stored (safe : Told issuedFor c) (later : Reaches (claimService issuedFor) c c') :
    (c.shared.nvs .certificate ≠ none → c'.shared.nvs .certificate = c.shared.nvs .certificate ∧
      c'.shared.nvs .key = c.shared.nvs .key) ∧
    (c.shared.nvs .thingname ≠ none → c'.shared.nvs .thingname = c.shared.nvs .thingname) := by
  constructor
  · intro present
    induction later with
    | refl => exact ⟨rfl,rfl⟩
    | tail earlier last ih =>
      obtain ⟨cert,key⟩ := ih
      cases last with
      | run s s' before after t o next permitted ran =>
        obtain ⟨cert',key'⟩ := certificate_kept (safe.later earlier).consistent permitted
          (exec_some ran).2 (cert ▸ present)
        exact ⟨cert'.trans cert,key'.trans key⟩
      | restart _ permitted => exact ⟨cert,key⟩
  · have reliable : ∀ c t o, (claimService issuedFor).permits c t o → reads t o = true :=
      fun _ _ _ permitted => permitted.1
    have registry : Registry c := ⟨safe.registering,safe.ordered⟩
    exact (registry.later reliable later).2

/-- What the utility was told of a device it can rely on: from then on, in this boot and every
later one, flash holds the certificate with the key it was issued for, TLS connects with both,
and every task uses the thing name. -/
theorem told_for_good (issuedFor : Str → Str → Prop) (mac : Vector UInt8 6)
    (nvs : DurableMap RuntimeKey Str) (c c' : Config) (matching : Matching issuedFor nvs)
    (ordered : nvs .thingname ≠ none → nvs .nodeid ≠ none)
    (run : Reaches (claimService issuedFor) (boot mac nvs) c)
    (later : Reaches (claimService issuedFor) c c') :
    (∀ text, .cert text ∈ c.shared.serial → ∃ cert key, text = some cert ∧ issuedFor cert key ∧
      c'.shared.nvs .certificate = some cert ∧ c'.shared.nvs .key = some key ∧
      ∀ point, .tls point ∈ c'.tasks → point ≠ .waiting →
        c'.shared.pcDevCert = some cert ∧ c'.shared.pcDevKey = some key) ∧
    ∀ text, .thingName text ∈ c.shared.serial → ∃ name, text = some name ∧
      c'.shared.nvs .thingname = some name ∧
      ∀ t ∈ c'.tasks, t.program ≠ .main → c'.shared.pcThingName = some name := by
  have safe : Told issuedFor c := (Told.boot matching ordered).later run
  have safe' := safe.later later
  obtain ⟨pair,name⟩ := safe.stored later
  constructor
  · intro text printed
    obtain ⟨present,same⟩ := safe.serial _ printed
    obtain ⟨cert,rfl⟩ := Option.ne_none_iff_exists'.mp present
    obtain ⟨cert',key'⟩ := pair (same ▸ present)
    obtain ⟨key,own,issued⟩ := safe.consistent.matching cert same
    refine ⟨cert,key,rfl,issued,cert'.trans same,key'.trans own,fun point member connecting => ?_⟩
    obtain ⟨keySet,certSet⟩ := safe'.consistent.connecting point member connecting
    obtain ⟨held,stored,ram,_⟩ := safe'.consistent.keyReady keySet
    have ready := (safe'.consistent.certReady certSet).2
    refine ⟨ready.trans (cert'.trans same),?_⟩
    rw [ram,← stored,key',own]
  · intro text printed
    obtain ⟨present,same⟩ := safe.serial _ printed
    obtain ⟨thing,rfl⟩ := Option.ne_none_iff_exists'.mp present
    have stored := (name (same ▸ present)).trans same
    refine ⟨thing,rfl,stored,fun t member other => ?_⟩
    obtain ⟨own,assigned,held⟩ := safe'.registering.registered member other
    exact assigned.trans (held.symm.trans stored)

end Telling

/-- The utility follows the claim to its end and is sent certificate and thing name. -/
def claimTold : List (Nat × Outcome) :=
  claimBegins ++
    [(6,.event .staConnected),(6,.go),(6,.go),(5,.go),(5,.go),(5,.go),(5,.go),(5,.go),(5,.go),(5,.go),
      (5,.go),(4,.go),(4,.ok),(4,.pem (certificateOf (Text.bytes "key"))),(4,.go),(4,.go),(4,.ok),
      (4,.go),(4,.go),(4,.go),(4,.go),(4,.go),(4,.go)]

set_option maxRecDepth 8000 in
theorem told_for_good_rebooted :
    ∃ c c', Reaches (claimService fun cert key => cert = certificateOf key) (boot someMac named) c ∧
      c' = boot c.shared.mac c.shared.nvs ∧
      c'.shared.nvs .certificate = some (certificateOf (Text.bytes "key")) ∧
      c'.shared.nvs .key = some (Text.bytes "key") ∧
      c'.shared.nvs .thingname = some (Text.bytes "thing") := by
  obtain ⟨c,run,test⟩ := TaskPool.play_any machine (fun c t o => reads t o && issues c t o)
    (claimService fun cert key => cert = certificateOf key) issues_sound (boot someMac named)
    claimTold (fun c => .cert (some (certificateOf (Text.bytes "key"))) ∈ c.shared.serial ∧
      .thingName (some (Text.bytes "thing")) ∈ c.shared.serial) (by decide)
  obtain ⟨cert,thing⟩ := of_decide_eq_true test
  obtain ⟨certs,names⟩ := told_for_good (fun cert key => cert = certificateOf key) someMac named c _
    nofun (fun _ => nofun) run (.single (.restart c trivial))
  obtain ⟨text,key,same,issued,stored,own,_⟩ := certs _ cert
  obtain ⟨name,same',held,_⟩ := names _ thing
  cases same
  cases same'
  have spelt : Text.bytes "key" = key := List.append_cancel_left issued
  exact ⟨c,_,run,rfl,stored,spelt ▸ own,held⟩

end QuickConnect.Firmware
