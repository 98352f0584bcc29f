import QuickConnect.Firmware.Identity
import QuickConnect.Nvs

/-! The firmware on its board: app_main from its start, and the tasks with what
prvNvsGetStr and prvNvsSetStr make of the flash. -/
namespace QuickConnect.Firmware

/-- strncpy into a field of zeros. -/
def strncpy (size : Nat) (text : Str) : List UInt8 :=
  text.take size ++ List.replicate (size - text.length) 0

/-- The station's part of a wifi_config_t. -/
structure WifiConfig where
  ssid : List UInt8
  password : List UInt8
  deriving DecidableEq, Repr

def wifiConfigSsidBufferSize : Nat := 32

def wifiConfigPassBufferSize : Nat := 64

/-- What esp_wifi_set_config is given. -/
def xSetWifiCredentials (ssid password : Str) : WifiConfig :=
  ⟨strncpy wifiConfigSsidBufferSize ssid,strncpy wifiConfigPassBufferSize password⟩

/-- What the utility provisions before the first boot. -/
inductive ProvKey
  | wifiSsid | wifiPass | endpoint
  deriving DecidableEq, Repr

def ProvKey.text : ProvKey → Str
  | .wifiSsid => Text.bytes "wifiSsid"
  | .wifiPass => Text.bytes "wifiPass"
  | .endpoint => Text.bytes "endpoint"

def provPlace (k : ProvKey) : Nvs.Place := ⟨Text.bytes "nvs",Text.bytes "quickConnect",k.text⟩

def provGet (flash : Nvs.Flash) (k : ProvKey) (calls : Nvs.GetCalls) : Option Str :=
  Nvs.prvNvsGetStr flash (some (provPlace k).partition) (some (provPlace k).nameSpace)
    (some (provPlace k).key) calls

structure Board where
  device : Device
  flash : Nvs.Flash
  pcWifiSsid : Option Str
  pcWifiPass : Option Str
  pcEndpoint : Option Str
  wifi : Option WifiConfig

/-- app_main up to prvAssignThingNameAndNodeId. It stops where it returns and where
ESP_ERROR_CHECK aborts. -/
inductive SetupPoint
  | initNvs | readSsid | readPass | readEndpoint | initNetworking | setCredentials | stopped
  deriving DecidableEq, Repr

inductive Process
  | setup (point : SetupPoint)
  | task (t : Task)
  deriving DecidableEq

/-- What the calls inside prvNvsGetStr or prvNvsSetStr return, or the outcome of another step. A
flash that is mounted comes with the places whose values were lost if they were not committed. -/
inductive Supply
  | plain (o : Outcome)
  | mount (mounted : Bool) (lost : Nvs.Place → Bool)
  | get (calls : Nvs.GetCalls)
  | set (calls : Nvs.SetCalls)

/-- How a step uses the flash. -/
inductive Access
  | none
  | gets (k : RuntimeKey) (next : Option Str → Device × List Task)
  | sets (k : RuntimeKey) (value : Option Str) (next : Bool → List Task)

def Task.access (d : Device) : Task → Access
  | .main .readThingName => .gets .thingname fun value =>
    ({ d with pcThingName := value },[.main .readNodeId])
  | .main .readNodeId => .gets .nodeid fun value => ({ d with pcNodeId := value },[.main .test])
  | .main .storeNodeId => .sets .nodeid d.pcNodeId fun saved =>
    if saved then [.main .storeThingName] else []
  | .main .storeThingName => .sets .thingname d.pcThingName fun saved =>
    if saved then [.main .createGroups] else []
  | .privKey .readKey => .gets .key fun value => (d,[.privKey (.assignKey value)])
  | .privKey .readCert => .gets .certificate fun value => (d,[.privKey (.assignCert value)])
  | .privKey .store => .sets .key d.pcDevKey fun saved => [.privKey (.report saved)]
  | .cert .read => .gets .certificate fun value => (d,[.cert (.assign value)])
  | .cert .store => .sets .certificate d.pcDevCert fun saved => [.cert (.report saved)]
  | _ => .none

def boardTask (b : Board) (s : Supply) (t : Task) : Option (Board × List Task) :=
  match t.access b.device, s with
  | .gets k next, .get calls =>
    let (d,created) := next (Nvs.runtimeGet b.flash k calls)
    some ({ b with device := d },created)
  | .sets k value next, .set calls =>
    let (flash,saved) := Nvs.runtimeSet b.flash k value calls
    some ({ b with device := { b.device with nvs := flash.runtime }, flash := flash },next saved)
  | .none, .plain o => (taskStep b.device o t).map fun (d,created) => ({ b with device := d },created)
  | _, _ => Option.none

abbrev Setup := Option (Board × List Process)

def checked (s : Supply) (succeeded failed : Board × List Process) : Setup :=
  match s with
  | .plain .ok => some succeeded
  | .plain .fail => some failed
  | _ => none

def fetched (b : Board) (s : Supply) (k : ProvKey) (next : Option Str → Board × SetupPoint) : Setup :=
  match s with
  | .get calls =>
    let (b,point) := next (provGet b.flash k calls)
    some (b,[.setup point])
  | _ => none

/-- The board after its flash was mounted with these values lost. -/
def Board.mounted (b : Board) (lost : Nvs.Place → Bool) : Board :=
  let flash := b.flash.reboot lost
  { b with device := { b.device with nvs := flash.runtime }, flash := flash }

def appMainStart (b : Board) (s : Supply) : SetupPoint → Setup
  | .initNvs => match s with
    | .mount mounted lost => some (b.mounted lost,[.setup (if mounted then .readSsid else .stopped)])
    | _ => none
  | .readSsid => fetched b s .wifiSsid fun value =>
    ({ b with pcWifiSsid := value },if value = none then .stopped else .readPass)
  | .readPass => fetched b s .wifiPass fun value =>
    ({ b with pcWifiPass := value },if value = none then .stopped else .readEndpoint)
  | .readEndpoint => fetched b s .endpoint fun value =>
    ({ b with pcEndpoint := value },if value = none then .stopped else .initNetworking)
  | .initNetworking => checked s (b,[.setup .setCredentials]) (b,[.setup .stopped])
  | .setCredentials => match b.pcWifiSsid, b.pcWifiPass with
    | some ssid, some pass => checked s
      ({ b with wifi := some (xSetWifiCredentials ssid pass) },[.task (.main .readThingName)])
      (b,[.setup .stopped])
    -- strncpy from NULL faults.
    | _, _ => some (b,[.setup .stopped])
  | .stopped => none

def boardStep (b : Board) (p : Process) (s : Supply) : Setup :=
  match p with
  | .setup point => appMainStart b s point
  | .task t =>
    if b.device.halted then none
    else (boardTask b s t).map fun (b,created) => (b,created.map .task)

def powered (mac : Vector UInt8 6) (flash : Nvs.Flash) : TaskPool.Config Board Process :=
  ⟨⟨powerOn mac flash.runtime,flash,none,none,none,none⟩,[.setup .initNvs]⟩

/-- The board. What a reboot loses shows when app_main mounts the flash. -/
def board : TaskPool.Machine Board Process Supply where
  exec := boardStep
  restart b := powered b.device.mac b.flash

def Process.seen : Process → Task
  | .setup _ => .main .readThingName
  | .task t => t

/-- The tasks as the device model has them: app_main has not begun before its names. -/
def seen (c : TaskPool.Config Board Process) : Config := ⟨c.shared.device,c.tasks.map Process.seen⟩

def Supply.outcome (d : Device) (t : Task) : Supply → Outcome
  | .plain o => o
  | .mount _ _ => .fail
  | .get calls => if calls.init && calls.opened && calls.length && calls.malloc then .ok else .fail
  | .set calls => match t.access d with
    | .sets k value _ =>
      if (d.nvs.write (calls.init && calls.opened && calls.set) k value).2 then .ok else .fail
    | _ => .fail

/-- No buffer is returned that could not be filled, and no value is lost that was not committed. -/
structure Faithful (flash : Nvs.Flash) (s : Supply) : Prop where
  filled : ∀ calls, s = .get calls → Nvs.keeping.get calls
  kept : ∀ mounted lost, s = .mount mounted lost → Nvs.keeping.reboot flash lost

/-- The runs in which the flash is faithful, under a policy for the device. -/
def onBoard (policy : Policy) : TaskPool.Policy Board Process Supply where
  permits c p s := Faithful c.shared.flash s ∧
    ∀ t, p = .task t → policy.permits (seen c) t (s.outcome c.shared.device t)
  restarts := policy.restarts

section Accesses
variable {d d' : Device} {t : Task} {o : Outcome} {next : List Task} {k : RuntimeKey}

theorem access_gets {then' : Option Str → Device × List Task} (access : t.access d = .gets k then')
    (works : Bool) :
    taskStep d (if works then .ok else .fail) t = some (then' (d.nvs.read works k)) := by
  cases t with
  | main point =>
    cases point <;> cases access
    all_goals
      cases works <;> rfl
  | privKey point =>
    cases point <;> cases access
    all_goals
      cases works <;> rfl
  | cert point =>
    cases point <;> cases access
    cases works <;> rfl
  | _ => cases access

theorem access_sets_failed {value : Option Str} {then' : Bool → List Task}
    (access : t.access d = .sets k value then') : taskStep d .fail t = some (d,then' false) := by
  cases t with
  | main point => cases point <;> cases access <;> rfl
  | privKey point =>
    cases point <;> cases access
    rfl
  | cert point =>
    cases point <;> cases access
    rfl
  | _ => cases access

theorem access_sets_stored {value : Str} {then' : Bool → List Task}
    (access : t.access d = .sets k (some value) then') : taskStep d .ok t =
      some ({ d with nvs := Function.update d.nvs k (some value) },then' true) := by
  cases t with
  | main point =>
    cases point <;> simp only [Task.access,reduceCtorEq,Access.sets.injEq] at access
    all_goals
      obtain ⟨rfl,held,rfl⟩ := access
      simp [taskStep,appMain,call,held]
  | privKey point =>
    cases point <;> simp only [Task.access,reduceCtorEq,Access.sets.injEq] at access
    obtain ⟨rfl,held,rfl⟩ := access
    simp [taskStep,prvGetPrivKeyTask,call,held]
  | cert point =>
    cases point <;> simp only [Task.access,reduceCtorEq,Access.sets.injEq] at access
    obtain ⟨rfl,held,rfl⟩ := access
    simp [taskStep,prvGetCertTask,call,held]
  | _ => cases access

theorem access_sets {value : Option Str} {then' : Bool → List Task}
    (access : t.access d = .sets k value then') (works : Bool) :
    taskStep d (if (d.nvs.write works k value).2 then .ok else .fail) t =
      some ({ d with nvs := (d.nvs.write works k value).1 },then' (d.nvs.write works k value).2) := by
  cases works with
  | false =>
    rw [DurableMap.write_false]
    exact access_sets_failed access
  | true =>
    cases value with
    | none =>
      rw [DurableMap.write_none]
      exact access_sets_failed access
    | some value =>
      rw [DurableMap.write_some]
      exact access_sets_stored access

theorem access_none (access : t.access d = .none) (ran : taskStep d o t = some (d',next)) :
    d'.nvs = d.nvs := by
  cases t with
  | main point =>
    cases point <;> cases access <;> cases o <;>
      simp only [taskStep,appMain,proceed,call,drawn,reduceCtorEq] at ran
    all_goals
      (try split at ran) <;> cases ran <;> rfl
  | privKey point =>
    cases point <;> cases access <;> cases o <;>
      simp only [taskStep,prvGetPrivKeyTask,proceed,reduceCtorEq] at ran
    all_goals
      (try split at ran) <;> cases ran <;> rfl
  | cert point =>
    cases point <;> cases access
    case waiting.refl =>
      obtain ⟨_,_,rfl,_⟩ := awaitBits_some.mp ran
      rfl
    case enter.refl =>
      simp only [taskStep,prvGetCertTask] at ran
      cases o <;> split at ran <;> (try split at ran) <;>
        simp only [proceed,reduceCtorEq] at ran <;> cases ran <;> rfl
    all_goals
      simp only [taskStep,prvGetCertTask] at ran
      cases o <;> simp only [proceed,call,reduceCtorEq] at ran
      all_goals
        (try split at ran) <;> cases ran <;> rfl
  | _ =>
    have effect := taskStep_effect ran
    exact nvs_same (effect.secrets rfl) (effect.names rfl)

theorem access_gets_nvs {then' : Option Str → Device × List Task}
    (access : t.access d = .gets k then') (value : Option Str) : (then' value).1.nvs = d.nvs := by
  cases t with
  | main point => cases point <;> cases access <;> rfl
  | privKey point => cases point <;> cases access <;> rfl
  | cert point =>
    cases point <;> cases access
    rfl
  | _ => cases access

end Accesses

section Mounting
variable {start flash : Nvs.Flash} {b b' : Board} {s : Supply} {t : Task} {policy : Policy}

/-- Nothing but the runtime values differs. -/
def Untouched (start flash : Nvs.Flash) : Prop :=
  ∀ place, (∀ k, place ≠ Nvs.runtimePlace k) → flash.current place = start.current place

theorem provPlace_other (k : ProvKey) (own : RuntimeKey) : provPlace k ≠ Nvs.runtimePlace own := by
  intro same
  have partitions : Text.bytes "nvs" = Text.bytes "runtime" := congrArg Nvs.Place.partition same
  exact absurd partitions (by decide)

theorem runtimeSet_untouched (k : RuntimeKey) (value : Option Str) (calls : Nvs.SetCalls) :
    Untouched flash (Nvs.runtimeSet flash k value calls).1 := by
  intro place other
  apply Nvs.prvNvsSetStr_elsewhere
  intro same
  exact other k (Option.some.inj same).symm

/-- A step on the board is one of the device, whose map is what the flash holds. -/
theorem boardTask_seen {created : List Task} (view : b.device.nvs = b.flash.runtime)
    (filled : ∀ calls, s = .get calls → Nvs.keeping.get calls)
    (ran : boardTask b s t = some (b',created)) :
    taskStep b.device (s.outcome b.device t) t = some (b'.device,created) ∧
      b'.device.nvs = b'.flash.runtime ∧ Untouched b.flash b'.flash ∧
      b'.wifi = b.wifi ∧ b'.pcEndpoint = b.pcEndpoint := by
  unfold boardTask at ran
  cases access : t.access b.device with
  | none =>
    cases s with
    | plain o =>
      rw [access] at ran
      obtain ⟨⟨d,next⟩,ran,same⟩ := Option.map_eq_some_iff.mp ran
      cases same
      exact ⟨ran,(access_none access ran).trans view,fun _ _ => rfl,rfl,rfl⟩
    | _ => rw [access] at ran; cases ran
  | gets k then' =>
    cases s with
    | get calls =>
      rw [access] at ran
      cases ran
      have read := access_gets access (calls.init && calls.opened && calls.length && calls.malloc)
      rw [view,← Nvs.runtimeGet_read (filled calls rfl)] at read
      exact ⟨read,(access_gets_nvs access _).trans view,fun _ _ => rfl,rfl,rfl⟩
    | _ => rw [access] at ran; cases ran
  | sets k value then' =>
    cases s with
    | set calls =>
      have written := access_sets access (calls.init && calls.opened && calls.set)
      have same := @Nvs.runtimeSet_write b.flash k value calls
      have kept := @runtimeSet_untouched b.flash k value calls
      simp only [access] at ran
      generalize Nvs.runtimeSet b.flash k value calls = result at ran same kept
      cases ran
      refine ⟨?_,rfl,kept,rfl,rfl⟩
      rw [Supply.outcome,access]
      rw [view,← same] at written
      change taskStep b.device (if (DurableMap.write _ b.device.nvs k value).2 = true then _ else _) t = _
      rw [view,← same]
      exact written
    | _ => rw [access] at ran; cases ran

def Found (start : Nvs.Flash) (k : ProvKey) (value : Option Str) : Prop :=
  value ≠ none ∧ start.current (provPlace k) = value

theorem checked_some {succeeded failed result : Board × List Process}
    (ran : checked s succeeded failed = some result) : result = succeeded ∨ result = failed := by
  unfold checked at ran
  split at ran <;> cases ran
  · exact .inl rfl
  · exact .inr rfl

theorem fetched_some {k : ProvKey} {then' : Option Str → Board × SetupPoint}
    {result : Board × List Process} (ran : fetched b s k then' = some result) :
    ∃ calls, s = .get calls ∧ result =
      ((then' (provGet b.flash k calls)).1,[.setup (then' (provGet b.flash k calls)).2]) := by
  unfold fetched at ran
  split at ran <;> cases ran
  exact ⟨_,rfl,rfl⟩

/-- What app_main has read is what was provisioned. -/
def SetupPoint.Read (start : Nvs.Flash) (b : Board) : SetupPoint → Prop
  | .initNvs | .readSsid | .stopped => True
  | .readPass => Found start .wifiSsid b.pcWifiSsid
  | .readEndpoint => Found start .wifiSsid b.pcWifiSsid ∧ Found start .wifiPass b.pcWifiPass
  | .initNetworking | .setCredentials => Found start .wifiSsid b.pcWifiSsid ∧
    Found start .wifiPass b.pcWifiPass ∧ Found start .endpoint b.pcEndpoint

/-- The station has the credentials that were provisioned, and there is an endpoint. -/
def Provisioned (start : Nvs.Flash) (b : Board) : Prop := ∃ ssid pass endpoint,
  start.current (provPlace .wifiSsid) = some ssid ∧ start.current (provPlace .wifiPass) = some pass ∧
    start.current (provPlace .endpoint) = some endpoint ∧
    b.wifi = some (xSetWifiCredentials ssid pass) ∧ b.pcEndpoint = some endpoint

theorem provGet_found {k : ProvKey} {calls : Nvs.GetCalls} (untouched : Untouched start b.flash)
    (filled : Nvs.keeping.get calls) (present : provGet b.flash k calls ≠ none) :
    Found start k (provGet b.flash k calls) := by
  refine ⟨present,?_⟩
  obtain ⟨value,answered⟩ := Option.ne_none_iff_exists'.mp present
  rw [answered]
  rw [provGet,Nvs.prvNvsGetStr_read rfl filled] at answered
  rw [← untouched _ (provPlace_other k)]
  exact DurableMap.read_sound answered

theorem appMainStart_reads {point : SetupPoint} {next : List Process}
    (read : point.Read start b) (untouched : Untouched start b.flash)
    (view : b.device.nvs = b.flash.runtime) (faithful : Faithful b.flash s)
    (ran : appMainStart b s point = some (b',next)) :
    (b'.device = b.device ∧ b'.flash.current = b.flash.current) ∧
      ((∃ later, next = [.setup later] ∧ later.Read start b') ∨
        next = [.task (.main .readThingName)] ∧ Provisioned start b') := by
  cases point with
  | initNvs =>
    cases s with
    | mount mounted lost =>
      cases ran
      have current : (b.flash.reboot lost).current = b.flash.current :=
        Nvs.reboot_keeping (faithful.kept mounted lost rfl)
      have runtime : (b.flash.reboot lost).runtime = b.device.nvs := by
        rw [view]
        exact funext fun k => congrFun current _
      refine ⟨⟨?_,current⟩,.inl ⟨_,rfl,by split <;> trivial⟩⟩
      rw [Board.mounted]
      simp only [runtime]
    | _ => cases ran
  | readSsid =>
    simp only [appMainStart] at ran
    obtain ⟨calls,rfl,same⟩ := fetched_some ran
    cases same
    refine ⟨⟨rfl,rfl⟩,.inl ⟨_,rfl,?_⟩⟩
    split
    · trivial
    · exact provGet_found untouched (faithful.filled calls rfl) ‹_›
  | readPass =>
    simp only [appMainStart] at ran
    obtain ⟨calls,rfl,same⟩ := fetched_some ran
    cases same
    refine ⟨⟨rfl,rfl⟩,.inl ⟨_,rfl,?_⟩⟩
    split
    · trivial
    · exact ⟨read,provGet_found untouched (faithful.filled calls rfl) ‹_›⟩
  | readEndpoint =>
    simp only [appMainStart] at ran
    obtain ⟨calls,rfl,same⟩ := fetched_some ran
    cases same
    refine ⟨⟨rfl,rfl⟩,.inl ⟨_,rfl,?_⟩⟩
    split
    · trivial
    · exact ⟨read.1,read.2,provGet_found untouched (faithful.filled calls rfl) ‹_›⟩
  | initNetworking =>
    rcases checked_some ran with same | same <;> cases same
    · exact ⟨⟨rfl,rfl⟩,.inl ⟨_,rfl,read⟩⟩
    · exact ⟨⟨rfl,rfl⟩,.inl ⟨_,rfl,trivial⟩⟩
  | setCredentials =>
    obtain ⟨⟨ssidRead,ssidKept⟩,⟨passRead,passKept⟩,endpointRead,endpointKept⟩ := read
    obtain ⟨ssid,ssidHeld⟩ := Option.ne_none_iff_exists'.mp ssidRead
    obtain ⟨pass,passHeld⟩ := Option.ne_none_iff_exists'.mp passRead
    obtain ⟨endpoint,endpointHeld⟩ := Option.ne_none_iff_exists'.mp endpointRead
    simp only [appMainStart,ssidHeld,passHeld] at ran
    rcases checked_some ran with same | same <;> cases same
    · refine ⟨⟨rfl,rfl⟩,.inr ⟨rfl,ssid,pass,endpoint,?_,?_,?_,rfl,endpointHeld⟩⟩
      · exact ssidKept.trans ssidHeld
      · exact passKept.trans passHeld
      · exact endpointKept.trans endpointHeld
    · exact ⟨⟨rfl,rfl⟩,.inl ⟨_,rfl,trivial⟩⟩
  | stopped => cases ran

/-- app_main is on its way to the names, or it got there with what was provisioned. -/
inductive Stage (start : Nvs.Flash) (b : Board) : List Process → Prop
  | setup {point} (read : point.Read start b)
      (fresh : b.device = powerOn b.device.mac b.flash.runtime) : Stage start b [.setup point]
  | running {tasks} (started : ∀ p ∈ tasks, ∃ t, p = .task t) (provisioned : Provisioned start b) :
      Stage start b tasks

structure Mounted (start : Nvs.Flash) (c : TaskPool.Config Board Process) : Prop where
  view : c.shared.device.nvs = c.shared.flash.runtime
  untouched : Untouched start c.shared.flash
  stage : Stage start c.shared c.tasks

theorem Mounted.powered {mac : Vector UInt8 6} (untouched : Untouched start flash) :
    Mounted start (powered mac flash) := ⟨rfl,untouched,.setup trivial rfl⟩

theorem Stage.setup_alone {point : SetupPoint} {before after : List Process}
    (stage : Stage start b (before ++ .setup point :: after)) :
    before = [] ∧ after = [] ∧ point.Read start b ∧
      b.device = powerOn b.device.mac b.flash.runtime := by
  generalize whole : before ++ .setup point :: after = tasks at stage
  cases stage with
  | setup read fresh =>
    rw [List.append_eq_singleton_iff] at whole
    rcases whole with ⟨rfl,rest⟩ | ⟨_,rest⟩
    · obtain ⟨same,rfl⟩ := List.cons.inj rest
      cases same
      exact ⟨rfl,rfl,read,fresh⟩
    · cases rest
  | running started =>
    subst whole
    obtain ⟨t,same⟩ := started (.setup point) (TaskPool.mem_focused.mpr (.inl rfl))
    cases same

theorem Stage.task_running {before after : List Process}
    (stage : Stage start b (before ++ .task t :: after)) :
    (∀ p ∈ before ++ after, ∃ t, p = .task t) ∧ Provisioned start b := by
  generalize whole : before ++ .task t :: after = tasks at stage
  cases stage with
  | setup =>
    have inside : Process.task t ∈ before ++ .task t :: after := by simp
    rw [whole,List.mem_singleton] at inside
    cases inside
  | running started provisioned =>
    subst whole
    exact ⟨fun p inside => started p (TaskPool.mem_focused.mpr (.inr inside)),provisioned⟩

theorem seen_focused (before after : List Process) (created : List Task) :
    seen ⟨b,before ++ created.map .task ++ after⟩ =
      ⟨b.device,before.map Process.seen ++ created ++ after.map Process.seen⟩ := by
  simp [seen,Process.seen,Function.comp_def]

/-- Before the names the device model does not move. -/
theorem Mounted.setup_step {point : SetupPoint} {before after created : List Process}
    (safe : Mounted start ⟨b,before ++ .setup point :: after⟩) (faithful : Faithful b.flash s)
    (ran : appMainStart b s point = some (b',created)) :
    Mounted start ⟨b',before ++ created ++ after⟩ ∧
      seen ⟨b',before ++ created ++ after⟩ = seen ⟨b,before ++ .setup point :: after⟩ := by
  obtain ⟨view,untouched,stage⟩ := safe
  obtain ⟨rfl,rfl,read,fresh⟩ := stage.setup_alone
  obtain ⟨⟨device,current⟩,next⟩ := appMainStart_reads read untouched view faithful ran
  have runtime : b'.flash.runtime = b.flash.runtime := funext fun k => congrFun current _
  have view' : b'.device.nvs = b'.flash.runtime := by
    rw [device,runtime]
    exact view
  have untouched' : Untouched start b'.flash := by
    intro place other
    rw [current]
    exact untouched place other
  rcases next with ⟨later,rfl,read'⟩ | ⟨rfl,provisioned⟩
  · refine ⟨⟨view',untouched',.setup read' ?_⟩,?_⟩
    · rw [device,runtime]
      exact fresh
    · change (⟨b'.device,_⟩ : Config) = ⟨b.device,_⟩
      rw [device]
      rfl
  · refine ⟨⟨view',untouched',.running (fun p inside => ?_) provisioned⟩,?_⟩
    · exact ⟨_,List.mem_singleton.mp inside⟩
    · change (⟨b'.device,_⟩ : Config) = ⟨b.device,_⟩
      rw [device]
      rfl

theorem Mounted.task_step {before after : List Process} {created : List Task}
    (safe : Mounted start ⟨b,before ++ .task t :: after⟩)
    (permitted : (onBoard policy).permits ⟨b,before ++ .task t :: after⟩ (.task t) s)
    (on : b.device.halted = false) (ran : boardTask b s t = some (b',created)) :
    Mounted start ⟨b',before ++ created.map .task ++ after⟩ ∧
      Step policy (seen ⟨b,before ++ .task t :: after⟩)
        (seen ⟨b',before ++ created.map .task ++ after⟩) := by
  obtain ⟨view,untouched,stage⟩ := safe
  obtain ⟨started,ssid,pass,endpoint,provisioned⟩ := stage.task_running
  obtain ⟨did,view',left,wifi,host⟩ := boardTask_seen view permitted.1.filled ran
  refine ⟨⟨view',fun place other => (left place other).trans (untouched place other),?_⟩,?_⟩
  · refine .running (fun p inside => ?_) ⟨ssid,pass,endpoint,?_⟩
    · rcases TaskPool.mem_replaced.mp inside with new | old
      · obtain ⟨u,_,rfl⟩ := List.mem_map.mp new
        exact ⟨u,rfl⟩
      · exact started p old
    · rw [wifi,host]
      exact provisioned
  · have ran' : exec b.device t (s.outcome b.device t) = some (b'.device,created) := by
      rw [exec,if_neg (by simp [on])]
      exact did
    have here : seen ⟨b,before ++ .task t :: after⟩ =
        ⟨b.device,before.map Process.seen ++ t :: after.map Process.seen⟩ := by
      simp [seen,Process.seen]
    have allowed := permitted.2 t rfl
    rw [here] at allowed ⊢
    rw [seen_focused]
    exact .run _ _ _ _ t _ created allowed ran'

theorem Mounted.reboot {c : TaskPool.Config Board Process} (safe : Mounted start c)
    (permitted : policy.restarts) :
    Mounted start (board.restart c.shared) ∧ Step policy (seen c) (seen (board.restart c.shared)) := by
  have there : Step policy (seen c) (boot c.shared.device.mac c.shared.device.nvs) :=
    .restart (seen c) permitted
  rw [safe.view] at there
  exact ⟨.powered safe.untouched,there⟩

theorem Mounted.step {c c' : TaskPool.Config Board Process} (safe : Mounted start c)
    (step : TaskPool.Step board (onBoard policy) c c') :
    Mounted start c' ∧ Reaches policy (seen c) (seen c') := by
  cases step with
  | run b b' before after p s created permitted ran =>
    cases p with
    | setup point =>
      obtain ⟨mounted,same⟩ := safe.setup_step permitted.1 ran
      rw [same]
      exact ⟨mounted,.refl⟩
    | task t =>
      simp only [board,boardStep] at ran
      split at ran <;> rename_i on
      · cases ran
      · obtain ⟨⟨left,next⟩,moved,same⟩ := Option.map_eq_some_iff.mp ran
        rw [Prod.mk.injEq] at same
        obtain ⟨rfl,rfl⟩ := same
        obtain ⟨mounted,there⟩ := safe.task_step permitted (by simpa using on) moved
        exact ⟨mounted,.single there⟩
  | restart _ permitted =>
    obtain ⟨mounted,there⟩ := safe.reboot permitted
    exact ⟨mounted,.single there⟩

/-- Where the flash is faithful the device model is an abstraction of the firmware on its board,
under every policy: the map that the tasks read and write is the runtime part of the flash, the
rest of the flash stays as provisioned, and no task begins without the credentials and the
endpoint from there. -/
theorem board_refines (policy : Policy) (mac : Vector UInt8 6) (start : Nvs.Flash)
    (c : TaskPool.Config Board Process)
    (run : TaskPool.Reaches board (onBoard policy) (powered mac start) c) :
    Reaches policy (boot mac start.runtime) (seen c) ∧
      c.shared.device.nvs = c.shared.flash.runtime ∧ Untouched start c.shared.flash ∧
      ∀ t, .task t ∈ c.tasks → Provisioned start c.shared := by
  obtain ⟨⟨view,untouched,stage⟩,reached⟩ := TaskPool.Reaches.refines seen (Mounted start) run
    (.powered fun _ _ => rfl) fun _ _ safe step => safe.step step
  refine ⟨reached,view,untouched,fun t member => ?_⟩
  obtain ⟨before,after,split⟩ := List.append_of_mem member
  rw [split] at stage
  exact stage.task_running.2

end Mounting

def provisioning : ProvKey → Str
  | .wifiSsid => Text.bytes "home"
  | .wifiPass => Text.bytes "password"
  | .endpoint => Text.bytes "endpoint"

/-- The flash of a new board: provisioned, and without names. -/
def newFlash : Nvs.Flash :=
  let current : DurableMap Nvs.Place Str := fun place =>
    ([.wifiSsid,.wifiPass,.endpoint].find? fun k => place = provPlace k).map provisioning
  ⟨current,current⟩

def getOk : Supply := .get ⟨true,true,true,true,none⟩

def setOk : Supply := .set ⟨true,true,true⟩

/-- The first boot, up to the names. -/
def firstBoot : List (Nat × Supply) :=
  [(0,getOk),(0,getOk),(0,getOk),(0,.plain .ok),(0,.plain .ok),
    (0,getOk),(0,getOk),(0,.plain .go),(0,.plain .ok),(0,.plain (.random 7)),(0,setOk),(0,setOk)]

def filledIn (_ : TaskPool.Config Board Process) (_ : Process) : Supply → Bool
  | .get calls => decide (calls.unspecified = none)
  | .mount _ _ => false
  | _ => true

theorem filledIn_sound (c : TaskPool.Config Board Process) (p : Process) (s : Supply)
    (admitted : filledIn c p s = true) : (onBoard TaskPool.Policy.free).permits c p s := by
  refine ⟨⟨?_,?_⟩,fun _ _ => trivial⟩
  · rintro calls rfl
    have filled : calls.unspecified = none := of_decide_eq_true admitted
    exact filled
  · rintro mounted lost rfl
    cases admitted

set_option maxRecDepth 8000 in
theorem board_refines_named : ∃ c : TaskPool.Config Board Process,
    c.shared.flash.current (Nvs.runtimePlace .thingname) = some (thingNameText someMac 7) ∧
      Reaches TaskPool.Policy.free (boot someMac newFlash.runtime) (seen c) ∧
      c.shared.flash.current (provPlace .wifiSsid) = some (Text.bytes "home") ∧
      c.shared.pcEndpoint = some (Text.bytes "endpoint") := by
  -- The flash is mounted first, and nothing was lost.
  let mounted : TaskPool.Config Board Process :=
    ⟨(powered someMac newFlash).shared.mounted fun _ => false,[.setup .readSsid]⟩
  have admitted : (onBoard TaskPool.Policy.free).permits (powered someMac newFlash)
      (.setup .initNvs) (.mount true fun _ => false) := by
    refine ⟨⟨nofun,?_⟩,fun _ _ => trivial⟩
    intro ok lost same
    cases same
    exact nofun
  have mounts : TaskPool.Step board (onBoard TaskPool.Policy.free) (powered someMac newFlash) mounted :=
    @TaskPool.Step.run _ _ _ board _ _ _ [] [] _ _ _ admitted rfl
  obtain ⟨c,run,test⟩ := TaskPool.play_any board filledIn (onBoard TaskPool.Policy.free)
    filledIn_sound mounted firstBoot
    (fun c => .task (.main .createGroups) ∈ c.tasks ∧
      c.shared.flash.current (Nvs.runtimePlace .thingname) = some (thingNameText someMac 7)) (by decide)
  obtain ⟨member,stored⟩ := of_decide_eq_true test
  obtain ⟨reached,_,untouched,provisioned⟩ :=
    board_refines TaskPool.Policy.free someMac newFlash c (.head mounts run)
  have ssidThere : newFlash.current (provPlace .wifiSsid) = some (Text.bytes "home") := by decide
  have hostThere : newFlash.current (provPlace .endpoint) = some (Text.bytes "endpoint") := by decide
  obtain ⟨_,_,endpoint,_,_,host,_,own⟩ := provisioned _ member
  cases hostThere.symm.trans host
  exact ⟨c,stored,reached,(untouched _ (provPlace_other .wifiSsid)).trans ssidThere,own⟩

end QuickConnect.Firmware
