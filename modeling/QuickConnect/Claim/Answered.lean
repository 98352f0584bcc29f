import QuickConnect.Claim.Begin
import QuickConnect.Lib.EventGroup
import QuickConnect.Lib.TaskPool

/-! esp_rmaker_self_claim_init, called any number of times. The caller waits in
esp_rmaker_claim_init until esp_rmaker_claim_task, which does the work, sets
CLAIM_TASK_BIT. -/
namespace QuickConnect.Claim
open EventGroup
variable {Key : Type}

inductive ClaimBit
  | task
  deriving DecidableEq

structure Allocated (Key : Type) where
  data : ClaimData Key
  frees : Nat

/-- `claimData` is the local of esp_rmaker_claim_init that the task writes through its
argument, and `returned` a history: what was returned so far, latest first. -/
structure InitState (Key : Type) where
  name : Option Str
  privateKey : Option (List UInt8)
  group : Option (Finset ClaimBit)
  claimData : Option Nat
  objects : List (Allocated Key)
  returned : List Nat
  faulted : Bool

-- What the calls return is settled when an initialisation begins, and goes along with it.
inductive CallerPoint (Key : Type)
  | ready
  | createGroup (calls : InitCalls Key)
  | createTask (calls : InitCalls Key)
  | waiting (calls : InitCalls Key)
  | deleteGroup (calls : InitCalls Key)
  | returned (calls : InitCalls Key) (result : Option Nat)

inductive ClaimPoint (Key : Type)
  | calloc (calls : InitCalls Key)
  | init (calls : InitCalls Key) (address : Nat)
  | answer (calls : InitCalls Key) (address : Nat)
  | setBits (calls : InitCalls Key)

inductive InitTask (Key : Type)
  | caller (point : CallerPoint Key)
  | claim (point : ClaimPoint Key)

inductive InitOutcomes (Key : Type)
  | go
  | begin (name : Option Str) (calls : InitCalls Key)

abbrev InitResult (Key : Type) := Option (InitState Key × List (InitTask Key))

def begins (o : InitOutcomes Key) (result : Option Str → InitCalls Key → InitResult Key) :
    InitResult Key :=
  match o with
  | .begin name calls => result name calls
  | .go => none

def goes (o : InitOutcomes Key) (result : Option (InitState Key × List (InitTask Key))) :
    InitResult Key :=
  match o with
  | .go => result
  | .begin _ _ => none

/-- esp_rmaker_self_claim_init with esp_rmaker_claim_init, where claim_init_done is never set. -/
def selfClaimInit (s : InitState Key) (o : InitOutcomes Key) : CallerPoint Key → InitResult Key
  | .ready | .returned _ _ => begins o fun name calls =>
    some ({ s with name := name },[.caller (.createGroup calls)])
  | .createGroup calls => goes o
    (if calls.eventGroup then
      some ({ s with group := some ∅, claimData := none },[.caller (.createTask calls)])
    else some ({ s with group := none },[.caller (.returned calls none)]))
  | .createTask calls => goes o
    (if calls.task then some (s,[.caller (.waiting calls),.claim (.calloc calls)])
    else some ({ s with group := none },[.caller (.returned calls none)]))
  | .waiting calls => goes o (do
    let group ← s.group
    let (_,group) ← waitBits group {.task} false true
    some ({ s with group := some group },[.caller (.deleteGroup calls)]))
  | .deleteGroup calls => goes o
    (some ({ s with group := none, returned := s.claimData.toList ++ s.returned },
      [.caller (.returned calls s.claimData)]))

/-- Its argument is the address of a local and never NULL. -/
def claimTask (mbedtls : Mbedtls Key) (s : InitState Key) (o : InitOutcomes Key) :
    ClaimPoint Key → InitResult Key
  -- Without memory the task ends here, and nothing sets its bit.
  | .calloc calls => goes o
    (if calls.claimData then
      some ({ s with objects := s.objects ++ [⟨ClaimData.calloc Key,0⟩] },
        [.claim (.init calls s.objects.length)])
    else some (s,[]))
  | .init calls address => goes o (do
    let object ← s.objects[address]?
    match claimInit mbedtls calls s.name object.data s.privateKey with
    | none => some ({ s with faulted := true },[.claim (.init calls address)])
    | some (.ok,data,privateKey) =>
      some ({ s with
        privateKey := privateKey
        objects := s.objects.set address { object with data := data } },
        [.claim (.answer calls address)])
    | some (_,data,privateKey) =>
      some ({ s with
        privateKey := privateKey
        objects := s.objects.set address ⟨{ data with key := none },object.frees + 1⟩ },
        [.claim (.setBits calls)]))
  | .answer calls address => goes o
    (some ({ s with claimData := some address },[.claim (.setBits calls)]))
  | .setBits _ => goes o (some ({ s with group := s.group.map (setBits · {.task}) },[]))

def initExec (mbedtls : Mbedtls Key) (s : InitState Key) (t : InitTask Key)
    (o : InitOutcomes Key) : InitResult Key :=
  if s.faulted then none
  else match t with
    | .caller point => selfClaimInit s o point
    | .claim point => claimTask mbedtls s o point

abbrev InitConfig (Key : Type) := TaskPool.Config (InitState Key) (InitTask Key)

abbrev InitPolicy (Key : Type) :=
  TaskPool.Policy (InitState Key) (InitTask Key) (InitOutcomes Key)

def initStart : InitConfig Key := ⟨⟨none,none,none,none,[],[],false⟩,[.caller .ready]⟩

def initMachine (mbedtls : Mbedtls Key) :
    TaskPool.Machine (InitState Key) (InitTask Key) (InitOutcomes Key) where
  exec := initExec mbedtls
  restart _ := initStart

abbrev InitReaches (mbedtls : Mbedtls Key) (policy : InitPolicy Key) :
    InitConfig Key → InitConfig Key → Prop :=
  TaskPool.Reaches (initMachine mbedtls) policy

abbrev InitStep (mbedtls : Mbedtls Key) (policy : InitPolicy Key) :
    InitConfig Key → InitConfig Key → Prop :=
  TaskPool.Step (initMachine mbedtls) policy

def anyCalls : InitPolicy Key := ⟨fun _ _ _ => True,False⟩

/-- Where they are asked for, there is memory for the claim data and for the copy of the key. -/
def InitCalls.Roomy (calls : InitCalls Key) : Prop :=
  calls.eventGroup = true → calls.task = true →
    calls.claimData = true ∧ (calls.KeyMade → calls.keyCopy = true)

def roomyCalls : InitPolicy Key :=
  ⟨fun _ _ o => ∀ name calls, o = .begin name calls → calls.Roomy,False⟩

/-- No step of the initialisation failed. -/
structure InitCalls.Succeed (calls : InitCalls Key) (name : Option Str) : Prop where
  eventGroup : calls.eventGroup = true
  task : calls.task = true
  claimData : calls.claimData = true
  key : calls.KeyMade
  keyCopy : calls.keyCopy = true
  csr : calls.CsrMade name

def BitSet (s : InitState Key) : Prop := ∃ group, s.group = some group ∧ .task ∈ group

variable (mbedtls : Mbedtls Key)

/-- The claim data at an address, its key and the copy of the key belong together. -/
def Whole (s : InitState Key) (calls : InitCalls Key) (address : Nat) : Prop :=
  ∃ name data, s.name = some name ∧ s.objects[address]? = some ⟨data,0⟩ ∧
    Begun mbedtls calls.key name data ∧ s.privateKey = some (mbedtls.keyPem calls.key ++ [0])

/-- What every state of a run answers for. -/
structure Answers (c : InitConfig Key) : Prop where
  sound : c.shared.faulted = false
  released : ∀ calls, .caller (.waiting calls) ∈ c.tasks →
    BitSet c.shared ∨ ∃ point, .claim point ∈ c.tasks
  null : ∀ calls result, .caller (.returned calls result) ∈ c.tasks →
    (result = none ↔ ¬calls.Succeed c.shared.name)
  whole : ∀ calls address, .caller (.returned calls (some address)) ∈ c.tasks →
    Whole mbedtls c.shared calls address
  freed : ∀ calls result, .caller (.returned calls result) ∈ c.tasks →
    ∀ (address : Nat) object, c.shared.objects[address]? = some object →
      object.frees = if address ∈ c.shared.returned then 0 else 1

/-- How many steps of an initialisation are left at most. -/
def InitTask.remaining : InitTask Key → Nat
  | .caller .ready | .caller (.returned _ _) => 0
  | .caller (.createGroup _) => 8
  | .caller (.createTask _) => 7
  | .caller (.waiting _) => 2
  | .caller (.deleteGroup _) => 1
  | .claim (.calloc _) => 4
  | .claim (.init _ _) => 3
  | .claim (.answer _ _) => 2
  | .claim (.setBits _) => 1

def remaining (c : InitConfig Key) : Nat := TaskPool.total (fun _ => 0) InitTask.remaining c

/-- What was allocated is freed once, unless it was returned or is the one at work. -/
structure Accounted (s : InitState Key) (current : Option Nat) : Prop where
  frees : ∀ (address : Nat) object, s.objects[address]? = some object →
    object.frees = if address ∈ s.returned ∨ current = some address then 0 else 1
  allocated : ∀ address ∈ s.returned, address < s.objects.length

/-- What the task leaves to the caller. -/
structure Settled (s : InitState Key) (calls : InitCalls Key) : Prop where
  null : s.claimData = none ↔ ¬calls.Succeed s.name
  whole : ∀ address, s.claimData = some address → Whole mbedtls s calls address
  accounted : Accounted s s.claimData

/-- The task was created, and its bit is not set. -/
structure Underway (s : InitState Key) (calls : InitCalls Key) : Prop where
  roomy : calls.claimData = true ∧ (calls.KeyMade → calls.keyCopy = true)
  eventGroup : calls.eventGroup = true
  task : calls.task = true
  group : s.group = some ∅

inductive Stage (s : InitState Key) : List (InitTask Key) → Prop
  | ready (accounted : Accounted s none) : Stage s [.caller .ready]
  | createGroup {calls} (roomy : calls.Roomy) (accounted : Accounted s none) :
      Stage s [.caller (.createGroup calls)]
  | createTask {calls} (roomy : calls.Roomy) (created : calls.eventGroup = true)
      (group : s.group = some ∅) (null : s.claimData = none) (accounted : Accounted s none) :
      Stage s [.caller (.createTask calls)]
  | calloc {calls} (underway : Underway s calls) (null : s.claimData = none)
      (accounted : Accounted s none) : Stage s [.caller (.waiting calls),.claim (.calloc calls)]
  | init {calls address} (underway : Underway s calls) (null : s.claimData = none)
      (fresh : s.objects[address]? = some ⟨ClaimData.calloc Key,0⟩)
      (unreturned : address ∉ s.returned) (accounted : Accounted s (some address)) :
      Stage s [.caller (.waiting calls),.claim (.init calls address)]
  | answer {calls address} (underway : Underway s calls) (succeed : calls.Succeed s.name)
      (whole : Whole mbedtls s calls address) (accounted : Accounted s (some address)) :
      Stage s [.caller (.waiting calls),.claim (.answer calls address)]
  | setBits {calls} (underway : Underway s calls) (settled : Settled mbedtls s calls) :
      Stage s [.caller (.waiting calls),.claim (.setBits calls)]
  | answered {calls} (answered : BitSet s) (settled : Settled mbedtls s calls) :
      Stage s [.caller (.waiting calls)]
  | deleteGroup {calls} (settled : Settled mbedtls s calls) :
      Stage s [.caller (.deleteGroup calls)]
  | returned {calls result} (null : result = none ↔ ¬calls.Succeed s.name)
      (whole : ∀ address, result = some address → Whole mbedtls s calls address)
      (accounted : Accounted s none) : Stage s [.caller (.returned calls result)]

structure InitInvariant (c : InitConfig Key) : Prop where
  sound : c.shared.faulted = false
  stage : Stage mbedtls c.shared c.tasks

/-- What one step does besides keeping the invariant. -/
structure Advances (c c' : InitConfig Key) : Prop where
  invariant : InitInvariant mbedtls c'
  decreases : 0 < remaining c → remaining c' < remaining c
  ends : (∃ point, .claim point ∈ c.tasks) →
    BitSet c'.shared ∨ ∃ point, .claim point ∈ c'.tasks

section Steps
variable {mbedtls} {s s' : InitState Key} {o : InitOutcomes Key} {next : List (InitTask Key)}
  {calls : InitCalls Key} {address : Nat}

@[simp] theorem goes_some {result : InitResult Key} {r : InitState Key × List (InitTask Key)} :
    goes o result = some r ↔ o = .go ∧ result = some r := by
  cases o <;> simp [goes]

theorem begins_some {result : Option Str → InitCalls Key → InitResult Key}
    {r : InitState Key × List (InitTask Key)} (ran : begins o result = some r) :
    ∃ name calls, o = .begin name calls ∧ result name calls = some r := by
  cases o with
  | go => cases ran
  | begin name calls => exact ⟨name,calls,rfl,ran⟩

theorem caller_some {point : CallerPoint Key}
    (stepped : (initMachine mbedtls).exec s (.caller point) o = some (s',next)) :
    selfClaimInit s o point = some (s',next) := by
  have ran : initExec mbedtls s (.caller point) o = some (s',next) := stepped
  unfold initExec at ran
  split at ran
  · cases ran
  · exact ran

theorem claim_some {point : ClaimPoint Key}
    (stepped : (initMachine mbedtls).exec s (.claim point) o = some (s',next)) :
    claimTask mbedtls s o point = some (s',next) := by
  have ran : initExec mbedtls s (.claim point) o = some (s',next) := stepped
  unfold initExec at ran
  split at ran
  · cases ran
  · exact ran

@[simp] theorem remaining_mk (s : InitState Key) (tasks : List (InitTask Key)) :
    remaining ⟨s,tasks⟩ = (tasks.map InitTask.remaining).sum := Nat.zero_add _

theorem Accounted.same {current : Option Nat} (accounted : Accounted s current)
    (objects : s'.objects = s.objects) (returned : s'.returned = s.returned) :
    Accounted s' current where
  frees address object found := by
    rw [objects] at found
    rw [returned]
    exact accounted.frees address object found
  allocated address handed := by
    rw [returned] at handed
    rw [objects]
    exact accounted.allocated address handed

/-- Claim data that calloc just gave is the one at work. -/
theorem Accounted.pushed (accounted : Accounted s none) (object : Allocated Key)
    (fresh : object.frees = 0) :
    Accounted { s with objects := s.objects ++ [object] } (some s.objects.length) where
  frees address other found := by
    change (s.objects ++ [object])[address]? = some other at found
    change other.frees = if address ∈ s.returned ∨ _ then 0 else 1
    by_cases last : address = s.objects.length
    · subst last
      rw [List.getElem?_concat_length] at found
      cases found
      rw [if_pos (Or.inr rfl)]
      exact fresh
    · obtain ⟨bound,_⟩ := List.getElem?_eq_some_iff.mp found
      rw [List.length_append,List.length_singleton] at bound
      rw [List.getElem?_append_left (by omega)] at found
      have frees := accounted.frees address other found
      simpa [Ne.symm last] using frees
  allocated address handed := by
    have bound := accounted.allocated address handed
    change address < (s.objects ++ [object]).length
    rw [List.length_append]
    omega

/-- The claim data at work changes, and is freed or not. -/
theorem Accounted.changed (accounted : Accounted s (some address))
    (unreturned : address ∉ s.returned) (object : Allocated Key) {current : Option Nat}
    (kept : current = none ∧ object.frees = 1 ∨ current = some address ∧ object.frees = 0)
    (privateKey : Option (List UInt8)) :
    Accounted { s with
      privateKey := privateKey
      objects := s.objects.set address object } current where
  frees other changed found := by
    change (s.objects.set address object)[other]? = some changed at found
    change changed.frees = if other ∈ s.returned ∨ current = some other then 0 else 1
    by_cases same : address = other
    · subst same
      rw [List.getElem?_set_self'] at found
      obtain ⟨_,_,rfl⟩ := Option.map_eq_some_iff.mp found
      rcases kept with ⟨rfl,freed⟩ | ⟨rfl,held⟩
      · rw [if_neg (by simp [unreturned])]
        exact freed
      · rw [if_pos (Or.inr rfl)]
        exact held
    · rw [List.getElem?_set_ne same] at found
      have frees := accounted.frees other changed found
      rcases kept with ⟨rfl,_⟩ | ⟨rfl,_⟩ <;> simpa [same] using frees
  allocated other handed := by
    change other < (s.objects.set address object).length
    rw [List.length_set]
    exact accounted.allocated other handed

theorem Accounted.handed (accounted : Accounted s s.claimData)
    (held : ∀ address, s.claimData = some address → address < s.objects.length) :
    Accounted { s with group := none, returned := s.claimData.toList ++ s.returned } none where
  frees address object found := by
    have frees := accounted.frees address object found
    rw [frees]
    have same : (address ∈ s.returned ∨ s.claimData = some address) ↔
        (address ∈ s.claimData.toList ++ s.returned ∨ (none : Option Nat) = some address) := by
      rw [List.mem_append,Option.mem_toList]
      simp [or_comm]
    exact if_congr same rfl rfl
  allocated address handed := by
    rcases List.mem_append.mp handed with last | before
    · exact held address (Option.mem_toList.mp last)
    · exact accounted.allocated address before

theorem Whole.allocated (whole : Whole mbedtls s calls address) : address < s.objects.length := by
  obtain ⟨_,_,_,found,_⟩ := whole
  exact (List.getElem?_eq_some_iff.mp found).1

theorem Underway.same (underway : Underway s calls) (group : s'.group = s.group) :
    Underway s' calls :=
  ⟨underway.roomy,underway.eventGroup,underway.task,group.trans underway.group⟩

theorem init_succeeds (underway : Underway s calls) (key : calls.KeyMade)
    (csr : calls.CsrMade s.name) (fresh : s.objects[address]? = some ⟨ClaimData.calloc Key,0⟩)
    (unreturned : address ∉ s.returned) (accounted : Accounted s (some address))
    (ran : claimTask mbedtls s .go (.init calls address) = some (s',next)) :
    s'.faulted = s.faulted ∧ Stage mbedtls s' (.caller (.waiting calls) :: next) ∧
      next = [.claim (.answer calls address)] := by
  simp only [claimTask,goes,fresh,Option.bind_eq_bind,Option.bind_some] at ran
  obtain ⟨room,copy⟩ := underway.roomy
  obtain ⟨name,named⟩ := Option.ne_none_iff_exists'.mp csr.named
  have succeed : calls.Succeed s.name :=
    ⟨underway.eventGroup,underway.task,room,key,copy key,csr⟩
  rw [named] at csr
  obtain ⟨data,done,begun⟩ :=
    claimInit_made mbedtls (ClaimData.calloc Key) key (copy key) csr s.privateKey
  rw [← named] at done
  rw [done] at ran
  cases ran
  refine ⟨rfl,.answer (underway.same rfl) succeed ?_ ?_,rfl⟩
  · refine ⟨name,data,named,?_,begun,rfl⟩
    exact List.getElem?_set_self (List.getElem?_eq_some_iff.mp fresh).1
  · exact accounted.changed unreturned ⟨data,0⟩ (Or.inr ⟨rfl,rfl⟩) _

theorem init_fails (underway : Underway s calls)
    (unmade : ¬(calls.KeyMade ∧ calls.CsrMade s.name)) (null : s.claimData = none)
    (fresh : s.objects[address]? = some ⟨ClaimData.calloc Key,0⟩)
    (unreturned : address ∉ s.returned) (accounted : Accounted s (some address))
    (ran : claimTask mbedtls s .go (.init calls address) = some (s',next)) :
    s'.faulted = s.faulted ∧ Stage mbedtls s' (.caller (.waiting calls) :: next) ∧
      next = [.claim (.setBits calls)] := by
  simp only [claimTask,goes,fresh,Option.bind_eq_bind,Option.bind_some] at ran
  obtain ⟨err,data,privateKey,refused,failed⟩ :=
    claimInit_failed mbedtls (ClaimData.calloc Key) underway.roomy.2 unmade s.privateKey
  have freed : s' = { s with
      privateKey := privateKey
      objects := s.objects.set address ⟨{ data with key := none },1⟩ } ∧
      next = [.claim (.setBits calls)] := by
    rw [refused] at ran
    cases err with
    | ok => exact absurd rfl failed
    | _ =>
      cases ran
      exact ⟨rfl,rfl⟩
  obtain ⟨rfl,rfl⟩ := freed
  refine ⟨rfl,.setBits (underway.same rfl) ⟨?_,?_,?_⟩,rfl⟩
  · exact iff_of_true null fun succeed => unmade ⟨succeed.key,succeed.csr⟩
  · intro other held
    cases null.symm.trans held
  · exact accounted.changed unreturned _ (Or.inl ⟨null,rfl⟩) _

/-- A call begins with nothing at work. -/
theorem begin_steps {point : CallerPoint Key} (idle : Accounted s none) (sound : s.faulted = false)
    (roomy : ∀ name calls, o = .begin name calls → calls.Roomy)
    (ran : (begins o fun name calls =>
      some ({ s with name := name },[.caller (.createGroup calls)])) = some (s',next))
    (done : (InitTask.caller point).remaining = 0) :
    s'.faulted = false ∧ Stage mbedtls s' next ∧
      (0 < remaining ⟨s,[.caller point]⟩ →
        remaining ⟨s',next⟩ < remaining ⟨s,[.caller point]⟩) := by
  obtain ⟨name,calls,began,ran⟩ := begins_some ran
  cases ran
  refine ⟨sound,.createGroup (roomy name calls began) (idle.same rfl rfl),?_⟩
  intro busy
  simp [done] at busy

/-- A call ends early, without its event group or its task. -/
theorem Stage.refused (idle : Accounted s none) (failed : ¬calls.Succeed s.name) :
    Stage mbedtls { s with group := none } [.caller (.returned calls none)] := by
  refine .returned (iff_of_true rfl failed) ?_ (idle.same rfl rfl)
  intro address other
  cases other

theorem caller_steps {point : CallerPoint Key} (stage : Stage mbedtls s [.caller point])
    (sound : s.faulted = false)
    (roomy : ∀ name calls, o = .begin name calls → calls.Roomy)
    (ran : selfClaimInit s o point = some (s',next)) :
    s'.faulted = false ∧ Stage mbedtls s' next ∧
      (0 < remaining ⟨s,[.caller point]⟩ →
        remaining ⟨s',next⟩ < remaining ⟨s,[.caller point]⟩) := by
  cases stage with
  | ready accounted => exact begin_steps accounted sound roomy ran rfl
  | returned null whole accounted => exact begin_steps accounted sound roomy ran rfl
  | createGroup room accounted =>
    obtain ⟨_,ran⟩ := goes_some.mp ran
    split at ran <;> rename_i created <;> cases ran
    · exact ⟨sound,.createTask room created rfl rfl (accounted.same rfl rfl),fun _ => by
        simp [InitTask.remaining]⟩
    · exact ⟨sound,.refused accounted fun succeed => created succeed.eventGroup,fun _ => by
        simp [InitTask.remaining]⟩
  | createTask room created group null accounted =>
    obtain ⟨_,ran⟩ := goes_some.mp ran
    split at ran <;> rename_i started <;> cases ran
    · exact ⟨sound,.calloc ⟨room created started,created,started,group⟩ null accounted,fun _ => by
        simp [InitTask.remaining]⟩
    · exact ⟨sound,.refused accounted fun succeed => started succeed.task,fun _ => by
        simp [InitTask.remaining]⟩
  | answered answered settled =>
    obtain ⟨_,ran⟩ := goes_some.mp ran
    obtain ⟨group,held,ran⟩ := Option.bind_eq_some_iff.mp ran
    obtain ⟨⟨bits,left⟩,waited,ran⟩ := Option.bind_eq_some_iff.mp ran
    cases ran
    refine ⟨sound,.deleteGroup ⟨settled.null,settled.whole,settled.accounted.same rfl rfl⟩,fun _ => by
      simp [InitTask.remaining]⟩
  | deleteGroup settled =>
    obtain ⟨_,ran⟩ := goes_some.mp ran
    cases ran
    refine ⟨sound,.returned settled.null settled.whole ?_,fun _ => by simp [InitTask.remaining]⟩
    exact settled.accounted.handed fun address held => (settled.whole address held).allocated

theorem claim_steps {point : ClaimPoint Key}
    (stage : Stage mbedtls s [.caller (.waiting calls),.claim point]) (sound : s.faulted = false)
    (ran : claimTask mbedtls s o point = some (s',next)) :
    s'.faulted = false ∧ Stage mbedtls s' (.caller (.waiting calls) :: next) ∧
      (next.map InitTask.remaining).sum < (InitTask.claim point).remaining ∧
      (BitSet s' ∨ ∃ later, .claim later ∈ next) := by
  cases stage with
  | calloc underway null accounted =>
    obtain ⟨_,ran⟩ := goes_some.mp ran
    rw [if_pos underway.roomy.1] at ran
    cases ran
    refine ⟨sound,.init (underway.same rfl) null List.getElem?_concat_length ?_
      (accounted.pushed _ rfl),?_,?_⟩
    · exact fun handed => Nat.lt_irrefl _ (accounted.allocated _ handed)
    · simp [InitTask.remaining]
    · exact Or.inr ⟨_,List.mem_singleton_self _⟩
  | init underway null fresh unreturned accounted =>
    obtain ⟨rfl,_⟩ := goes_some.mp ran
    by_cases made : calls.KeyMade ∧ calls.CsrMade s.name
    · obtain ⟨same,stage',rfl⟩ :=
        init_succeeds underway made.1 made.2 fresh unreturned accounted ran
      exact ⟨same.trans sound,stage',by simp [InitTask.remaining],
        Or.inr ⟨_,List.mem_singleton_self _⟩⟩
    · obtain ⟨same,stage',rfl⟩ := init_fails underway made null fresh unreturned accounted ran
      exact ⟨same.trans sound,stage',by simp [InitTask.remaining],
        Or.inr ⟨_,List.mem_singleton_self _⟩⟩
  | answer underway succeed whole accounted =>
    obtain ⟨_,ran⟩ := goes_some.mp ran
    cases ran
    refine ⟨sound,.setBits (underway.same rfl) ⟨?_,?_,accounted.same rfl rfl⟩,?_,?_⟩
    · exact iff_of_false (fun other => by cases other) fun failed => failed succeed
    · intro address held
      cases held
      exact whole
    · simp [InitTask.remaining]
    · exact Or.inr ⟨_,List.mem_singleton_self _⟩
  | setBits underway settled =>
    obtain ⟨_,ran⟩ := goes_some.mp ran
    cases ran
    have bit : BitSet { s with group := s.group.map (setBits · {.task}) } :=
      ⟨setBits ∅ {.task},by simp [underway.group],by simp⟩
    refine ⟨sound,.answered bit ⟨settled.null,settled.whole,settled.accounted.same rfl rfl⟩,?_,?_⟩
    · simp [InitTask.remaining]
    · exact Or.inl bit

/-- Until the bit is set the caller is blocked. -/
theorem waiting_blocked (group : s.group = some ∅) :
    selfClaimInit s o (.waiting calls) = none := by
  cases o with
  | go => simp [selfClaimInit,goes,group,waitBits,Ready]
  | begin => rfl

theorem Stage.shape {tasks : List (InitTask Key)} (stage : Stage mbedtls s tasks) :
    (∃ point, tasks = [.caller point]) ∨
      ∃ calls point, tasks = [.caller (.waiting calls),.claim point] ∧ s.group = some ∅ := by
  cases stage with
  | calloc underway => exact Or.inr ⟨_,_,rfl,underway.group⟩
  | init underway => exact Or.inr ⟨_,_,rfl,underway.group⟩
  | answer underway => exact Or.inr ⟨_,_,rfl,underway.group⟩
  | setBits underway => exact Or.inr ⟨_,_,rfl,underway.group⟩
  | _ => exact Or.inl ⟨_,rfl⟩

theorem InitInvariant.advances {c c' : InitConfig Key} (invariant : InitInvariant mbedtls c)
    (step : InitStep mbedtls roomyCalls c c') : Advances mbedtls c c' := by
  obtain ⟨s,tasks⟩ := c
  obtain ⟨sound,stage⟩ := invariant
  rcases stage.shape with ⟨point,rfl⟩ | ⟨calls,point,rfl,group⟩
  · obtain ⟨o,s',next,roomy,ran,rfl⟩ := step.single id
    obtain ⟨sound',stage',less⟩ := caller_steps stage sound roomy (caller_some ran)
    refine ⟨⟨sound',stage'⟩,less,?_⟩
    rintro ⟨other,inside⟩
    cases List.mem_singleton.mp inside
  · rcases step.pair id with ⟨o,s',next,_,ran,rfl⟩ | ⟨o,s',next,_,ran,rfl⟩
    · cases (waiting_blocked group).symm.trans (caller_some ran)
    · obtain ⟨sound',stage',less,ends⟩ := claim_steps stage sound (claim_some ran)
      refine ⟨⟨sound',stage'⟩,?_,?_⟩
      · intro _
        simpa using less
      · intro _
        exact ends.imp_right fun ⟨later,inside⟩ => ⟨later,List.mem_cons_of_mem _ inside⟩

theorem caller_enabled {point : CallerPoint Key} (stage : Stage mbedtls s [.caller point])
    (busy : 0 < (InitTask.caller point).remaining) :
    ∃ s' next, selfClaimInit s .go point = some (s',next) := by
  cases stage with
  | ready | returned => exact absurd busy (Nat.lt_irrefl 0)
  | createGroup =>
    rw [selfClaimInit,goes]
    split <;> exact ⟨_,_,rfl⟩
  | createTask =>
    rw [selfClaimInit,goes]
    split <;> exact ⟨_,_,rfl⟩
  | @answered calls answered =>
    obtain ⟨group,held,bit⟩ := answered
    have ready : waitBits group {.task} false true = some (group,group) := by
      simpa [waitBits,Ready] using bit
    refine ⟨{ s with group := some group },[.caller (.deleteGroup calls)],?_⟩
    simp [selfClaimInit,goes,held,ready]
  | deleteGroup => exact ⟨_,_,rfl⟩

theorem claim_enabled {point : ClaimPoint Key}
    (stage : Stage mbedtls s [.caller (.waiting calls),.claim point]) :
    ∃ s' next, claimTask mbedtls s .go point = some (s',next) := by
  cases stage with
  | calloc =>
    rw [claimTask,goes]
    split <;> exact ⟨_,_,rfl⟩
  | init underway null fresh =>
    simp only [claimTask,goes,fresh,Option.bind_eq_bind,Option.bind_some]
    split <;> exact ⟨_,_,rfl⟩
  | answer => exact ⟨_,_,rfl⟩
  | setBits => exact ⟨_,_,rfl⟩

theorem initStep_go {before after : List (InitTask Key)} {t : InitTask Key}
    (ran : initExec mbedtls s t .go = some (s',next)) :
    InitStep mbedtls roomyCalls ⟨s,before ++ t :: after⟩ ⟨s',before ++ next ++ after⟩ :=
  TaskPool.Step.run s s' before after t InitOutcomes.go next (fun _ _ other => by cases other) ran

theorem InitInvariant.enabled {c : InitConfig Key} (invariant : InitInvariant mbedtls c)
    (busy : 0 < remaining c) : ∃ c', InitStep mbedtls roomyCalls c c' := by
  obtain ⟨s,tasks⟩ := c
  obtain ⟨sound,stage⟩ := invariant
  have running : ∀ t, initExec mbedtls s t .go = (match t with
      | .caller point => selfClaimInit s .go point
      | .claim point => claimTask mbedtls s .go point) := by
    intro t
    change (if s.faulted = true then _ else _) = _
    rw [if_neg (by simpa using sound)]
  rcases stage.shape with ⟨point,rfl⟩ | ⟨calls,point,rfl,_⟩
  · obtain ⟨s',next,ran⟩ := caller_enabled stage (by simpa using busy)
    exact ⟨_,@initStep_go _ _ _ _ _ [] [] _ ((running _).trans ran)⟩
  · obtain ⟨s',next,ran⟩ := claim_enabled stage
    exact ⟨_,@initStep_go _ _ _ _ _ [.caller (.waiting calls)] [] _ ((running _).trans ran)⟩

theorem init_run {c : InitConfig Key} (run : InitReaches mbedtls roomyCalls initStart c) :
    InitInvariant mbedtls c := by
  apply TaskPool.Reaches.invariant (InitInvariant mbedtls) run
  · refine ⟨rfl,.ready ⟨?_,?_⟩⟩
    · intro address object found
      cases found
    · intro address handed
      cases handed
  · intro c c' invariant step
    exact (invariant.advances step).invariant

theorem InitInvariant.answers {c : InitConfig Key} (invariant : InitInvariant mbedtls c) :
    Answers mbedtls c := by
  obtain ⟨s,tasks⟩ := c
  obtain ⟨sound,stage⟩ := invariant
  have settled : ∀ calls result, .caller (.returned calls result) ∈ tasks →
      (result = none ↔ ¬calls.Succeed s.name) ∧
        (∀ address, result = some address → Whole mbedtls s calls address) ∧
        Accounted s none := by
    intro calls result inside
    cases stage <;> simp at inside
    obtain ⟨rfl,rfl⟩ := inside
    rename_i null whole accounted
    exact ⟨null,whole,accounted⟩
  refine ⟨sound,?_,?_,?_,?_⟩
  · intro calls waiting
    change BitSet s ∨ ∃ point, .claim point ∈ tasks
    cases stage with
    | answered answered => exact Or.inl answered
    | calloc | init | answer | setBits => exact Or.inr ⟨_,List.mem_cons_of_mem _ List.mem_cons_self⟩
    | _ => simp at waiting
  · exact fun calls result inside => (settled calls result inside).1
  · exact fun calls address inside => (settled calls _ inside).2.1 address rfl
  · intro calls result inside address object found
    have frees := (settled calls result inside).2.2.frees address object found
    simpa using frees

end Steps

/-- Where there is memory, every call of esp_rmaker_self_claim_init is answered as it should be,
after a bounded number of steps in whatever order they are taken. -/
theorem init_answers (c : InitConfig Key) (run : InitReaches mbedtls roomyCalls initStart c) :
    Answers mbedtls c ∧
      (0 < remaining c → ∃ c', InitStep mbedtls roomyCalls c c') ∧
      ∀ c', InitStep mbedtls roomyCalls c c' →
        (0 < remaining c → remaining c' < remaining c) ∧
        ((∃ point, .claim point ∈ c.tasks) →
          BitSet c'.shared ∨ ∃ point, .claim point ∈ c'.tasks) := by
  have invariant := init_run run
  refine ⟨invariant.answers,invariant.enabled,?_⟩
  intro c' step
  have advances := invariant.advances step
  exact ⟨advances.decreases,advances.ends⟩

def unallocated : InitCalls Unit := { goodCalls with claimData := false }

def uncopied : InitCalls Unit := { goodCalls with keyCopy := false }

/-- The caller waits for a task that has its claim data. -/
def initBegun (calls : InitCalls Unit) : InitConfig Unit :=
  ⟨⟨some someName,none,some ∅,none,[⟨ClaimData.calloc Unit,0⟩],[],false⟩,
    [.caller (.waiting calls),.claim (.init calls 0)]⟩

def initSchedule (calls : InitCalls Unit) : List (Nat × InitOutcomes Unit) :=
  [(0,.begin (some someName) calls),(0,.go),(0,.go),(1,.go)]

def plenty (o : InitOutcomes Unit) : Bool :=
  match o with
  | .go => true
  | .begin _ calls => calls.claimData && calls.keyCopy

theorem plenty_roomy (c : InitConfig Unit) (t : InitTask Unit) (o : InitOutcomes Unit)
    (admitted : plenty o = true) : roomyCalls.permits c t o := by
  rintro name calls rfl
  obtain ⟨room,copy⟩ := Bool.and_eq_true_iff.mp admitted
  exact fun _ _ => ⟨room,fun _ => copy⟩

theorem init_answers_returned :
    ∃ c, .caller (.returned goodCalls (some 0)) ∈ c.tasks ∧
      InitReaches someMbedtls roomyCalls initStart c ∧ Answers someMbedtls c := by
  have begun : InitReaches someMbedtls roomyCalls initStart (initBegun goodCalls) :=
    TaskPool.play_reaches (initMachine someMbedtls) (fun _ _ o => plenty o) plenty_roomy
      (initSchedule goodCalls) _ _ rfl
  have csr : goodCalls.CsrMade (some someName) := ⟨Option.some_ne_none _,rfl,rfl,rfl⟩
  obtain ⟨data,done,_⟩ := claimInit_made someMbedtls (ClaimData.calloc Unit)
    (⟨rfl,rfl,rfl,rfl⟩ : goodCalls.KeyMade) rfl csr none
  have worked : initExec someMbedtls (initBegun goodCalls).shared (.claim (.init goodCalls 0)) .go =
      some (⟨some someName,some (someMbedtls.keyPem () ++ [0]),some ∅,none,[⟨data,0⟩],[],false⟩,
        [.claim (.answer goodCalls 0)]) := by
    simp only [initExec,initBegun,claimTask,goes,List.getElem?_cons_zero,Option.bind_eq_bind,
      Option.bind_some,done]
    rfl
  have step : InitStep someMbedtls roomyCalls (initBegun goodCalls)
      ⟨⟨some someName,some (someMbedtls.keyPem () ++ [0]),some ∅,none,[⟨data,0⟩],[],false⟩,
        [.caller (.waiting goodCalls),.claim (.answer goodCalls 0)]⟩ :=
    @initStep_go _ _ _ _ _ [.caller (.waiting goodCalls)] [] _ worked
  have answered := TaskPool.play_reaches (initMachine someMbedtls) (fun _ _ o => plenty o)
    plenty_roomy [(1,.go),(1,.go),(0,.go),(0,.go)]
    ⟨⟨some someName,some (someMbedtls.keyPem () ++ [0]),some ∅,none,[⟨data,0⟩],[],false⟩,
      [.caller (.waiting goodCalls),.claim (.answer goodCalls 0)]⟩
    ⟨⟨some someName,some (someMbedtls.keyPem () ++ [0]),none,some 0,[⟨data,0⟩],[0],false⟩,
      [.caller (.returned goodCalls (some 0))]⟩ rfl
  have reached := (begun.tail step).trans answered
  exact ⟨_,List.mem_singleton_self _,reached,(init_answers someMbedtls _ reached).1⟩

/-- Without memory for the claim data the caller waits for ever, and without memory for the copy
of the key the task writes to NULL. -/
theorem init_unanswered :
    (∃ c calls, InitReaches someMbedtls anyCalls initStart c ∧
      .caller (.waiting calls) ∈ c.tasks ∧ ¬Answers someMbedtls c ∧
      ∀ c', ¬InitStep someMbedtls anyCalls c c') ∧
    ∃ c, InitReaches someMbedtls anyCalls initStart c ∧ ¬Answers someMbedtls c := by
  refine ⟨?_,?_⟩
  · have run : InitReaches someMbedtls anyCalls initStart
        ⟨⟨some someName,none,some ∅,none,[],[],false⟩,
          [.caller (.waiting unallocated)]⟩ :=
      TaskPool.play_reaches (initMachine someMbedtls) (fun _ _ _ => true) (fun _ _ _ _ => trivial)
        (initSchedule unallocated) _ _ rfl
    refine ⟨_,_,run,List.mem_singleton_self _,?_,?_⟩
    · intro answers
      rcases answers.released _ (List.mem_singleton_self _) with ⟨group,held,bit⟩ | ⟨point,inside⟩
      · cases held
        cases bit
      · cases List.mem_singleton.mp inside
    · intro c' step
      obtain ⟨o,s',next,_,ran,_⟩ := step.single id
      cases (waiting_blocked rfl).symm.trans (caller_some ran)
  · have begun : InitReaches someMbedtls anyCalls initStart
        (initBegun uncopied) :=
      TaskPool.play_reaches (initMachine someMbedtls) (fun _ _ _ => true) (fun _ _ _ _ => trivial)
        (initSchedule uncopied) _ _ rfl
    have made : uncopied.KeyMade := ⟨rfl,rfl,rfl,rfl⟩
    have faults : claimInit someMbedtls uncopied (some someName)
        (ClaimData.calloc Unit) none = none :=
      claimInit_faults someMbedtls (ClaimData.calloc Unit) made rfl none
    have worked : initExec someMbedtls (initBegun uncopied).shared
        (.claim (.init uncopied 0)) .go =
        some (⟨some someName,none,some ∅,none,[⟨ClaimData.calloc Unit,0⟩],[],true⟩,
          [.claim (.init uncopied 0)]) := by
      simp only [initExec,initBegun,claimTask,goes,List.getElem?_cons_zero,Option.bind_eq_bind,
        Option.bind_some,faults]
      rfl
    have step : InitStep someMbedtls anyCalls (initBegun uncopied) _ :=
      TaskPool.Step.run _ _ [InitTask.caller (.waiting uncopied)] [] _ InitOutcomes.go _ trivial
        worked
    refine ⟨_,begun.tail step,?_⟩
    intro answers
    cases answers.sound

end QuickConnect.Claim
