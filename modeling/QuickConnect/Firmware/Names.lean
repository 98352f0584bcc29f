import QuickConnect.Claim.Perform
import QuickConnect.Firmware.Population

/-! The names of a device. Thing names never collide, and the node ID is spelt alike in the
CSR and in the claim init request, whichever boot it comes from. -/
namespace QuickConnect.Firmware

section Spelling
variable {mac mac' : Vector UInt8 6} {random random' : UInt32}

def thingNameSize : Nat := 60

/-- The two texts as prvAssignThingNameAndNodeId prints them into its buffers. -/
def printedNodeId (mac : Vector UInt8 6) : Str := Text.printed thingNameSize (nodeIdText mac)

def printedThingName (mac : Vector UInt8 6) (random : UInt32) : Str :=
  Text.printed thingNameSize (printedNodeId mac ++ Text.decimal random)

/-- The MAC address in a thing name. -/
def macOf (name : Str) : Option (Vector UInt8 6) := do
  let bytes ← Text.unhex (name.take 12)
  if sized : bytes.toArray.size = 6 then some ⟨bytes.toArray,sized⟩ else none

theorem nodeIdText_length (mac : Vector UInt8 6) : (nodeIdText mac).length = 12 := by
  have spelt := Text.hex_length mac.toList
  rw [Vector.length_toList] at spelt
  exact spelt

theorem thingNameText_length (mac : Vector UInt8 6) (random : UInt32) :
    (thingNameText mac random).length ≤ 23 := by
  have digits := Text.decimal_length random
  rw [thingNameText,List.length_append,nodeIdText_length]
  omega

theorem printedNodeId_whole (mac : Vector UInt8 6) : printedNodeId mac = nodeIdText mac := by
  apply Text.printed_short
  rw [nodeIdText_length]
  decide

theorem printedThingName_whole (mac : Vector UInt8 6) (random : UInt32) :
    printedThingName mac random = thingNameText mac random := by
  rw [printedThingName,printedNodeId_whole]
  apply Text.printed_short
  have short := thingNameText_length mac random
  exact Nat.lt_of_le_of_lt short (by decide)

theorem nodeIdText_injective (same : nodeIdText mac = nodeIdText mac') : mac = mac' := by
  have bytes := congrArg Text.unhex same
  change Text.unhex (Text.hex mac.toList) = Text.unhex (Text.hex mac'.toList) at bytes
  rw [Text.unhex_hex,Text.unhex_hex,Option.some_inj] at bytes
  exact Vector.toList_inj.mp bytes

theorem thingNameText_injective (same : thingNameText mac random = thingNameText mac' random') :
    mac = mac' ∧ random = random' := by
  have lengths : (nodeIdText mac).length = (nodeIdText mac').length := by
    rw [nodeIdText_length,nodeIdText_length]
  obtain ⟨ids,numbers⟩ := List.append_inj same lengths
  exact ⟨nodeIdText_injective ids,Text.decimal_injective numbers⟩

theorem macOf_thingName (mac : Vector UInt8 6) (random : UInt32) :
    macOf (thingNameText mac random) = some mac := by
  have front : (thingNameText mac random).take 12 = Text.hex mac.toList := by
    rw [← nodeIdText_length mac,thingNameText]
    exact List.take_left
  rw [macOf,front,Text.unhex_hex]
  obtain ⟨bytes,sized⟩ := mac
  simp [sized]

end Spelling

section Boots
variable {d d' : Device} {o : Outcome} {next : List Task}

def Device.owns (d : Device) : Prop := d.pcNodeId = some (nodeIdText d.mac)

/-- Before the other tasks are created: what the node ID is at each point. -/
def MainPoint.Assigned (d : Device) : MainPoint → Prop
  | .readThingName | .readNodeId | .getMac | .format => True
  | .test => d.pcNodeId = none ∨ d.owns
  | .storeNodeId | .storeThingName => d.owns
  | .createGroups | .createUtility | .createNetwork | .createSending => False

def MainPoint.creates : MainPoint → Bool
  | .createGroups | .createUtility | .createNetwork | .createSending => true
  | _ => false

/-- Until app_main has its names there is no other task, and then they stay. -/
inductive Naming (d : Device) : List Task → Prop
  | given_up : Naming d []
  | assigning {point} (assigned : point.Assigned d) : Naming d [.main point]
  | started {tasks} (owned : d.owns)
      (creates : ∀ point, .main point ∈ tasks → point.creates = true) : Naming d tasks

structure OwnNames (mac : Vector UInt8 6) (c : Config) : Prop where
  unchanged : c.shared.mac = mac
  stored : ∀ id, c.shared.nvs .nodeid = some id → id = nodeIdText mac
  naming : Naming c.shared c.tasks

def Device.storesOwn (d : Device) : Prop := ∀ id, d.nvs .nodeid = some id → id = nodeIdText d.mac

theorem appMain_assigned {point : MainPoint} (assigned : point.Assigned d) (stored : d.storesOwn)
    (ran : appMain d o point = some (d',next)) :
    Naming d' next ∧ d'.storesOwn ∧ d'.mac = d.mac := by
  cases point with
  | readThingName =>
    rcases call_some.mp ran with ⟨_,ran⟩ | ⟨_,ran⟩ <;> cases ran <;>
      exact ⟨.assigning trivial,stored,rfl⟩
  | readNodeId =>
    rcases call_some.mp ran with ⟨_,ran⟩ | ⟨_,ran⟩ <;> cases ran
    · refine ⟨.assigning ?_,stored,rfl⟩
      change d.nvs .nodeid = none ∨ d.nvs .nodeid = some (nodeIdText d.mac)
      cases found : d.nvs .nodeid with
      | none => exact Or.inl rfl
      | some id => exact Or.inr (congrArg some (stored id found))
    · exact ⟨.assigning (Or.inl rfl),stored,rfl⟩
  | test =>
    obtain ⟨_,ran⟩ := proceed_some.mp ran
    split at ran <;> rename_i missing <;> cases ran
    · exact ⟨.assigning trivial,stored,rfl⟩
    · have owned : d.owns := assigned.resolve_left (fun none => missing (Or.inr none))
      refine ⟨.started owned ?_,stored,rfl⟩
      intro later inside
      cases List.mem_singleton.mp inside
      rfl
  | getMac =>
    rcases call_some.mp ran with ⟨_,ran⟩ | ⟨_,ran⟩ <;> cases ran
    · exact ⟨.assigning trivial,stored,rfl⟩
    · exact ⟨.given_up,stored,rfl⟩
  | format =>
    cases o <;> simp only [appMain,drawn,reduceCtorEq] at ran <;> cases ran
    · exact ⟨.given_up,stored,rfl⟩
    · exact ⟨.assigning rfl,stored,rfl⟩
  | storeNodeId =>
    rcases call_some.mp ran with ⟨_,ran⟩ | ⟨_,ran⟩ <;> cases ran
    · refine ⟨.assigning assigned,?_,rfl⟩
      intro id found
      change d.pcNodeId = some (nodeIdText d.mac) at assigned
      simp [assigned] at found
      exact found.symm
    · exact ⟨.given_up,stored,rfl⟩
  | storeThingName =>
    rcases call_some.mp ran with ⟨_,ran⟩ | ⟨_,ran⟩ <;> cases ran
    · refine ⟨.started assigned ?_,?_,rfl⟩
      · intro later inside
        cases List.mem_singleton.mp inside
        rfl
      · intro id found
        have other : RuntimeKey.nodeid ≠ .thingname := by decide
        exact stored id ((DurableMap.write_other other).symm.trans found)
    · exact ⟨.given_up,stored,rfl⟩
  | createGroups | createUtility | createNetwork | createSending => cases assigned

theorem appMain_creates {point : MainPoint} (creates : point.creates = true)
    (ran : appMain d o point = some (d',next)) :
    (d'.pcNodeId = d.pcNodeId ∧ d'.nvs = d.nvs ∧ d'.mac = d.mac) ∧
      ∀ later, .main later ∈ next → later.creates = true := by
  cases point with
  | createGroups =>
    obtain ⟨_,ran⟩ := proceed_some.mp ran
    cases ran
    refine ⟨⟨rfl,rfl,rfl⟩,?_⟩
    intro later inside
    simp at inside
    rw [inside]
    rfl
  | createUtility | createNetwork | createSending =>
    rcases call_some.mp ran with ⟨_,ran⟩ | ⟨_,ran⟩ <;> cases ran <;>
      refine ⟨⟨rfl,rfl,rfl⟩,?_⟩ <;> intro later inside <;> simp at inside <;>
      rw [inside] <;> rfl
  | _ => cases creates

theorem created_main {t : Task} {point : MainPoint} (ran : taskStep d o t = some (d',next))
    (other : t.program ≠ .main) : .main point ∉ next := by
  intro created
  rcases (succession ran).programs _ created with ⟨first,_⟩ | same
  · simp [firstTasks] at first
  · exact other same.symm

/-- Once app_main creates the other tasks, no step changes the names. -/
theorem names_kept {t : Task} (creates : ∀ point, t = .main point → point.creates = true)
    (ran : taskStep d o t = some (d',next)) :
    (d'.pcNodeId = d.pcNodeId ∧ d'.nvs .nodeid = d.nvs .nodeid ∧ d'.mac = d.mac) ∧
      ∀ point, .main point ∈ next → point.creates = true := by
  by_cases main : t.program = .main
  · cases t <;> try cases main
    rename_i point
    obtain ⟨⟨node,nvs,mac⟩,later⟩ := appMain_creates (creates point rfl) ran
    exact ⟨⟨node,congrFun nvs _,mac⟩,later⟩
  · have effect := taskStep_effect ran
    have nameless : t.handlesNames = false := by
      cases t <;> first | rfl | exact absurd rfl main
    have names := effect.names nameless
    refine ⟨⟨congrArg (·.1) names,congrArg (·.2.2.1) names,effect.mac⟩,?_⟩
    intro point inside
    exact absurd inside (created_main ran main)

theorem OwnNames.run {mac : Vector UInt8 6} {before after : List Task} {t : Task}
    (own : OwnNames mac ⟨d,before ++ t :: after⟩) (ran : taskStep d o t = some (d',next)) :
    OwnNames mac ⟨d',before ++ next ++ after⟩ := by
  obtain ⟨unchanged,stored,naming⟩ := own
  change d.mac = mac at unchanged
  subst unchanged
  generalize whole : before ++ t :: after = tasks at naming
  cases naming with
  | given_up => simp at whole
  | assigning assigned =>
    obtain ⟨rfl,single⟩ | ⟨rest,_,empty⟩ := List.append_eq_cons_iff.mp whole
    · obtain ⟨rfl,rfl⟩ := List.cons.inj single
      obtain ⟨naming',stored',same⟩ := appMain_assigned assigned stored ran
      rw [Device.storesOwn,same] at stored'
      refine ⟨same,stored',?_⟩
      simpa using naming'
    · simp at empty
  | started owned creates =>
    subst whole
    have main : ∀ point, t = .main point → point.creates = true := by
      rintro point rfl
      exact creates point (TaskPool.mem_focused.mpr (.inl rfl))
    obtain ⟨⟨node,nvs,mac⟩,later⟩ := names_kept main ran
    refine ⟨mac,?_,.started ?_ ?_⟩
    · intro id found
      exact stored id (nvs.symm.trans found)
    · rw [Device.owns,node,mac]
      exact owned
    · intro point inside
      rcases TaskPool.mem_replaced.mp inside with new | old
      · exact later point new
      · exact creates point (TaskPool.mem_focused.mpr (.inr old))

theorem OwnNames.boot {mac : Vector UInt8 6} {nvs : DurableMap RuntimeKey Str}
    (stored : ∀ id, nvs .nodeid = some id → id = nodeIdText mac) :
    OwnNames mac (boot mac nvs) := ⟨rfl,stored,.assigning trivial⟩

theorem ownNames_run {policy : Policy} {mac : Vector UInt8 6} {nvs : DurableMap RuntimeKey Str}
    {c : Config} (stored : ∀ id, nvs .nodeid = some id → id = nodeIdText mac)
    (run : Reaches policy (Firmware.boot mac nvs) c) : OwnNames mac c := by
  apply TaskPool.Reaches.invariant (OwnNames mac) run
  · exact .boot stored
  · intro c c' own step
    cases step with
    | run s s' before after t o next permitted ran => exact own.run (exec_some ran).2
    | restart _ permitted =>
      change OwnNames mac (Firmware.boot c.shared.mac c.shared.nvs)
      rw [own.unchanged]
      exact .boot own.stored

theorem OwnNames.owned {mac : Vector UInt8 6} {c : Config} (own : OwnNames mac c) {t : Task}
    (running : t ∈ c.tasks) (other : t.program ≠ .main) :
    c.shared.pcNodeId = some (nodeIdText mac) := by
  obtain ⟨d,tasks⟩ := c
  obtain ⟨rfl,_,naming⟩ := own
  cases naming with
  | given_up => cases running
  | assigning =>
    cases List.mem_singleton.mp running
    exact absurd rfl other
  | started owned => exact owned

end Boots

/-- A claim init request of this device begins with this mac_addr, and claim data with a key
has its request once the MAC address is read. -/
structure SendsMac (station : Claim.Station) (id : Str) : Prop where
  begins : ∀ (Key : Type) (d d' : Claim.ClaimData Key) (getMac : Claim.EspErr),
    Claim.generateClaimInitRequest getMac station d = some (.ok,d') →
    ∃ request, d'.payload.text = some request ∧
      Text.bytes "\x7b\"mac_addr\":\"" ++ id ++ [Text.quote] <+: request
  sent : ∀ (Key : Type) (d : Claim.ClaimData Key), d.Ready →
    ∃ d', Claim.generateClaimInitRequest .ok station d = some (.ok,d')

theorem initRequest_front (station : Claim.Station) : ∃ rest, Claim.initRequest station =
    (Text.bytes "\x7b\"mac_addr\":\"" ++ nodeIdText station.mac ++ [Text.quote]) ++ rest := by
  have platform : Text.bytes "\",\"platform\":\"" =
      Text.quote :: Text.bytes ",\"platform\":\"" := by decide
  refine ⟨Text.bytes ",\"platform\":\"" ++ station.target ++ Text.bytes "\"\x7d",?_⟩
  rw [Claim.initRequest,platform]
  change _ ++ nodeIdText station.mac ++ _ ++ _ ++ _ = _
  simp only [List.append_assoc,List.cons_append,List.nil_append]

theorem request_begins {Key : Type} {station : Claim.Station} {d d' : Claim.ClaimData Key}
    {getMac : Claim.EspErr}
    (generated : Claim.generateClaimInitRequest getMac station d = some (.ok,d')) :
    ∃ request, d'.payload.text = some request ∧
      Text.bytes "\x7b\"mac_addr\":\"" ++ nodeIdText station.mac ++ [Text.quote] <+: request := by
  have begun : d.Ready ∧ getMac = .ok := by
    unfold Claim.generateClaimInitRequest at generated
    split at generated
    · cases generated
    · rename_i ready
      refine ⟨Nat.not_lt.mp ready,?_⟩
      by_contra refused
      rw [if_pos refused] at generated
      exact refused (Prod.mk.inj (Option.some.inj generated)).1
  obtain ⟨ready,rfl⟩ := begun
  obtain ⟨data,request,made,_,held,read⟩ := Claim.generate_ready ready station
  cases generated.symm.trans made
  refine ⟨request,held,?_⟩
  obtain ⟨rest,spelt⟩ := initRequest_front station
  generalize opening : Text.bytes "\x7b\"mac_addr\":\"" ++ nodeIdText station.mac ++
    [Text.quote] = front at spelt
  have clean : 0 ∉ front := by
    have digits : 0 ∉ nodeIdText station.mac := fun inside => (Text.hex_plain inside).1 rfl
    have key : 0 ∉ Text.bytes "\x7b\"mac_addr\":\"" := by decide
    rw [← opening]
    simp only [List.mem_append,List.mem_singleton,not_or]
    exact ⟨⟨key,digits⟩,by decide⟩
  have length : front.length = 26 := by
    have key : (Text.bytes "\x7b\"mac_addr\":\"").length = 13 := by decide
    rw [← opening,List.length_append,List.length_append,nodeIdText_length,key]
    rfl
  have printed : Text.printed Claim.maxPayloadSize (Claim.initRequest station) =
      front ++ rest.take (Claim.maxPayloadSize - 1 - 26) := by
    rw [Text.printed,spelt,List.take_append,length,List.take_of_length_le]
    rw [length]
    decide
  rw [printed,List.append_assoc,CString.read_append clean] at read
  obtain ⟨tail,_,rfl⟩ := Option.map_eq_some_iff.mp read
  exact List.prefix_append front tail

theorem sends_nodeId (station : Claim.Station) : SendsMac station (nodeIdText station.mac) := by
  refine ⟨?_,?_⟩
  · intro Key d d' getMac generated
    exact request_begins generated
  · intro Key d ready
    obtain ⟨data,_,made,_⟩ := Claim.generate_ready ready station
    exact ⟨data,made⟩

theorem subjectName_nodeId (mac : Vector UInt8 6) :
    Claim.subjectName (nodeIdText mac) = Text.bytes "CN=" ++ nodeIdText mac := by
  apply Text.printed_short
  have key : (Text.bytes "CN=").length = 3 := by decide
  rw [List.length_append,nodeIdText_length,key]
  decide

/-- The names are never cut off and never collide, and in every run, whatever is read and
wherever it is cut short, the CSR has the node ID that the claim init request sends. -/
theorem names_agree (station : Claim.Station) :
    (∀ mac random, printedNodeId mac = nodeIdText mac ∧
      printedThingName mac random = thingNameText mac random) ∧
    (∀ mac mac' random random', printedThingName mac random = printedThingName mac' random' →
      mac = mac' ∧ random = random') ∧
    (∀ mac random, macOf (printedThingName mac random) = some mac) ∧
    ∀ (policy : Policy) (nvs : DurableMap RuntimeKey Str) (c : Config),
      (∀ id, nvs .nodeid = some id → id = nodeIdText station.mac) →
      Reaches policy (boot station.mac nvs) c → .privKey .generate ∈ c.tasks →
      ∃ id, c.shared.pcNodeId = some id ∧ Claim.subjectName id = Text.bytes "CN=" ++ id ∧
        SendsMac station id := by
  refine ⟨?_,?_,?_,?_⟩
  · intro mac random
    exact ⟨printedNodeId_whole mac,printedThingName_whole mac random⟩
  · intro mac mac' random random' same
    rw [printedThingName_whole,printedThingName_whole] at same
    exact thingNameText_injective same
  · intro mac random
    rw [printedThingName_whole]
    exact macOf_thingName mac random
  · intro policy nvs c stored run running
    refine ⟨nodeIdText station.mac,?_,subjectName_nodeId station.mac,sends_nodeId station⟩
    exact (ownNames_run stored run).owned running (fun main => by cases main)

def blank : DurableMap RuntimeKey Str := fun _ => none

/-- The first boot ends between the two writes to flash. -/
def halfNamed : DurableMap RuntimeKey Str :=
  Function.update blank .nodeid (some (nodeIdText someMac))

def namesGiven (word : UInt32) : List (Nat × Outcome) :=
  [(0,.ok),(0,.ok),(0,.go),(0,.ok),(0,.random word),(0,.ok)]

def keyBegun : List (Nat × Outcome) :=
  namesGiven 9 ++ (0,.ok) :: allStarted.drop 3 ++ [(5,.go),(5,.ok),(5,.go),(5,.ok),(5,.go),(5,.go)]

theorem halfNamed_reached :
    Reaches TaskPool.Policy.free (boot someMac blank) (boot someMac halfNamed) := by
  have first : Reaches TaskPool.Policy.free (boot someMac blank)
      ⟨{ powerOn someMac halfNamed with
        pcNodeId := some (nodeIdText someMac)
        pcThingName := some (thingNameText someMac 7) },[.main .storeThingName]⟩ :=
    TaskPool.play_reaches machine (fun _ _ _ => true) (fun _ _ _ _ => trivial) (namesGiven 7) _ _ rfl
  exact first.tail (.restart _ trivial)

set_option maxRecDepth 4000 in
theorem names_agree_rebooted :
    ∃ c, Reaches TaskPool.Policy.free (boot someMac blank) c ∧ .privKey .generate ∈ c.tasks ∧
      ∃ id, c.shared.pcNodeId = some id ∧ Claim.subjectName id = Text.bytes "CN=" ++ id ∧
        SendsMac ⟨someMac,Text.bytes "esp32"⟩ id := by
  obtain ⟨c,run,test⟩ := TaskPool.play_free machine (boot someMac halfNamed) keyBegun
    (fun c => .privKey .generate ∈ c.tasks) (by decide)
  have whole : Reaches TaskPool.Policy.free (boot someMac blank) c := halfNamed_reached.trans run
  have running := of_decide_eq_true test
  obtain ⟨_,_,_,agree⟩ := names_agree ⟨someMac,Text.bytes "esp32"⟩
  exact ⟨c,whole,running,agree TaskPool.Policy.free blank c (fun _ none => by cases none) whole
    running⟩

end QuickConnect.Firmware
