import QuickConnect.Firmware.Device
import QuickConnect.Lib.Trace

/-! prvNvsGetStr and prvNvsSetStr of main.c over an NVS as its interface documents it:
what was set is readable at once, what was not committed may be lost at a reboot. -/
namespace QuickConnect.Nvs
open Trace

structure Place where
  partition : Str
  nameSpace : Str
  key : Str
  deriving DecidableEq

structure Flash where
  current : DurableMap Place Str
  committed : DurableMap Place Str

/-- What the calls inside prvNvsGetStr return. A last nvs_get_str that fails leaves some
unspecified string in the buffer. -/
structure GetCalls where
  init : Bool
  opened : Bool
  length : Bool
  malloc : Bool
  unspecified : Option Str

structure SetCalls where
  init : Bool
  opened : Bool
  set : Bool

def prvNvsGetStr (flash : Flash) (pcPartitionName pcNamespace pcKey : Option Str)
    (calls : GetCalls) : Option Str :=
  match pcPartitionName with
  | none => none
  | some partition => match pcNamespace with
    | none => none
    | some nameSpace => match pcKey with
      | none => none
      | some key =>
        if calls.init = false then none
        else if calls.opened = false then none
        else match DurableMap.read calls.length flash.current ⟨partition,nameSpace,key⟩ with
          | none => none
          | some value =>
            if calls.malloc = false then none
            else match calls.unspecified with
              | none => some value
              -- The failure is logged and the buffer returned.
              | some left => some left

def prvNvsSetStr (flash : Flash) (pcPartitionName pcNamespace pcKey pcValue : Option Str)
    (calls : SetCalls) : Flash × Bool :=
  match pcPartitionName with
  | none => (flash,false)
  | some partition => match pcNamespace with
    | none => (flash,false)
    | some nameSpace => match pcKey with
      | none => (flash,false)
      | some key => match pcValue with
        | none => (flash,false)
        | some value =>
          if calls.init = false then (flash,false)
          else if calls.opened = false then (flash,false)
          else if calls.set = false then (flash,false)
          -- There is no nvs_commit.
          else ({ flash with
            current := Function.update flash.current ⟨partition,nameSpace,key⟩ (some value) },true)

/-- Any of the values not committed may be lost. -/
def Flash.reboot (flash : Flash) (lost : Place → Bool) : Flash :=
  let survived := fun place => if lost place then flash.committed place else flash.current place
  ⟨survived,survived⟩

inductive Event
  | got (pcPartitionName pcNamespace pcKey : Option Str) (result : Option Str)
  | set (pcPartitionName pcNamespace pcKey pcValue : Option Str) (result : Bool)
  | rebooted

structure Policy where
  get : GetCalls → Prop
  reboot : Flash → (Place → Bool) → Prop

inductive Step (policy : Policy) : Flash → Event → Flash → Prop
  | get (flash : Flash) (p n k : Option Str) (calls : GetCalls) (permitted : policy.get calls) :
      Step policy flash (.got p n k (prvNvsGetStr flash p n k calls)) flash
  | set (flash : Flash) (p n k v : Option Str) (calls : SetCalls) :
      Step policy flash (.set p n k v (prvNvsSetStr flash p n k v calls).2)
        (prvNvsSetStr flash p n k v calls).1
  | reboot (flash : Flash) (lost : Place → Bool) (permitted : policy.reboot flash lost) :
      Step policy flash .rebooted (flash.reboot lost)

/-- A call with NULL among its names is about no place. -/
def placeOf : Option Str → Option Str → Option Str → Option Place
  | some partition, some nameSpace, some key => some ⟨partition,nameSpace,key⟩
  | _, _, _ => none

def Event.place : Event → Option Place
  | .got p n k _ => placeOf p n k
  | .set p n k _ _ => placeOf p n k
  | .rebooted => none

/-- The value that a prvNvsSetStr on the place was given, if it returned pdTRUE. -/
def Event.stored (place : Place) : Event → Option Str
  | .set p n k v true => if placeOf p n k = some place then v else none
  | _ => none

/-- The value of the most recent successful set, or else what was there at the start. -/
def mostRecent (start : DurableMap Place Str) (log : List Event) : DurableMap Place Str := fun place =>
  (log.reverse.findSome? (Event.stored place)).or (start place)

/-- A durable map of strings: what the log shows of it, and what every step leaves alone. -/
structure DurableStrings (start : Flash) (log : List Event) (flash : Flash) : Prop where
  latest : ∀ earlier later p n k s, log = earlier ++ .got p n k (some s) :: later →
    ∃ place, placeOf p n k = some place ∧ mostRecent start.current earlier place = some s
  failed : ∀ p n k v calls, (prvNvsSetStr flash p n k v calls).2 = false →
    (prvNvsSetStr flash p n k v calls).1 = flash
  elsewhere : ∀ p n k v calls place, placeOf p n k ≠ some place →
    (prvNvsSetStr flash p n k v calls).1.current place = flash.current place

/-- Nothing fails once the buffer is allocated, and no reboot loses a value not committed. -/
def keeping : Policy where
  get calls := calls.unspecified = none
  reboot flash lost := ∀ place, lost place = true → flash.current place = flash.committed place

/-- Every last nvs_get_str succeeds. -/
def filling : Policy := ⟨fun calls => calls.unspecified = none,fun _ _ => True⟩

/-- Every value survives the reboots. -/
def surviving : Policy where
  get _ := True
  reboot flash lost := ∀ place, lost place = true → flash.current place = flash.committed place

section
variable {flash flash' : Flash} {p n k v : Option Str} {place : Place}

/-- prvNvsGetStr reads the map, where filling the buffer does not fail. -/
theorem prvNvsGetStr_read {calls : GetCalls} (named : placeOf p n k = some place)
    (filled : calls.unspecified = none) :
    prvNvsGetStr flash p n k calls =
      DurableMap.read (calls.init && calls.opened && calls.length && calls.malloc) flash.current place := by
  rcases p with _ | partition
  · cases named
  rcases n with _ | nameSpace
  · cases named
  rcases k with _ | key
  · cases named
  cases named
  unfold prvNvsGetStr
  rw [filled]
  cases calls.init <;> cases calls.opened <;> try rfl
  cases calls.length
  · rfl
  · cases found : flash.current ⟨partition,nameSpace,key⟩ <;> cases calls.malloc <;>
      simp [DurableMap.read,found]

theorem prvNvsGetStr_unnamed {calls : GetCalls} (unnamed : placeOf p n k = none) :
    prvNvsGetStr flash p n k calls = none := by
  rcases p with _ | partition
  · rfl
  rcases n with _ | nameSpace
  · rfl
  rcases k with _ | key
  · rfl
  cases unnamed

/-- prvNvsSetStr writes the map, and reports what the write does. -/
theorem prvNvsSetStr_write {calls : SetCalls} (named : placeOf p n k = some place) :
    prvNvsSetStr flash p n k v calls =
      (let written := DurableMap.write (calls.init && calls.opened && calls.set) flash.current place v
      ({ flash with current := written.1 },written.2)) := by
  rcases p with _ | partition
  · cases named
  rcases n with _ | nameSpace
  · cases named
  rcases k with _ | key
  · cases named
  cases named
  rcases v with _ | value
  · simp [prvNvsSetStr]
  unfold prvNvsSetStr
  cases calls.init <;> cases calls.opened <;> cases calls.set <;> rfl

theorem prvNvsSetStr_unnamed {calls : SetCalls} (unnamed : placeOf p n k = none) :
    prvNvsSetStr flash p n k v calls = (flash,false) := by
  rcases p with _ | partition
  · rfl
  rcases n with _ | nameSpace
  · rfl
  rcases k with _ | key
  · rfl
  cases unnamed

theorem prvNvsSetStr_failed {calls : SetCalls} (failed : (prvNvsSetStr flash p n k v calls).2 = false) :
    (prvNvsSetStr flash p n k v calls).1 = flash := by
  cases named : placeOf p n k with
  | none => rw [prvNvsSetStr_unnamed named]
  | some place =>
    rw [prvNvsSetStr_write named] at failed ⊢
    have same := DurableMap.write_failed (Prod.ext rfl failed)
    simp only [same]

theorem prvNvsSetStr_elsewhere {calls : SetCalls} (other : placeOf p n k ≠ some place) :
    (prvNvsSetStr flash p n k v calls).1.current place = flash.current place := by
  cases named : placeOf p n k with
  | none => rw [prvNvsSetStr_unnamed named]
  | some own =>
    rw [prvNvsSetStr_write named]
    apply DurableMap.write_other
    rintro rfl
    exact other named

theorem prvNvsSetStr_stored {calls : SetCalls} (named : placeOf p n k = some place)
    (stored : (prvNvsSetStr flash p n k v calls).2 = true) :
    ∃ value, v = some value ∧ (prvNvsSetStr flash p n k v calls).1.current place = some value := by
  rw [prvNvsSetStr_write named] at stored ⊢
  rcases v with _ | value
  · simp at stored
  · refine ⟨value,rfl,?_⟩
    cases works : calls.init && calls.opened && calls.set with
    | false => simp [works] at stored
    | true => simp

theorem reboot_keeping {lost : Place → Bool}
    (kept : ∀ place, lost place = true → flash.current place = flash.committed place) :
    (flash.reboot lost).current = flash.current := by
  funext place
  change (if lost place = true then flash.committed place else flash.current place) = _
  split
  · rename_i gone
    exact (kept place gone).symm
  · rfl

end

section
variable {start flash : Flash} {log : List Event}

theorem mostRecent_nil (start : DurableMap Place Str) : mostRecent start [] = start := by
  funext place
  rfl

theorem mostRecent_snoc {e : Event} {start : DurableMap Place Str} (place : Place) :
    mostRecent start (log ++ [e]) place = (e.stored place).or (mostRecent start log place) := by
  unfold mostRecent
  rw [List.reverse_append,List.reverse_singleton,List.singleton_append,List.findSome?_cons]
  cases e.stored place <;> rfl

/-- Along every run that loses nothing, the store is the map of the most recent sets. -/
theorem current_mostRecent (run : Runs (Step keeping) start log flash) :
    flash.current = mostRecent start.current log := by
  apply Runs.invariant (fun log flash => flash.current = mostRecent start.current log) run
  · exact (mostRecent_nil start.current).symm
  · intro log before e after same step
    funext place
    rw [mostRecent_snoc,← same]
    cases step with
    | get p n k calls permitted => rfl
    | set p n k v calls =>
      by_cases own : placeOf p n k = some place
      · cases stored : (prvNvsSetStr before p n k v calls).2 with
        | false =>
          rw [prvNvsSetStr_failed stored]
          rfl
        | true =>
          obtain ⟨value,rfl,now⟩ := prvNvsSetStr_stored own stored
          rw [now]
          simp [Event.stored,own]
      · rw [prvNvsSetStr_elsewhere own]
        cases (prvNvsSetStr before p n k v calls).2 <;> simp [Event.stored,own]
    | reboot lost permitted =>
      rw [reboot_keeping permitted]
      rfl

/-- Where no value not committed is lost and no filled-in buffer fails, prvNvsGetStr
and prvNvsSetStr are a durable map of strings. -/
theorem durable_strings (run : Runs (Step keeping) start log flash) :
    DurableStrings start log flash := by
  constructor
  · intro earlier later p n k s same
    obtain ⟨before,after,before_run,step⟩ := run.at_entry same
    generalize entry : Event.got p n k (some s) = e at step
    cases step with
    | get p n k calls permitted =>
      injection entry with names spaces keys answered
      subst names spaces keys
      cases named : placeOf p n k with
      | none =>
        rw [prvNvsGetStr_unnamed named] at answered
        cases answered
      | some place =>
        rw [prvNvsGetStr_read named permitted] at answered
        refine ⟨place,rfl,?_⟩
        rw [← current_mostRecent before_run]
        exact DurableMap.read_sound answered.symm
    | set => cases entry
    | reboot => cases entry
  · intro p n k v calls failed
    exact prvNvsSetStr_failed failed
  · intro p n k v calls place other
    exact prvNvsSetStr_elsewhere other

end

section
variable {flash : Flash} {k : Firmware.RuntimeKey} {v : Option Str}

def keyText : Firmware.RuntimeKey → Str
  | .certificate => Text.bytes "certificate"
  | .key => Text.bytes "key"
  | .thingname => Text.bytes "thingname"
  | .nodeid => Text.bytes "nodeid"

def runtimePlace (k : Firmware.RuntimeKey) : Place :=
  ⟨Text.bytes "runtime",Text.bytes "quickConnect",keyText k⟩

theorem runtimePlace_injective : Function.Injective runtimePlace := by
  intro a b same
  have keys : keyText a = keyText b := congrArg Place.key same
  cases a <;> cases b <;> first | rfl | exact absurd keys (by decide)

/-- What the firmware's tasks see of the store. -/
def Flash.runtime (flash : Flash) : DurableMap Firmware.RuntimeKey Str := fun k =>
  flash.current (runtimePlace k)

def runtimeGet (flash : Flash) (k : Firmware.RuntimeKey) (calls : GetCalls) : Option Str :=
  prvNvsGetStr flash (some (runtimePlace k).partition) (some (runtimePlace k).nameSpace)
    (some (runtimePlace k).key) calls

def runtimeSet (flash : Flash) (k : Firmware.RuntimeKey) (v : Option Str) (calls : SetCalls) :
    Flash × Bool :=
  prvNvsSetStr flash (some (runtimePlace k).partition) (some (runtimePlace k).nameSpace)
    (some (runtimePlace k).key) v calls

/-- The reads of the firmware's tasks are those of their durable map. -/
theorem runtimeGet_read {calls : GetCalls} (filled : calls.unspecified = none) :
    runtimeGet flash k calls =
      flash.runtime.read (calls.init && calls.opened && calls.length && calls.malloc) k := by
  unfold runtimeGet
  rw [prvNvsGetStr_read rfl filled]
  rfl

/-- And so are their writes. -/
theorem runtimeSet_write {calls : SetCalls} :
    ((runtimeSet flash k v calls).1.runtime,(runtimeSet flash k v calls).2) =
      flash.runtime.write (calls.init && calls.opened && calls.set) k v := by
  unfold runtimeSet
  rw [prvNvsSetStr_write rfl]
  rcases v with _ | value
  · simp
  · cases calls.init && calls.opened && calls.set
    · rfl
    · simp only [DurableMap.write_some,Prod.mk.injEq,and_true]
      funext other
      change Function.update flash.current (runtimePlace k) (some value) (runtimePlace other) = _
      rw [Function.update_apply,Function.update_apply]
      simp only [runtimePlace_injective.eq_iff]
      rfl

end

def setThingName (value : Str) : Event :=
  .set (some (runtimePlace .thingname).partition) (some (runtimePlace .thingname).nameSpace)
    (some (runtimePlace .thingname).key) (some value) true

def gotThingName (result : Str) : Event :=
  .got (some (runtimePlace .thingname).partition) (some (runtimePlace .thingname).nameSpace)
    (some (runtimePlace .thingname).key) (some result)

def holding (value : Str) : Flash :=
  ⟨Function.update (fun _ => none) (runtimePlace .thingname) (some value),
    Function.update (fun _ => none) (runtimePlace .thingname) (some value)⟩

def oldName : Str := Text.bytes "old"

def newName : Str := Text.bytes "new"

theorem durable_strings_set_get :
    ∃ flash, Runs (Step keeping) (holding oldName) [setThingName newName,gotThingName newName] flash ∧
      DurableStrings (holding oldName) [setThingName newName,gotThingName newName] flash := by
  have set : Step keeping (holding oldName) (setThingName newName) _ :=
    .set (holding oldName) _ _ _ _ ⟨true,true,true⟩
  have get : Step keeping _ (gotThingName newName) _ :=
    .get (runtimeSet (holding oldName) .thingname (some newName) ⟨true,true,true⟩).1 _ _ _
      ⟨true,true,true,true,none⟩ rfl
  have run : Runs (Step keeping) (holding oldName) [setThingName newName,gotThingName newName] _ :=
    .snoc (.snoc .nil set) get
  exact ⟨_,run,durable_strings run⟩

theorem durable_strings_fail :
    (∃ flash, Runs (Step surviving) (holding oldName) [gotThingName newName] flash ∧
      ¬ DurableStrings (holding oldName) [gotThingName newName] flash) ∧
    ∃ flash, Runs (Step filling) (holding oldName)
        [setThingName newName,.rebooted,gotThingName oldName] flash ∧
      ¬ DurableStrings (holding oldName) [setThingName newName,.rebooted,gotThingName oldName] flash := by
  constructor
  · have get : Step surviving _ (gotThingName newName) _ :=
      .get (holding oldName) _ _ _ ⟨true,true,true,true,some newName⟩ trivial
    refine ⟨_,.snoc .nil get,fun durable => ?_⟩
    obtain ⟨place,named,same⟩ := durable.latest [] [] _ _ _ newName rfl
    cases named
    exact absurd same (by decide)
  · have set : Step filling (holding oldName) (setThingName newName) _ :=
      .set (holding oldName) _ _ _ _ ⟨true,true,true⟩
    have reboot : Step filling _ .rebooted _ :=
      .reboot (runtimeSet (holding oldName) .thingname (some newName) ⟨true,true,true⟩).1 (fun _ => true)
        trivial
    have get : Step filling _ (gotThingName oldName) _ :=
      .get ((runtimeSet (holding oldName) .thingname (some newName) ⟨true,true,true⟩).1.reboot
        fun _ => true) _ _ _ ⟨true,true,true,true,none⟩ rfl
    refine ⟨_,.snoc (.snoc (.snoc .nil set) reboot) get,fun durable => ?_⟩
    obtain ⟨place,named,same⟩ := durable.latest [setThingName newName,.rebooted] [] _ _ _ oldName rfl
    cases named
    exact absurd same (by decide)

end QuickConnect.Nvs
