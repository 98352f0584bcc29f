import QuickConnect.Lib.Heap
import QuickConnect.Firmware.Population
import QuickConnect.Firmware.Tokens

/-! Who may use the shared TLS handle. The tokens exclude each other, a set
connected bit keeps the TLS task away, and the handle behind it is live. -/
namespace QuickConnect.Firmware
open EventGroup

/-- Where prvMqttConnectionTask and prvQuickConnectSendingTask rely on the connection below them. -/
def Task.needsTls : Task → Bool
  | .mqtt .connect | .mqtt (.report _) | .sending .publish | .sending (.report _) => true
  | _ => false

def Task.needsMqtt : Task → Bool
  | .sending .publish | .sending (.report _) => true
  | _ => false

structure Links (c : Config) : Prop where
  single : ∀ a, tokens a c ≤ 1
  sender : population .sending c ≤ 1
  tls : ∀ t ∈ c.tasks, t.needsTls = true → .tlsConnected ∈ c.shared.net
  mqtt : ∀ t ∈ c.tasks, t.needsMqtt = true → .mqttConnected ∈ c.shared.net
  below : .mqttConnected ∈ c.shared.net → .tlsConnected ∈ c.shared.net

theorem bit_excludes {a : Activity} {d : Device} {tasks : List Task} {u : Task} {b : NetworkBit}
    (single : tokens a ⟨d,tasks⟩ ≤ 1) (own : b ∈ a.bits) (pending : b ∈ d.net) (member : u ∈ tasks)
    (holds : u.holds a = true) : False := by
  have total := TaskPool.le_total (fun d : Device => held a.bits d.net) (Task.weight a)
    (c := ⟨d,tasks⟩) member
  have positive : 0 < held a.bits d.net := held_pos_iff.mpr ⟨b,own,pending⟩
  unfold tokens at single
  rw [Task.weight,holds] at total
  change held a.bits d.net + 1 ≤ _ at total
  omega

theorem task_excludes {a : Activity} {d : Device} {before after : List Task} {t u : Task}
    (single : tokens a ⟨d,before ++ t :: after⟩ ≤ 1) (first : t.holds a = true)
    (member : u ∈ before ++ after) (holds : u.holds a = true) : False := by
  have total := TaskPool.pair_le_total (fun d : Device => held a.bits d.net) (Task.weight a)
    d member (t := t)
  unfold tokens at single
  rw [Task.weight,Task.weight,first,holds] at total
  change held a.bits d.net + 1 + 1 ≤ _ at total
  omega

theorem needsMqtt_needsTls {t : Task} (needs : t.needsMqtt = true) : t.needsTls = true := by
  cases t with
  | sending point => cases point <;> first | rfl | cases needs
  | _ => cases needs

theorem dropsTls_needsTls {t : Task} (drops : t.dropsTls = true) : t.needsTls = true := by
  cases t with
  | sending point => cases point <;> first | rfl | cases drops
  | mqtt point => cases point <;> first | rfl | cases drops
  | _ => cases drops

theorem dropsMqtt_needsMqtt {t : Task} (drops : t.dropsMqtt = true) : t.needsMqtt = true := by
  cases t with
  | sending point => cases point <;> first | rfl | cases drops
  | _ => cases drops

theorem clears_tls {t : Task} (clears : .tlsConnected ∈ t.clears) :
    t = .main .createGroups ∨ t.dropsTls = true := by
  cases t with
  | main point =>
    by_cases same : point = .createGroups
    · exact .inl (by rw [same])
    · simp [Task.clears,same] at clears
  | handler point => cases point <;> simp [Task.clears] at clears
  | network point => cases point <;> simp [Task.clears,restartMask] at clears
  | mqtt point =>
    right
    cases point with
    | report status => cases status <;> first | rfl | simp [Task.clears] at clears
    | _ => simp [Task.clears] at clears
  | sending point =>
    right
    cases point with
    | report status => cases status <;> first | rfl | simp [Task.clears] at clears
    | _ => simp [Task.clears] at clears
  | _ => simp [Task.clears] at clears

theorem clears_mqtt {t : Task} (clears : .mqttConnected ∈ t.clears) :
    .tlsConnected ∈ t.clears ∧ (t = .main .createGroups ∨ t.dropsMqtt = true) := by
  cases t with
  | main point =>
    by_cases same : point = .createGroups
    · rw [same]
      exact ⟨by decide,.inl rfl⟩
    · simp [Task.clears,same] at clears
  | handler point => cases point <;> simp [Task.clears] at clears
  | network point => cases point <;> simp [Task.clears,restartMask] at clears
  | mqtt point =>
    cases point with
    | report status => cases status <;> simp [Task.clears] at clears
    | _ => simp [Task.clears] at clears
  | sending point =>
    cases point with
    | report status =>
      cases status <;> first | exact ⟨by decide,.inr rfl⟩ | simp [Task.clears] at clears
    | _ => simp [Task.clears] at clears
  | _ => simp [Task.clears] at clears

theorem mqtt_connecting {d d' : Device} {o : Outcome} {next : List Task} {before point : MqttPoint}
    (ran : prvMqttConnectionTask d o before = some (d',next)) (member : .mqtt point ∈ next)
    (needs : Task.needsTls (.mqtt point) = true) :
    Task.clears (.mqtt before) = ∅ ∧
      (Task.needsTls (.mqtt before) = true ∨ .tlsConnected ∈ d.net) := by
  cases before with
  | waiting =>
    obtain ⟨_,ready,_,_⟩ := awaitBits_some.mp ran
    exact ⟨rfl,.inr (ready (Finset.mem_singleton_self _))⟩
  | connect => exact ⟨rfl,.inl rfl⟩
  | report status =>
    obtain ⟨_,ran⟩ := proceed_some.mp ran
    cases status <;> cases ran <;>
      first | cases List.mem_singleton.mp member; cases needs | cases member
  | dropped =>
    obtain ⟨_,ran⟩ := proceed_some.mp ran
    cases ran
    cases member

theorem sending_publishing {d d' : Device} {o : Outcome} {next : List Task}
    {before point : SendingPoint}
    (ran : prvQuickConnectSendingTask d o before = some (d',next)) (member : .sending point ∈ next)
    (needs : Task.needsMqtt (.sending point) = true) :
    Task.clears (.sending before) = ∅ ∧
      (Task.needsMqtt (.sending before) = true ∨ .mqttConnected ∈ d.net) := by
  cases before with
  | delay =>
    obtain ⟨_,ran⟩ := proceed_some.mp ran
    cases ran
    cases List.mem_singleton.mp member
    cases needs
  | waiting =>
    obtain ⟨_,ready,_,_⟩ := awaitBits_some.mp ran
    exact ⟨rfl,.inr (ready (Finset.mem_singleton_self _))⟩
  | publish => exact ⟨rfl,.inl rfl⟩
  | report status =>
    obtain ⟨_,ran⟩ := proceed_some.mp ran
    split at ran <;> cases ran <;> cases List.mem_singleton.mp member <;> cases needs
  | dropped =>
    obtain ⟨_,ran⟩ := proceed_some.mp ran
    cases ran
    cases List.mem_singleton.mp member
    cases needs

theorem needs_next {d d' : Device} {t u : Task} {o : Outcome} {next : List Task}
    (ran : taskStep d o t = some (d',next)) (member : u ∈ next) (needs : u.needsTls = true) :
    t.clears = ∅ ∧ (t.needsTls = true ∨ .tlsConnected ∈ d.net ∨ .mqttConnected ∈ d.net) ∧
      (u.needsMqtt = true → t.needsMqtt = true ∨ .mqttConnected ∈ d.net) := by
  rcases (succession ran).programs u member with ⟨first,_⟩ | same
  · simp only [firstTasks,List.mem_cons,List.not_mem_nil,or_false] at first
    rcases first with rfl | rfl | rfl | rfl | rfl | rfl | rfl | rfl <;> cases needs
  · cases u with
    | mqtt point =>
      cases t <;> cases same
      obtain ⟨clears,ready⟩ := mqtt_connecting ran member needs
      exact ⟨clears,ready.imp_right .inl,fun publishing => by cases publishing⟩
    | sending point =>
      cases t <;> cases same
      have publishing : Task.needsMqtt (.sending point) = true := by
        cases point <;> first | rfl | cases needs
      obtain ⟨clears,ready⟩ := sending_publishing ran member publishing
      exact ⟨clears,ready.imp needsMqtt_needsTls .inr,fun _ => ready⟩
    | _ => cases needs

theorem mqtt_holds (point : MqttPoint) : Task.holds .mqtt (.mqtt point) = true := by
  cases point <;> rfl

theorem Links.mqtt_excludes {c : Config} (links : Links c) {point : MqttPoint}
    (pending : .mqttConnected ∈ c.shared.net) : .mqtt point ∉ c.tasks := fun member =>
  bit_excludes (links.single .mqtt) (by decide) pending member (mqtt_holds point)

theorem Links.tls_excludes {c : Config} (links : Links c) {point : TlsPoint}
    (pending : .tlsConnected ∈ c.shared.net) : .tls point ∉ c.tasks := fun member =>
  bit_excludes (links.single .tls) (by decide) pending member rfl

section
variable {d d' : Device} {before after : List Task} {t u : Task}

theorem Links.mqtt_alone (links : Links ⟨d,before ++ t :: after⟩) (clears : .tlsConnected ∈ t.clears)
    {point : MqttPoint} (member : .mqtt point ∈ before ++ after) : False := by
  have mine : t ∈ before ++ t :: after := by simp
  have other : .mqtt point ∈ before ++ t :: after := TaskPool.mem_focused.mpr (.inr member)
  rcases clears_tls clears with rfl | drops
  · exact task_excludes (links.single .mqtt) rfl member (mqtt_holds point)
  · cases t with
    | mqtt own =>
      exact task_excludes (links.single .mqtt) (mqtt_holds own) member (mqtt_holds point)
    | sending own =>
      have publishing : Task.needsMqtt (.sending own) = true := by
        cases own <;> first | rfl | cases drops
      have pending := links.mqtt _ mine publishing
      exact links.mqtt_excludes pending other
    | _ => cases drops

theorem Links.sending_alone (links : Links ⟨d,before ++ t :: after⟩)
    (clears : .tlsConnected ∈ t.clears) {point : SendingPoint}
    (publishing : Task.needsMqtt (.sending point) = true)
    (member : .sending point ∈ before ++ after) : False := by
  have mine : t ∈ before ++ t :: after := by simp
  have pending := links.mqtt _ (TaskPool.mem_focused.mpr (.inr member)) publishing
  rcases clears_tls clears with rfl | drops
  · have gone := alone_in_population .sending links.sender rfl member
    cases gone
  · cases t with
    | mqtt own =>
      exact links.mqtt_excludes pending mine
    | sending own =>
      have gone := alone_in_population .sending links.sender rfl member
      cases gone
    | _ => cases drops

/-- Nobody else relies on a connection that is being marked as dropped. -/
theorem Links.undisturbed (links : Links ⟨d,before ++ t :: after⟩)
    (clears : .tlsConnected ∈ t.clears) (member : u ∈ before ++ after) : u.needsTls = false := by
  cases u with
  | mqtt point => exact (links.mqtt_alone clears member).elim
  | sending point =>
    cases publishing : Task.needsMqtt (.sending point) with
    | false => cases point <;> first | rfl | cases publishing
    | true => exact (links.sending_alone clears publishing member).elim
  | _ => rfl

theorem Links.below_kept (links : Links ⟨d,before ++ t :: after⟩) (effect : Effect t d d')
    (pending : .mqttConnected ∈ d'.net) : .tlsConnected ∈ d'.net := by
  have mine : t ∈ before ++ t :: after := by simp
  rw [effect.net] at pending ⊢
  rw [mem_setBits,mem_clearBits] at pending ⊢
  left
  rcases pending with ⟨pending,uncleared⟩ | sets
  · refine ⟨links.below pending,fun clears => ?_⟩
    rcases clears_tls clears with rfl | drops
    · exact uncleared (by decide)
    · cases t with
      | mqtt own =>
        exact links.mqtt_excludes pending mine
      | sending own =>
        refine uncleared ?_
        cases own with
        | report status => cases status <;> first | decide | cases drops
        | _ => cases drops
      | _ => cases drops
  · cases sets_success (a := .mqtt) sets
    exact ⟨links.tls _ mine rfl,by decide⟩

theorem Links.run (links : Links ⟨d,before ++ t :: after⟩) {o : Outcome} {next : List Task}
    (ran : taskStep d o t = some (d',next)) : Links ⟨d',before ++ next ++ after⟩ := by
  have mine : t ∈ before ++ t :: after := by simp
  have effect := taskStep_effect ran
  have kept : ∀ b, b ∈ d.net → b ∉ t.clears → b ∈ d'.net := by
    intro b pending uncleared
    rw [effect.net,mem_setBits,mem_clearBits]
    exact .inl ⟨pending,uncleared⟩
  constructor
  · intro a
    have paid := tokens_step a ran before after
      (fun drops => links.tls t mine (dropsTls_needsTls drops))
      (fun drops => links.mqtt t mine (dropsMqtt_needsMqtt drops))
    exact paid.trans (links.single a)
  · have paid := (succession ran).population .sending
    have few := links.sender
    unfold population at few ⊢
    rw [TaskPool.total_focused] at few
    rw [TaskPool.total_replaced]
    omega
  · intro u member needs
    rcases TaskPool.mem_replaced.mp member with created | inside
    · obtain ⟨clears,ready,_⟩ := needs_next ran created needs
      refine kept _ ?_ (by rw [clears]; exact Finset.notMem_empty _)
      rcases ready with own | pending | above
      · exact links.tls t mine own
      · exact pending
      · exact links.below above
    · refine kept _ (links.tls u (TaskPool.mem_focused.mpr (.inr inside)) needs) fun clears => ?_
      have alone := links.undisturbed clears inside
      exact Bool.noConfusion (needs.symm.trans alone)
  · intro u member needs
    rcases TaskPool.mem_replaced.mp member with created | inside
    · obtain ⟨clears,_,ready⟩ := needs_next ran created (needsMqtt_needsTls needs)
      refine kept _ ?_ (by rw [clears]; exact Finset.notMem_empty _)
      exact (ready needs).elim (links.mqtt t mine) id
    · refine kept _ (links.mqtt u (TaskPool.mem_focused.mpr (.inr inside)) needs) fun clears => ?_
      have alone := links.undisturbed (clears_mqtt clears).1 inside
      exact Bool.noConfusion ((needsMqtt_needsTls needs).symm.trans alone)
  · exact links.below_kept effect

end

theorem Links.boot (mac : Vector UInt8 6) (nvs : DurableMap RuntimeKey Str) :
    Links (boot mac nvs) where
  single a := (tokens_boot a mac nvs).le
  sender := (population_boot .sending mac nvs).le
  tls t member needs := by
    cases List.mem_singleton.mp member
    cases needs
  mqtt t member needs := by
    cases List.mem_singleton.mp member
    cases needs
  below connected := by cases connected

def Device.Handled (d : Device) : Prop := ∀ h, d.pxTls = some h → d.tlsLive h

def Device.Connected (d : Device) : Prop :=
  ∃ h tls, d.pxTls = some h ∧ d.tlsHandles[h]? = some tls ∧ tls.destroys = 0 ∧ tls.connected = true

def Device.DestroyedOnce (d : Device) : Prop := ∀ tls ∈ d.tlsHandles, tls.destroys ≤ 1

/-- What prvTlsConnectionTask may rely on at each of its points. -/
def TlsPoint.Ready (d : Device) : TlsPoint → Prop
  | .waiting | .test => d.Handled
  | .disconnect => ∃ h, d.pxTls = some h ∧ d.tlsLive h
  | .configure | .allocate => True
  | .assign handle => ∀ h, handle = some h → d.tlsLive h
  | .connect handle => d.pxTls = handle ∧ d.Handled
  | .report connected => d.Handled ∧ (connected = true → d.Connected)

def TlsPoint.replacing : TlsPoint → Bool
  | .configure | .allocate | .assign _ => true
  | _ => false

structure Exclusive (c : Config) : Prop where
  links : Links c
  ready : ∀ point, .tls point ∈ c.tasks → point.Ready c.shared
  handled : c.shared.Handled ∨ ∃ point, .tls point ∈ c.tasks ∧ point.replacing = true
  connected : .tlsConnected ∈ c.shared.net → c.shared.Connected
  once : c.shared.DestroyedOnce

section
variable {d d' : Device} {o : Outcome} {next : List Task}

theorem Connected.handled (connected : d.Connected) : d.Handled := by
  obtain ⟨h,tls,current,found,live,_⟩ := connected
  intro g same
  rw [current,Option.some_inj] at same
  subst same
  exact ⟨tls,found,live⟩

theorem connectTls_connected {h : Nat} (current : d.pxTls = some h) (live : d.tlsLive h) :
    (d.connectTls (some h)).Connected := by
  obtain ⟨tls,found,undestroyed⟩ := live
  refine ⟨h,{ tls with connected := true },current,?_,undestroyed,rfl⟩
  simp [Device.connectTls,found]

theorem destroyTls_once {h : Nat} (live : d.tlsLive h) (once : d.DestroyedOnce) :
    (d.destroyTls (some h)).DestroyedOnce := by
  obtain ⟨own,found,undestroyed⟩ := live
  refine Heap.every_changed once fun tls same => ?_
  rw [found,Option.some_inj] at same
  subst same
  exact (congrArg (· + 1) undestroyed).le

theorem connectTls_once {handle : Option Nat} (once : d.DestroyedOnce) :
    (d.connectTls handle).DestroyedOnce := by
  cases handle with
  | none => exact once
  | some h =>
    refine Heap.every_changed once fun tls found => ?_
    exact once tls (List.mem_of_getElem? found)

structure Replaced (d' : Device) (next : List Task) : Prop where
  ready : ∀ point, .tls point ∈ next → point.Ready d'
  handled : d'.Handled ∨ ∃ point, .tls point ∈ next ∧ point.replacing = true
  once : d'.DestroyedOnce

theorem Replaced.at {point : TlsPoint} (ready : point.Ready d')
    (handled : d'.Handled ∨ point.replacing = true) (once : d'.DestroyedOnce) :
    Replaced d' [.tls point] where
  ready other member := by
    cases List.mem_singleton.mp member
    exact ready
  handled := handled.imp_right fun replacing => ⟨point,List.mem_singleton_self _,replacing⟩
  once := once

theorem prvTlsConnectionTask_replaced {point : TlsPoint} (ready : point.Ready d)
    (once : d.DestroyedOnce) (ran : prvTlsConnectionTask d o point = some (d',next)) :
    Replaced d' next := by
  cases point with
  | waiting =>
    obtain ⟨_,_,rfl,rfl⟩ := awaitBits_some.mp ran
    exact .at ready (.inl ready) once
  | test =>
    obtain ⟨_,ran⟩ := proceed_some.mp ran
    split at ran
    · cases ran
      exact .at trivial (.inr rfl) once
    · rename_i opened
      obtain ⟨h,current⟩ := Option.ne_none_iff_exists'.mp opened
      cases ran
      exact .at ⟨h,current,ready h current⟩ (.inl ready) once
  | disconnect =>
    obtain ⟨h,current,live⟩ := ready
    have destroyed := destroyTls_once live once
    rw [← current] at destroyed
    rcases call_some.mp ran with ⟨_,ran⟩ | ⟨_,ran⟩ <;> cases ran <;>
      exact .at trivial (.inr rfl) destroyed
  | configure =>
    obtain ⟨_,ran⟩ := proceed_some.mp ran
    split at ran <;> cases ran <;> exact .at trivial (.inr rfl) once
  | allocate =>
    rcases call_some.mp ran with ⟨_,ran⟩ | ⟨_,ran⟩ <;> cases ran
    · refine .at ?_ (.inr rfl) ?_
      · intro h same
        cases same
        refine ⟨⟨false,0⟩,?_,rfl⟩
        simp
      · exact Heap.every_allocated once (Nat.zero_le _)
    · exact .at nofun (.inr rfl) once
  | assign handle =>
    obtain ⟨_,ran⟩ := proceed_some.mp ran
    cases ran
    have handled : Device.Handled { d with pxTls := handle } := ready
    exact .at ⟨rfl,handled⟩ (.inl handled) once
  | connect handle =>
    obtain ⟨current,handled⟩ := ready
    rcases call_some.mp ran with ⟨_,ran⟩ | ⟨_,ran⟩
    · split at ran
      · cases ran
      · rename_i opened
        obtain ⟨h,rfl⟩ := Option.ne_none_iff_exists'.mp opened
        cases ran
        have connected := connectTls_connected current (handled h current)
        have live := Connected.handled connected
        exact .at ⟨live,fun _ => connected⟩ (.inl live) (connectTls_once once)
    · cases ran
      exact .at ⟨handled,nofun⟩ (.inl handled) once
  | report connected =>
    obtain ⟨_,ran⟩ := proceed_some.mp ran
    cases ran
    exact ⟨nofun,.inl ready.1,once⟩

theorem Handled.congr (same : d'.connection = d.connection) (handled : d.Handled) : d'.Handled := by
  injection same with px handles
  intro h current
  rw [px] at current
  obtain ⟨tls,found,live⟩ := handled h current
  exact ⟨tls,by rw [handles,found],live⟩

theorem Connected.congr (same : d'.connection = d.connection) (connected : d.Connected) :
    d'.Connected := by
  injection same with px handles
  obtain ⟨h,tls,current,found,live⟩ := connected
  exact ⟨h,tls,px.trans current,by rw [handles,found],live⟩

theorem tlsLive_congr (same : d'.connection = d.connection) {h : Nat} (live : d.tlsLive h) :
    d'.tlsLive h := by
  injection same with _ handles
  obtain ⟨tls,found,undestroyed⟩ := live
  exact ⟨tls,by rw [handles,found],undestroyed⟩

theorem TlsPoint.Ready.congr (same : d'.connection = d.connection) {point : TlsPoint}
    (ready : point.Ready d) : point.Ready d' := by
  cases point with
  | waiting | test => exact Handled.congr same ready
  | disconnect =>
    obtain ⟨h,current,live⟩ := ready
    have px : d'.pxTls = d.pxTls := congrArg Prod.fst same
    exact ⟨h,px.trans current,tlsLive_congr same live⟩
  | configure | allocate => trivial
  | assign handle => exact fun h opened => tlsLive_congr same (ready h opened)
  | connect handle =>
    have px : d'.pxTls = d.pxTls := congrArg Prod.fst same
    exact ⟨px.trans ready.1,Handled.congr same ready.2⟩
  | report connected =>
    exact ⟨Handled.congr same ready.1,fun success => Connected.congr same (ready.2 success)⟩

end

section
variable {d d' : Device} {before after next : List Task} {t : Task} {o : Outcome}

theorem Exclusive.run_tls {point : TlsPoint} (safe : Exclusive ⟨d,before ++ .tls point :: after⟩)
    (ran : taskStep d o (.tls point) = some (d',next)) : Exclusive ⟨d',before ++ next ++ after⟩ := by
  have mine : .tls point ∈ before ++ .tls point :: after := by simp
  have alone : ∀ other, .tls other ∉ before ++ after := fun other member =>
    task_excludes (safe.links.single .tls) rfl member rfl
  have replaced := prvTlsConnectionTask_replaced (safe.ready point mine) safe.once ran
  refine ⟨safe.links.run ran,?_,?_,?_,replaced.once⟩
  · intro other member
    rcases TaskPool.mem_replaced.mp member with created | inside
    · exact replaced.ready other created
    · exact (alone other inside).elim
  · refine replaced.handled.imp_right fun ⟨other,created,replacing⟩ => ⟨other,?_,replacing⟩
    exact TaskPool.mem_replaced.mpr (.inl created)
  · intro connected
    change .tlsConnected ∈ d'.net at connected
    rw [(taskStep_effect ran).net,mem_setBits,mem_clearBits] at connected
    rcases connected with ⟨pending,_⟩ | sets
    · exact (safe.links.tls_excludes pending mine).elim
    · cases sets_success (a := .tls) sets
      have ready := safe.ready _ mine
      obtain ⟨_,ran⟩ := proceed_some.mp ran
      cases ran
      exact Connected.congr rfl (ready.2 rfl)

theorem Exclusive.run_other (safe : Exclusive ⟨d,before ++ t :: after⟩)
    (other : t.handlesTls = false) (ran : taskStep d o t = some (d',next)) :
    Exclusive ⟨d',before ++ next ++ after⟩ := by
  have links := safe.links.run ran
  have effect := taskStep_effect ran
  have same := effect.connection other
  have elsewhere : ∀ point, .tls point ∈ before ++ t :: after → .tls point ∈ before ++ after := by
    intro point member
    rcases TaskPool.mem_focused.mp member with rfl | inside
    · cases other
    · exact inside
  refine ⟨links,?_,?_,?_,?_⟩
  · intro point member
    rcases TaskPool.mem_replaced.mp member with created | inside
    · rcases (succession ran).programs _ created with ⟨first,_⟩ | own
      · have waiting : point = .waiting := by simpa [firstTasks] using first
        subst waiting
        rcases safe.handled with handled | ⟨point,member,_⟩
        · exact Handled.congr same handled
        · have pair := TaskPool.created_le_total (fun d : Device => held Activity.tls.bits d.net)
            (Task.weight .tls) d' created (elsewhere point member)
          have single := links.single .tls
          unfold tokens at single
          have two : Task.weight .tls (.tls .waiting) + Task.weight .tls (.tls point) = 2 := rfl
          omega
      · cases t <;> cases own; cases other
    · exact (safe.ready point (TaskPool.mem_focused.mpr (.inr inside))).congr same
  · rcases safe.handled with handled | ⟨point,member,replacing⟩
    · exact .inl (Handled.congr same handled)
    · exact .inr ⟨point,TaskPool.mem_replaced.mpr (.inr (elsewhere point member)),replacing⟩
  · intro connected
    change .tlsConnected ∈ d'.net at connected
    rw [effect.net,mem_setBits,mem_clearBits] at connected
    rcases connected with ⟨pending,_⟩ | sets
    · exact Connected.congr same (safe.connected pending)
    · rw [sets_success (a := .tls) sets] at other
      cases other
  · injection same with _ handles
    unfold Device.DestroyedOnce
    rw [handles]
    exact safe.once

theorem Exclusive.run (safe : Exclusive ⟨d,before ++ t :: after⟩)
    (ran : taskStep d o t = some (d',next)) : Exclusive ⟨d',before ++ next ++ after⟩ := by
  cases own : t.handlesTls with
  | true =>
    cases t with
    | tls point => exact safe.run_tls ran
    | _ => cases own
  | false => exact safe.run_other own ran

theorem Exclusive.boot (mac : Vector UInt8 6) (nvs : DurableMap RuntimeKey Str) :
    Exclusive (boot mac nvs) where
  links := .boot mac nvs
  ready point member := by cases List.mem_singleton.mp member
  handled := .inl nofun
  connected pending := by cases pending
  once := nofun

theorem exclusive_run {policy : Policy} {mac : Vector UInt8 6} {nvs : DurableMap RuntimeKey Str}
    {c : Config} (run : Reaches policy (boot mac nvs) c) : Exclusive c := by
  apply TaskPool.Reaches.invariant Exclusive run
  · exact .boot mac nvs
  · intro c c' safe step
    cases step with
    | run s s' before after t o next permitted ran => exact safe.run (exec_some ran).2
    | restart _ permitted => exact .boot _ _

end

/-- Past the wait of prvTlsConnectionTask, inside eMqttConnect, inside
eMqttPublishQuickConnect. -/
def Task.usesTls : Task → Bool
  | .tls point => decide (point ≠ .waiting)
  | .mqtt point => decide (point = .connect)
  | .sending point => decide (point = .publish)
  | _ => false

structure TlsDiscipline (c : Config) : Prop where
  oneTlsTask : c.tasks.countP (·.program = .tls) ≤ 1
  oneMqttTask : c.tasks.countP (·.program = .mqtt) ≤ 1
  oneUser : c.tasks.countP Task.usesTls ≤ 1
  connectedInUse : .mqtt .connect ∈ c.tasks ∨ .sending .publish ∈ c.tasks → c.shared.Connected
  liveAtDisconnect : .tls .disconnect ∈ c.tasks → ∃ h, c.shared.pxTls = some h ∧ c.shared.tlsLive h
  destroyedOnce : c.shared.DestroyedOnce

section
variable {c : Config}

theorem Links.count_le (links : Links c) (a : Activity) {p : Task → Bool}
    (holders : ∀ t ∈ c.tasks, p t = true → t.holds a = true) : c.tasks.countP p ≤ 1 := by
  have counted : c.tasks.countP (Task.holds a) ≤ (c.tasks.map (Task.weight a)).sum := by
    apply TaskPool.countP_le_sum
    intro t holds
    rw [Task.weight,holds]
    exact Nat.le_refl _
  have single := links.single a
  unfold tokens TaskPool.total at single
  have fewer := List.countP_mono_left holders
  omega

theorem Links.count_sending (links : Links c) {p : Task → Bool}
    (senders : ∀ t ∈ c.tasks, p t = true → t.program = .sending) : c.tasks.countP p ≤ 1 := by
  have counted : c.tasks.countP (·.program = .sending) ≤ (c.tasks.map (Task.population .sending)).sum := by
    apply TaskPool.countP_le_sum
    intro t sender
    cases t <;> first | exact Nat.le_refl _ | cases sender
  have few := links.sender
  unfold population TaskPool.total at few
  have fewer := List.countP_mono_left (q := (·.program = .sending)) fun t member uses =>
    decide_eq_true (senders t member uses)
  omega

theorem Links.one_user (links : Links c) : c.tasks.countP Task.usesTls ≤ 1 := by
  by_cases tls : .tlsConnected ∈ c.shared.net
  · have noTls : ∀ point, .tls point ∉ c.tasks := fun _ => links.tls_excludes tls
    by_cases mqtt : .mqttConnected ∈ c.shared.net
    · apply links.count_sending
      intro t member uses
      cases t with
      | sending point => rfl
      | tls point => exact (noTls point member).elim
      | mqtt point =>
        exact (links.mqtt_excludes mqtt member).elim
      | _ => cases uses
    · apply links.count_le .mqtt
      intro t member uses
      cases t with
      | mqtt point => exact mqtt_holds point
      | tls point => exact (noTls point member).elim
      | sending point =>
        have publishing : point = .publish := of_decide_eq_true uses
        subst publishing
        exact (mqtt (links.mqtt _ member rfl)).elim
      | _ => cases uses
  · apply links.count_le .tls
    intro t member uses
    cases t with
    | tls point => rfl
    | mqtt point =>
      have connecting : point = .connect := of_decide_eq_true uses
      subst connecting
      exact (tls (links.tls _ member rfl)).elim
    | sending point =>
      have publishing : point = .publish := of_decide_eq_true uses
      subst publishing
      exact (tls (links.tls _ member rfl)).elim
    | _ => cases uses

theorem Exclusive.discipline (safe : Exclusive c) : TlsDiscipline c where
  oneTlsTask := safe.links.count_le .tls fun t _ own => by
    cases t <;> first | rfl | cases own
  oneMqttTask := safe.links.count_le .mqtt fun t _ own => by
    cases t <;> first | exact mqtt_holds _ | cases own
  oneUser := safe.links.one_user
  connectedInUse running := by
    apply safe.connected
    rcases running with member | member
    · exact safe.links.tls _ member rfl
    · exact safe.links.tls _ member rfl
  liveAtDisconnect member := safe.ready _ member
  destroyedOnce := safe.once

end

/-- In every run from power-on, whatever the services return, the TLS handle has one
user at a time and is open whenever it is used. -/
theorem tls_handle_discipline (mac : Vector UInt8 6) (nvs : DurableMap RuntimeKey Str) (c : Config)
    (run : Reaches TaskPool.Policy.free (boot mac nvs) c) : TlsDiscipline c :=
  (exclusive_run run).discipline

def reconnected : List (Nat × Outcome) :=
  allStarted ++ credentialsRead ++
    [(3,.go),(3,.go),(3,.go),(3,.ok),(3,.go),(3,.ok),(3,.go),(2,.go),(2,.status .success),(2,.go),
      (0,.go),(0,.go),(0,.status .sendFailed),(0,.go),(0,.go),
      (1,.go),(1,.go),(1,.go),(1,.go),(1,.ok),(1,.ok),
      (3,.go),(3,.go),(3,.ok),(3,.go),(3,.ok),(3,.go),(3,.ok),(3,.go),
      (2,.go),(2,.status .success),(2,.go),(0,.go),(0,.go)]

set_option maxRecDepth 4000 in
theorem tls_handle_discipline_reconnected :
    ∃ c, Reaches TaskPool.Policy.free (boot someMac provisioned) c ∧
      (.sending .publish ∈ c.tasks ∧ c.shared.tlsHandles.length = 2) ∧ TlsDiscipline c := by
  obtain ⟨c,run,test⟩ := TaskPool.play_free machine (boot someMac provisioned) reconnected
    (fun c => .sending .publish ∈ c.tasks ∧ c.shared.tlsHandles.length = 2) (by decide)
  exact ⟨c,run,of_decide_eq_true test,tls_handle_discipline someMac provisioned c run⟩

end QuickConnect.Firmware
