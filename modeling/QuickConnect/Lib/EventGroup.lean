import Mathlib.Algebra.BigOperators.Group.Finset.Piecewise
import Mathlib.Data.Finset.Card
import Mathlib.Data.Finset.SDiff

/-! Event groups: a set of pending bits that tasks set, clear and wait for.
A wait returns the bits as they stood when it was satisfied and may consume the
bits it waited for in the same atomic step. -/
namespace QuickConnect.EventGroup
variable {β : Type} [DecidableEq β]

def setBits (group mask : Finset β) : Finset β := group ∪ mask

def clearBits (group mask : Finset β) : Finset β := group \ mask

def Ready (waitForAll : Bool) (group mask : Finset β) : Prop :=
  if waitForAll then mask ⊆ group else (group ∩ mask).Nonempty

instance (waitForAll : Bool) (group mask : Finset β) : Decidable (Ready waitForAll group mask) := by
  unfold Ready
  infer_instance

/-- The bits returned and the group left behind; `none` while the wait blocks. -/
def waitBits (group mask : Finset β) (clearOnExit waitForAll : Bool) :
    Option (Finset β × Finset β) :=
  if Ready waitForAll group mask then
    some (group,if clearOnExit then clearBits group mask else group)
  else none

theorem waitBits_some {group mask bits left : Finset β} {clearOnExit waitForAll : Bool}
    (satisfied : waitBits group mask clearOnExit waitForAll = some (bits,left)) :
    Ready waitForAll group mask ∧ bits = group ∧
      left = if clearOnExit then clearBits group mask else group := by
  unfold waitBits at satisfied
  split at satisfied
  · rename_i ready
    cases satisfied
    exact ⟨ready,rfl,rfl⟩
  · cases satisfied

@[simp] theorem mem_setBits {group mask : Finset β} {b : β} :
    b ∈ setBits group mask ↔ b ∈ group ∨ b ∈ mask := Finset.mem_union

@[simp] theorem mem_clearBits {group mask : Finset β} {b : β} :
    b ∈ clearBits group mask ↔ b ∈ group ∧ b ∉ mask := Finset.mem_sdiff

def held (watched group : Finset β) : Nat := (group ∩ watched).card

theorem held_pos_iff {watched group : Finset β} :
    0 < held watched group ↔ ∃ b ∈ watched, b ∈ group := by
  simp only [held,Finset.card_pos,Finset.Nonempty,Finset.mem_inter]
  exact ⟨fun ⟨b,pending,member⟩ => ⟨b,member,pending⟩,fun ⟨b,member,pending⟩ => ⟨b,pending,member⟩⟩

theorem held_setBits_le (watched group mask : Finset β) :
    held watched (setBits group mask) ≤ held watched group + (mask ∩ watched).card := by
  unfold held setBits
  rw [Finset.union_inter_distrib_right]
  exact Finset.card_union_le _ _

theorem held_le_setBits (watched group mask : Finset β) :
    held watched group ≤ held watched (setBits group mask) := by
  apply Finset.card_le_card
  apply Finset.inter_subset_inter_right
  exact Finset.subset_union_left

theorem card_le_held_setBits (watched group mask : Finset β) :
    (mask ∩ watched).card ≤ held watched (setBits group mask) := by
  apply Finset.card_le_card
  apply Finset.inter_subset_inter_right
  exact Finset.subset_union_right

theorem held_clearBits_add (watched group mask : Finset β) :
    held watched (clearBits group mask) + (group ∩ (watched ∩ mask)).card = held watched group := by
  unfold held clearBits
  have disjoint : Disjoint (group \ mask ∩ watched) (group ∩ (watched ∩ mask)) := by
    rw [Finset.disjoint_left]
    intro b left right
    simp only [Finset.mem_inter,Finset.mem_sdiff] at left right
    exact left.1.2 right.2.2
  rw [← Finset.card_union_of_disjoint disjoint]
  congr 1
  ext b
  simp only [Finset.mem_union,Finset.mem_inter,Finset.mem_sdiff]
  tauto

/-- What pending bits weigh when some are cleared and then some are set. -/
theorem sum_setBits_clearBits (f : β → Nat) (group cleared set : Finset β) :
    (setBits (clearBits group cleared) set).sum f + (group ∩ cleared).sum f ≤
      group.sum f + set.sum f := by
  unfold setBits clearBits
  have whole : (group ∩ cleared).sum f + (group \ cleared).sum f = group.sum f :=
    Finset.sum_inter_add_sum_sdiff group cleared f
  have united : (group \ cleared ∪ set).sum f + (group \ cleared ∩ set).sum f =
      (group \ cleared).sum f + set.sum f := Finset.sum_union_inter
  omega

section Histories

/-- The latest of some watched bits in a history of set bits, latest first. -/
def latest (watched : Finset β) (history : List β) : Option β :=
  history.find? fun b => decide (b ∈ watched)

theorem latest_cons_mem {watched : Finset β} {b : β} (history : List β) (member : b ∈ watched) :
    latest watched (b :: history) = some b := by
  simp [latest,member]

theorem latest_cons_other {watched : Finset β} {b : β} (history : List β) (other : b ∉ watched) :
    latest watched (b :: history) = latest watched history := by
  simp [latest,other]

/-- Where some watched bit is pending, the one set latest is. -/
def Fresh (watched group : Finset β) (history : List β) : Prop :=
  (group ∩ watched).Nonempty → ∃ b ∈ group, latest watched history = some b

theorem Fresh.set {watched group : Finset β} {history : List β} (fresh : Fresh watched group history)
    (b : β) : Fresh watched (setBits group {b}) (b :: history) := by
  rintro ⟨pending,member⟩
  by_cases own : b ∈ watched
  · exact ⟨b,by simp,latest_cons_mem history own⟩
  · rw [Finset.mem_inter,mem_setBits,Finset.mem_singleton] at member
    obtain ⟨inside | rfl,observed⟩ := member
    · obtain ⟨newest,present,same⟩ := fresh ⟨pending,Finset.mem_inter.mpr ⟨inside,observed⟩⟩
      exact ⟨newest,by simp [present],(latest_cons_other history own).trans same⟩
    · exact absurd observed own

theorem Fresh.clear {watched group mask : Finset β} {history : List β}
    (fresh : Fresh watched group history) (whole : watched ⊆ mask ∨ Disjoint watched mask) :
    Fresh watched (clearBits group mask) history := by
  rintro ⟨pending,member⟩
  rw [Finset.mem_inter,mem_clearBits] at member
  obtain ⟨⟨inside,kept⟩,observed⟩ := member
  rcases whole with covered | disjoint
  · exact absurd (covered observed) kept
  · obtain ⟨newest,present,same⟩ := fresh ⟨pending,Finset.mem_inter.mpr ⟨inside,observed⟩⟩
    have own : newest ∈ watched := by
      have found := List.find?_some same
      simpa using found
    refine ⟨newest,mem_clearBits.mpr ⟨present,?_⟩,same⟩
    exact Finset.disjoint_left.mp disjoint own

end Histories

end QuickConnect.EventGroup
