import Mathlib.Logic.Function.Basic

/-! Durable maps: what a key-value store in non-volatile memory is for.
A read answers the value stored or nothing; a write either stores the value for
good or changes nothing and says so. Both may fail at any time. -/
namespace QuickConnect

abbrev DurableMap (κ ν : Type) := κ → Option ν

namespace DurableMap
variable {κ ν : Type}

/-- A failed read and a read of an absent key give the same answer. -/
def read (works : Bool) (m : DurableMap κ ν) (k : κ) : Option ν := if works then m k else none

@[simp] theorem read_true (m : DurableMap κ ν) (k : κ) : read true m k = m k := rfl

@[simp] theorem read_false (m : DurableMap κ ν) (k : κ) : read false m k = none := rfl

theorem read_sound {works : Bool} {m : DurableMap κ ν} {k : κ} {v : ν}
    (answered : read works m k = some v) : m k = some v := by
  cases works with
  | false => cases answered
  | true => exact answered

variable [DecidableEq κ]

/-- The map after the write, and whether the write reports success. -/
def write (works : Bool) (m : DurableMap κ ν) (k : κ) (v : Option ν) : DurableMap κ ν × Bool :=
  match v, works with
  | some v, true => (Function.update m k (some v),true)
  | _, _ => (m,false)

@[simp] theorem write_some (m : DurableMap κ ν) (k : κ) (v : ν) :
    write true m k (some v) = (Function.update m k (some v),true) := rfl

@[simp] theorem write_none (works : Bool) (m : DurableMap κ ν) (k : κ) :
    write works m k none = (m,false) := by
  cases works <;> rfl

@[simp] theorem write_false (m : DurableMap κ ν) (k : κ) (v : Option ν) :
    write false m k v = (m,false) := by
  cases v <;> rfl

/-- A write that reports failure changes nothing. -/
theorem write_failed {works : Bool} {m left : DurableMap κ ν} {k : κ} {v : Option ν}
    (failed : write works m k v = (left,false)) : left = m := by
  cases v <;> cases works <;> simp [write] at failed <;> exact failed.symm

/-- A write leaves every other key as it was. -/
theorem write_other {works : Bool} {m : DurableMap κ ν} {k other : κ} {v : Option ν}
    (different : other ≠ k) : (write works m k v).1 other = m other := by
  cases v <;> cases works <;> simp [write,Function.update_of_ne different]

end DurableMap
end QuickConnect
