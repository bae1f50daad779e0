import Mathlib.Data.List.Basic
import Mathlib.Data.Fin.Basic
import Mathlib.Data.Int.Notation
import Mathlib.Algebra.GroupWithZero.Nat

/-!
# Records of the firmware

The records of `hue.h` and `entertainment.h` with the fields the modelled
functions read. Fixed-width fields keep their width; `int` and `int16_t`
fields are integers. A global starts zero-initialised. An index outside an
array ends the run in a fault that names the array and the index; a loop that
never ends is a fault too.
-/

set_option autoImplicit false

namespace THue.Globals

instance twenty_neZero : NeZero (20:ℕ) := ⟨Nat.succ_ne_zero 19⟩

instance thirty_neZero : NeZero (30:ℕ) := ⟨Nat.succ_ne_zero 29⟩

instance fifty_neZero : NeZero (50:ℕ) := ⟨Nat.succ_ne_zero 49⟩

inductive ArrayName where
  | buttons
  | pagePath
  | rooms
  | lights
  | lightIds
  | roomLightIds
  | entertainmentLights
  | behaviors
  | behaviorLightIds
  | entries
  | entertainmentMsg
  deriving DecidableEq, Repr

inductive Fault where
  | outside (array : ArrayName) (index : ℤ)
  | diverges
  deriving DecidableEq, Repr

structure Light where
  id : UInt8 := 0
  name : String := ""
  on : Bool := false
  brightness : ℤ := 0
  hue : UInt8 := 0
  sat : UInt8 := 0
  ct : UInt8 := 0
  onlyDimmable : Bool := false
  deriving DecidableEq, Repr

structure Room where
  id : UInt8 := 0
  name : String := ""
  on : Bool := false
  bri : ℤ := 0
  lightIds : Fin 20 → UInt8 := fun _ => 0
  lightCounter : UInt8 := 0

structure RGBCommand where
  r : UInt8 := 0
  g : UInt8 := 0
  b : UInt8 := 0
  deriving DecidableEq, Repr

structure Behavior where
  name : String := ""
  lightIds : Fin 20 → UInt8 := fun _ => 0
  lightCounter : UInt8 := 0
  activated : Bool := false
  behaviorId : UInt8 := 0
  entries : Fin 500 → RGBCommand := fun _ => {}
  entriesCount : UInt8 := 0
  delay : ℤ := 0

def timeBehavior : UInt8 := 1
def repeatedBehavior : UInt8 := 2
def transitionBehavior : UInt8 := 3

/-- The lights a behavior drives: `lightIds[0..lightCounter)`. -/
def Behavior.selection (b : Behavior) : List UInt8 :=
  (List.ofFn b.lightIds).take b.lightCounter.toNat

end THue.Globals
