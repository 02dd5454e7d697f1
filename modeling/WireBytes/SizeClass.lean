import WireBytes.Bytes
import WireBytes.Word

/-!
# Size classes

A pool hands out buffers of few sizes only: the powers of two between two bounds. `ClassRange`
holds the two exponents.

* `ClassRange.ofBounds?` rounds the lower bound up and the upper bound down;
* `ClassRange.toList` is the list of the classes, smallest first, which says what the others mean;
* `ClassRange.fit` finds the class that serves a size, `ClassRange.idxOf?` the place of a class.

The operations are checked step by step. On a range that `ofBounds?` built none of the checks fails.
-/

namespace WireBytes

/-- The size classes `2 ^ minExp` to `2 ^ maxExp`. -/
structure ClassRange where
  minExp : Nat
  maxExp : Nat
  deriving DecidableEq, Repr

namespace ClassRange

/-- The powers of two between two bounds: the lower one is rounded up, the upper one down. There
    is no range if the upper bound is zero, or below the lower one after rounding. -/
def ofBounds? (lower upper : UInt64) : Option ClassRange :=
  let ceiling := Word.roundDown upper.toNat
  match Word.roundUp? (max lower.toNat 1) with
  | none => none
  | some floor =>
    if ceiling = 0 ∨ ceiling < floor then none else some ⟨floor.log2, ceiling.log2⟩

/-- The smallest class. -/
def smallest (r : ClassRange) : Checked Nat :=
  Word.shiftOne r.minExp

/-- The largest class. -/
def largest (r : ClassRange) : Checked Nat :=
  Word.shiftOne r.maxExp

/-- The number of classes. -/
def count (r : ClassRange) : Checked Nat := do
  return (← Word.sub r.maxExp r.minExp) + 1

/-- The exponents of the classes, smallest first. -/
def exponents (r : ClassRange) : List Nat :=
  List.range' r.minExp (r.maxExp + 1 - r.minExp)

/-- The classes, smallest first. -/
def toList (r : ClassRange) : List Nat :=
  r.exponents.map (1 <<< ·)

/-- The index and the size of the smallest class that holds `size` bytes, or of the largest class if
    none does. -/
def fit (r : ClassRange) (size : Nat) : Checked (Nat × Nat) := do
  let top ← r.largest
  let cls ← if top ≤ size then pure top else Word.roundUp (max size (← r.smallest))
  return (← Word.sub cls.log2 r.minExp, cls)

/-- The index of a capacity that is exactly one of the classes. -/
def idxOf? (r : ClassRange) (capacity : Nat) : Checked (Option Nat) :=
  if Word.isPowerOfTwo capacity ∧ r.minExp ≤ capacity.log2 ∧ capacity.log2 ≤ r.maxExp then do
    return some (← Word.sub capacity.log2 r.minExp)
  else
    return none

/-- A range with its two exponents. -/
def describe (r : ClassRange) : String :=
  Text.record "Classes"
    [("min_shift", toString r.minExp), ("max_shift", toString r.maxExp)]

end ClassRange

end WireBytes
