/-!
# Checked arithmetic on machine words

Sizes are natural numbers, but the arithmetic on them has to fit 64-bit words. A step that would
leave the word is a `Fault`, a value of its own and never a wrong number:

* `Word.shiftOne`, `Word.add`, `Word.sub` and `Word.fetch` are the steps that can fault;
* `Word.roundDown` rounds a word down and `Word.roundUp?` rounds it up, the latter
  only if the result is still a word.
-/

namespace WireBytes

/-- Why a step of machine arithmetic has no result. -/
inductive Fault where
  /-- A shift by the width of the word or more. -/
  | shift
  /-- A sum that does not fit the word. -/
  | add
  /-- A difference below zero. -/
  | sub
  /-- An index at or past the end. -/
  | index
  deriving DecidableEq, Repr

/-- The text of a fault. -/
def Fault.message : Fault → String
  | shift => "attempt to shift left with overflow"
  | add => "attempt to add with overflow"
  | sub => "attempt to subtract with overflow"
  | index => "index out of bounds"

/-- A result of checked arithmetic. -/
abbrev Checked := Except Fault

namespace Word

/-- The number of bits in a word. -/
def width : Nat := 64

/-- One shifted left by `k` places, which have to be fewer than the word is wide. -/
def shiftOne (k : Nat) : Checked Nat :=
  if k < width then .ok (1 <<< k) else .error .shift

/-- The sum of two words, if it is a word. -/
def add (a b : Nat) : Checked Nat :=
  if a + b < UInt64.size then .ok (a + b) else .error .add

/-- The difference of two words, if it is not negative. -/
def sub (a b : Nat) : Checked Nat :=
  if b ≤ a then .ok (a - b) else .error .sub

/-- The element at index `i`, if there is one. -/
def fetch {α : Type} (xs : List α) (i : Nat) : Checked α :=
  match xs[i]? with
  | some x => .ok x
  | none => .error .index

/-! ### Powers of two -/

/-- Whether `n` is a power of two. -/
def isPowerOfTwo (n : Nat) : Bool :=
  n != 0 && 1 <<< n.log2 == n

/-- The largest power of two that is at most `n`, and zero for zero. -/
def roundDown (n : Nat) : Nat :=
  if n = 0 then 0 else 1 <<< n.log2

/-- The exponent of the smallest power of two that is at least `n`. -/
def ceilExponent (n : Nat) : Nat :=
  if n ≤ 1 then 0 else (n - 1).log2 + 1

/-- The smallest power of two that is at least `n`, if it is a word. -/
def roundUp? (n : Nat) : Option Nat :=
  if ceilExponent n < width then some (1 <<< ceilExponent n) else none

/-- The smallest power of two that is at least `n`; a fault if it is no word. -/
def roundUp (n : Nat) : Checked Nat :=
  match roundUp? n with
  | some p => .ok p
  | none => .error .add

end Word

end WireBytes
