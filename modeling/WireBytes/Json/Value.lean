/-!
# JSON values

A `Value` keeps what a JSON text says: the members of an object in order and with repetitions, the
digits of a number, and a text as its 16-bit code units. An escape may name half of a surrogate
pair, so not every sequence of code units is a text of characters; `Units.wellPaired` says which are.
-/

namespace WireBytes.Json

/-- A text as 16-bit code units. -/
abbrev Units := List UInt16

namespace Units

/-- The code units of a character: one, or a surrogate pair. -/
def ofChar (c : Char) : Units :=
  let n := c.toNat
  if n < 0x10000 then [n.toUInt16]
  else [(0xd800 + (n - 0x10000) / 0x400).toUInt16, (0xdc00 + (n - 0x10000) % 0x400).toUInt16]

/-- The code units of a text. -/
def ofString (s : String) : Units :=
  s.toList.flatMap ofChar

/-- Whether a unit is the first half of a pair. -/
def isHigh (u : UInt16) : Bool :=
  0xd800 ≤ u && u < 0xdc00

/-- Whether a unit is the second half of a pair. -/
def isLow (u : UInt16) : Bool :=
  0xdc00 ≤ u && u < 0xe000

/-- Whether every half of a surrogate pair stands beside its other half. -/
def wellPaired : Units → Bool
  | [] => true
  | [u] => !isHigh u && !isLow u
  | u :: v :: rest =>
    if isHigh u then isLow v && wellPaired rest else !isLow u && wellPaired (v :: rest)

end Units

/-- A number as it is written: a sign, the whole part, and where there are, the digits after the
    point and the power of ten. -/
structure Number where
  negative : Bool
  whole : Nat
  fraction : List (Fin 10)
  exponent : Option Int
  deriving DecidableEq, Repr

namespace Number

/-- The number written as a natural number. -/
def ofNat (n : Nat) : Number :=
  ⟨false, n, [], none⟩

/-- The value of a number that is written with digits alone. -/
def toNat? (n : Number) : Option Nat :=
  if n = ofNat n.whole then some n.whole else none

@[simp] theorem toNat?_ofNat (n : Nat) : (ofNat n).toNat? = some n :=
  if_pos rfl

end Number

/-- A JSON value. -/
inductive Value where
  | null
  | bool (b : Bool)
  | number (n : Number)
  | string (s : Units)
  | array (elements : List Value)
  | object (members : List (Units × Value))
  deriving Inhabited, Repr

namespace Value

/-- A natural number as a value. -/
def nat (n : Nat) : Value :=
  number (.ofNat n)

/-- The natural number below `bound` that a value is, if it is written with digits alone. -/
def natBelow? (bound : Nat) : Value → Option Nat
  | number n => n.toNat?.filter (· < bound)
  | _ => none

/-- The truth value that a value is. -/
def bool? : Value → Option Bool
  | bool b => some b
  | _ => none

end Value

end WireBytes.Json
