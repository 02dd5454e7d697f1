import WireBytes.Json.Value

/-!
# Writing JSON

`Value.render` writes a value without blanks. Code units outside printable ASCII are escaped, so
every value has a text.
-/

namespace WireBytes.Json

/-- The four hexadecimal digits of a code unit. -/
def hexUnit (u : UInt16) : List Char :=
  [Nat.digitChar (u.toNat / 4096), Nat.digitChar (u.toNat / 256 % 16),
    Nat.digitChar (u.toNat / 16 % 16), Nat.digitChar (u.toNat % 16)]

/-- Whether a code unit stands for itself between quotes. -/
def isPlain (u : UInt16) : Bool :=
  0x20 ≤ u && u < 0x7f && u != 0x22 && u != 0x5c

/-- A code unit between quotes. -/
def renderUnit (u : UInt16) : List Char :=
  if isPlain u then [Char.ofNat u.toNat] else '\\' :: 'u' :: hexUnit u

/-- A text between quotes. -/
def renderString (s : Units) : List Char :=
  '"' :: (s.flatMap renderUnit ++ ['"'])

namespace Number

/-- The digits after the point, with the point. -/
def renderFraction : List (Fin 10) → List Char
  | [] => []
  | digits => '.' :: digits.map fun d => Nat.digitChar d.val

/-- The power of ten, with its mark. -/
def renderExponent : Option Int → List Char
  | none => []
  | some (.ofNat n) => 'e' :: Nat.toDigits 10 n
  | some (.negSucc n) => 'e' :: '-' :: Nat.toDigits 10 (n + 1)

/-- A number as text. -/
def render (n : Number) : List Char :=
  (if n.negative then ['-'] else []) ++ Nat.toDigits 10 n.whole ++ renderFraction n.fraction ++
    renderExponent n.exponent

end Number

namespace Value

mutual

/-- A value as text. -/
def render : Value → List Char
  | null => "null".toList
  | bool true => "true".toList
  | bool false => "false".toList
  | number n => n.render
  | string s => renderString s
  | array [] => ['[', ']']
  | array (v :: vs) => '[' :: (render v ++ renderElements vs)
  | object [] => ['\x7b', '\x7d']
  | object ((k, v) :: ms) => '\x7b' :: (renderString k ++ ':' :: (render v ++ renderMembers ms))

/-- The elements after the first one, and the closing bracket. -/
def renderElements : List Value → List Char
  | [] => [']']
  | v :: vs => ',' :: (render v ++ renderElements vs)

/-- The members after the first one, and the closing brace. -/
def renderMembers : List (Units × Value) → List Char
  | [] => ['\x7d']
  | (k, v) :: ms => ',' :: (renderString k ++ ':' :: (render v ++ renderMembers ms))

end

end Value

end WireBytes.Json
