import WireBytes.Text.Characters

/-!
# Bytes and texts

All content is a list of bytes. What the library shows of it, and of its own values, is text.

* `Bytes.totalLength` counts the bytes of several pieces, `Bytes.utf8` gives the bytes of a text;
* `Text.quote` shows a text between quotes so that every character can be told apart: visible
  characters stand as they are, the others as a short escape or by their code point;
* `Text.quoteBytes` shows a byte string in the same way: printable ASCII stands as it is, the other
  bytes as a short escape or by two hexadecimal digits;
* `Text.record`, `Text.case`, `Text.list` and `Text.option` lay descriptions out.
-/

namespace WireBytes

/-! ### Byte sequences -/

/-- A sequence of bytes. -/
abbrev Bytes := List UInt8

namespace Bytes

/-- The number of bytes in a list of pieces. -/
def totalLength : List Bytes → Nat
  | [] => 0
  | piece :: pieces => piece.length + totalLength pieces

/-- The bytes that encode a text. -/
def utf8 (s : String) : Bytes :=
  s.toUTF8.toList

/-- The count over the pieces is the number of bytes in all of them joined. -/
theorem totalLength_eq_length_flatten (pieces : List Bytes) :
    totalLength pieces = pieces.flatten.length := by
  induction pieces with
  | nil => rfl
  | cons piece pieces ih => simp [totalLength, ih]

end Bytes

namespace Text

/-! ### Quoted texts and byte strings -/

/-- The two lower-case hexadecimal digits of a byte. -/
def hexByte (b : UInt8) : List Char :=
  [Nat.digitChar (b.toNat / 16), Nat.digitChar (b.toNat % 16)]

/-- The escapes with a letter of their own, and those of the quote and the backslash. -/
def shortEscape? : Nat → Option Char
  | 0 => some '0'
  | 9 => some 't'
  | 10 => some 'n'
  | 13 => some 'r'
  | 34 => some '"'
  | 92 => some '\\'
  | _ => none

/-- A character as it is shown inside quotes. -/
def quoteChar (c : Char) : List Char :=
  match shortEscape? c.toNat with
  | some e => ['\\', e]
  | none =>
    if isCombining c || isInvisible c || isUnassigned c then
      ['\\', 'u', '\x7b'] ++ Nat.toDigits 16 c.toNat ++ ['\x7d']
    else [c]

/-- A text between quotes. -/
def quote (s : String) : String :=
  String.ofList (['"'] ++ s.toList.flatMap quoteChar ++ ['"'])

/-- A byte as it is shown inside quotes. -/
def quoteByte (b : UInt8) : List Char :=
  match shortEscape? b.toNat with
  | some e => ['\\', e]
  | none => if 0x20 ≤ b && b < 0x7f then [Char.ofNat b.toNat] else ['\\', 'x'] ++ hexByte b

/-- A byte string between quotes, marked by a `b` in front. -/
def quoteBytes (bs : Bytes) : String :=
  String.ofList (['b', '"'] ++ bs.flatMap quoteByte ++ ['"'])

/-! ### One-line descriptions of values

A record is its name with its fields in braces, a case is its name with its content in parentheses,
a list stands in brackets, and an optional value is `None` or `Some`.
-/

/-- A name with the fields of a record, in order. -/
def record (name : String) (fields : List (String × String)) : String :=
  name ++ " \x7b " ++ String.intercalate ", " (fields.map fun (f, v) => f ++ ": " ++ v) ++ " \x7d"

/-- A name with the content of a case. -/
def case (name content : String) : String :=
  name ++ "(" ++ content ++ ")"

/-- The members of a list. -/
def list (members : List String) : String :=
  "[" ++ String.intercalate ", " members ++ "]"

/-- A value that may be absent. -/
def option : Option String → String
  | none => "None"
  | some v => case "Some" v

/-- A truth value. -/
def bool (b : Bool) : String :=
  if b then "true" else "false"

end Text

end WireBytes
