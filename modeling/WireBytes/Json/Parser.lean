import WireBytes.Json.Value

/-!
# Reading JSON

`parse` reads a text that is one JSON value and nothing else but blanks. The grammar is strict: no
comments, no comma before a closing bracket, no leading zeros, no control characters between quotes.
Each part of the reader returns what it read and the rest of the text.
-/

namespace WireBytes.Json

/-- Whether a character may stand between the parts of a value. -/
def isBlank (c : Char) : Bool :=
  c = ' ' || c = '\t' || c = '\n' || c = '\r'

/-- The text from its first character that is not blank. -/
def skipBlanks (s : List Char) : List Char :=
  s.dropWhile isBlank

/-! ### Texts -/

/-- The value of a hexadecimal digit of either case. -/
def hexDigit? (c : Char) : Option Nat :=
  if '0' ≤ c ∧ c ≤ '9' then some (c.toNat - 48)
  else if 'a' ≤ c ∧ c ≤ 'f' then some (c.toNat - 87)
  else if 'A' ≤ c ∧ c ≤ 'F' then some (c.toNat - 55)
  else none

/-- The code unit that four hexadecimal digits name. -/
def hexUnit? (a b c d : Char) : Option UInt16 := do
  let n := 4096 * (← hexDigit? a) + 256 * (← hexDigit? b) + 16 * (← hexDigit? c) + (← hexDigit? d)
  return n.toUInt16

/-- The code unit that a character after a backslash names. -/
def escape? : Char → Option UInt16
  | '"' => some 0x22
  | '\\' => some 0x5c
  | '/' => some 0x2f
  | 'b' => some 0x08
  | 'f' => some 0x0c
  | 'n' => some 0x0a
  | 'r' => some 0x0d
  | 't' => some 0x09
  | _ => none

/-- Reads a text behind its opening quote. -/
def string : List Char → Option (Units × List Char)
  | '"' :: rest => some ([], rest)
  | '\\' :: 'u' :: a :: b :: c :: d :: rest => do
    let u ← hexUnit? a b c d
    let (us, rest) ← string rest
    return (u :: us, rest)
  | '\\' :: e :: rest => do
    let u ← escape? e
    let (us, rest) ← string rest
    return (u :: us, rest)
  | c :: rest => do
    guard (' ' ≤ c)
    let (us, rest) ← string rest
    return (Units.ofChar c ++ us, rest)
  | [] => none

/-! ### Numbers -/

/-- Reads one or more digits. -/
def digits (s : List Char) : Option (List Char × List Char) :=
  match s.takeWhile Char.isDigit with
  | [] => none
  | ds => some (ds, s.dropWhile Char.isDigit)

/-- The value of digits. -/
def digitsValue (ds : List Char) : Nat :=
  Nat.ofDigitChars 10 ds 0

/-- Reads the whole part of a number. A zero in front is the whole part. -/
def whole : List Char → Option (Nat × List Char)
  | '0' :: rest => some (0, rest)
  | s => do
    let (ds, rest) ← digits s
    return (digitsValue ds, rest)

/-- Reads the digits after a point, if there is a point. -/
def fraction : List Char → Option (List (Fin 10) × List Char)
  | '.' :: rest => do
    let (ds, rest) ← digits rest
    return (ds.map fun c => Fin.ofNat 10 (c.toNat - 48), rest)
  | s => some ([], s)

/-- Reads an optional sign and digits. -/
def signed : List Char → Option (Int × List Char)
  | '-' :: rest => do
    let (ds, rest) ← digits rest
    return (-(digitsValue ds : Int), rest)
  | '+' :: rest => do
    let (ds, rest) ← digits rest
    return ((digitsValue ds : Int), rest)
  | s => do
    let (ds, rest) ← digits s
    return ((digitsValue ds : Int), rest)

/-- Reads the power of ten, if its mark is there. -/
def exponent : List Char → Option (Option Int × List Char)
  | c :: rest =>
    if c = 'e' ∨ c = 'E' then do
      let (n, rest) ← signed rest
      return (some n, rest)
    else some (none, c :: rest)
  | [] => some (none, [])

/-- Reads a number without its sign. -/
def unsigned (negative : Bool) (s : List Char) : Option (Number × List Char) := do
  let (w, s) ← whole s
  let (f, s) ← fraction s
  let (e, s) ← exponent s
  return (⟨negative, w, f, e⟩, s)

/-- Reads a number. -/
def number : List Char → Option (Number × List Char)
  | '-' :: rest => unsigned true rest
  | s => unsigned false s

/-! ### Values -/

/-- The rest of a text behind a word. -/
def word? : List Char → List Char → Option (List Char)
  | [], s => some s
  | c :: cs, d :: s => if c = d then word? cs s else none
  | _ :: _, [] => none

/-- Reads a value that is not an array or an object. -/
def scalar : List Char → Option (Value × List Char)
  | '"' :: rest => (string rest).map fun (us, rest) => (.string us, rest)
  | s =>
    match word? "null".toList s, word? "true".toList s, word? "false".toList s with
    | some rest, _, _ => some (.null, rest)
    | _, some rest, _ => some (.bool true, rest)
    | _, _, some rest => some (.bool false, rest)
    | _, _, _ => (number s).map fun (n, rest) => (.number n, rest)

/-- Reads the key of a member with its colon. -/
def key (s : List Char) : Option (Units × List Char) :=
  match skipBlanks s with
  | '"' :: rest => do
    let (us, rest) ← string rest
    match skipBlanks rest with
    | ':' :: rest => return (us, rest)
    | _ => none
  | _ => none

mutual

/-- Reads a value, with at most `fuel` steps in and along the nesting. -/
def value (fuel : Nat) (s : List Char) : Option (Value × List Char) :=
  match fuel with
  | 0 => none
  | fuel + 1 =>
    match skipBlanks s with
    | '[' :: rest =>
      match skipBlanks rest with
      | ']' :: rest => some (.array [], rest)
      | _ => (elements fuel rest).map fun (vs, rest) => (.array vs, rest)
    | '\x7b' :: rest =>
      match skipBlanks rest with
      | '\x7d' :: rest => some (.object [], rest)
      | _ => (members fuel rest).map fun (ms, rest) => (.object ms, rest)
    | s => scalar s

/-- Reads one or more elements and the closing bracket. -/
def elements (fuel : Nat) (s : List Char) : Option (List Value × List Char) :=
  match fuel with
  | 0 => none
  | fuel + 1 => do
    let (v, s) ← value fuel s
    match skipBlanks s with
    | ',' :: rest =>
      let (vs, rest) ← elements fuel rest
      return (v :: vs, rest)
    | ']' :: rest => return ([v], rest)
    | _ => none

/-- Reads one or more members and the closing brace. -/
def members (fuel : Nat) (s : List Char) : Option (List (Units × Value) × List Char) :=
  match fuel with
  | 0 => none
  | fuel + 1 => do
    let (k, s) ← key s
    let (v, s) ← value fuel s
    match skipBlanks s with
    | ',' :: rest =>
      let (ms, rest) ← members fuel rest
      return ((k, v) :: ms, rest)
    | '\x7d' :: rest => return ([(k, v)], rest)
    | _ => none

end

/-- Reads a text that is one value. Two steps for each character are enough: each bracket takes two,
    and each comma one. -/
def parse (text : String) : Option Value := do
  let s := text.toList
  let (v, rest) ← value (2 * s.length + 2) s
  guard (skipBlanks rest).isEmpty
  return v

end WireBytes.Json
