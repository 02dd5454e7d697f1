import WireBytes.Cursor
import WireBytes.Fragments
import WireBytes.Readable

/-!
# Readers

The readers of the library, which can be put together: bytes in memory, fragments, cursors, scripts
of what each read does, one reader after another, and a reader inside a layer of its own.

`Reader.read` is a single read. With `Reader.weight`, which every read that delivers something makes
smaller, a `Reader` is `Readable`, and all the loops work on it; `Fragments` alone are too. A
`Cursor` alone has ways of its own to read more than once, and `Cursor.perform` takes those.
-/

namespace WireBytes

/-- What a scripted reader does next. -/
inductive ScriptStep where
  /-- Delivers these bytes, by several reads if need be. None are an end of input for one read. -/
  | data (bs : Bytes)
  | fail (e : IoError)
  deriving DecidableEq, Repr

namespace ScriptStep

/-- A bound on the reads that a script can serve. -/
def weight : List ScriptStep → Nat
  | [] => 0
  | data bs :: steps => bs.length + 1 + weight steps
  | fail _ :: steps => 1 + weight steps

/-- Reads up to `n` bytes of a script. A step is over when it was read to its end or has failed. -/
def read : List ScriptStep → Nat → Except IoError Bytes × List ScriptStep
  | [], _ => (.ok [], [])
  | fail e :: steps, _ => (.error e, steps)
  | data bs :: steps, n =>
    (.ok (bs.take n), if (bs.drop n).isEmpty then steps else data (bs.drop n) :: steps)

end ScriptStep

/-- What can be read. -/
inductive Reader where
  /-- Bytes in memory. -/
  | memory (bs : Bytes)
  | fragments (f : Fragments)
  | cursor (c : Cursor)
  | script (steps : List ScriptStep)
  /-- One reader up to its first end of input, and then another; `done` once the first has ended. -/
  | chain (first second : Reader) (done : Bool)
  /-- A reader that passes all reads on. -/
  | layer (inner : Reader)
  deriving DecidableEq, Repr

namespace Reader

/-- Reads up to `n` bytes. -/
def read : Reader → Nat → Except IoError Bytes × Reader
  | memory bs, n => (.ok (bs.take n), memory (bs.drop n))
  | fragments f, n => (.ok (f.read n).1, fragments (f.read n).2)
  | cursor c, n => (.ok (c.read n).1, cursor (c.read n).2)
  | script steps, n => ((ScriptStep.read steps n).1, script (ScriptStep.read steps n).2)
  | chain first second true, n => ((second.read n).1, chain first (second.read n).2 true)
  | chain first second false, n =>
    match first.read n with
    | (.ok [], first) =>
      if n = 0 then (.ok [], chain first second false)
      else ((second.read n).1, chain first (second.read n).2 true)
    | (answer, first) => (answer, chain first second false)
  | layer inner, n => ((inner.read n).1, layer (inner.read n).2)

/-- A bound on the number of reads that can still deliver bytes or fail. -/
def weight : Reader → Nat
  | memory bs => bs.length
  | fragments f => f.length
  | cursor c => c.rest.length
  | script steps => ScriptStep.weight steps
  | chain _ second true => second.weight
  | chain first second false => first.weight + second.weight
  | layer inner => inner.weight

/-- **A read of a chain.** It is a read of the first reader, unless that is at its end and there is
    something to read: then it is a read of the second. -/
theorem read_chain_cases (first second : Reader) (n : Nat) :
    ((first.read n).1 ≠ .ok [] ∨ n = 0) ∧ (chain first second false).read n =
        ((first.read n).1, chain (first.read n).2 second false) ∨
      (first.read n).1 = .ok [] ∧ n ≠ 0 ∧ (chain first second false).read n =
        ((second.read n).1, chain (first.read n).2 (second.read n).2 true) := by
  match hr : first.read n with
  | (.ok [], next) =>
    by_cases hn : n = 0
    · exact .inl ⟨.inr hn, by simp only [read, hr, if_pos hn]⟩
    · exact .inr ⟨rfl, hn, by simp only [read, hr, if_neg hn]⟩
  | (.ok (b :: bs), next) => exact .inl ⟨.inl (by simp), by simp only [read, hr]⟩
  | (.error e, next) => exact .inl ⟨.inl (by simp), by simp only [read, hr]⟩

/-! ### Every read that delivers something makes the weight smaller -/

private theorem weight_script (steps : List ScriptStep) (n : Nat)
    (h : (ScriptStep.read steps n).1 ≠ .ok []) :
    ScriptStep.weight (ScriptStep.read steps n).2 < ScriptStep.weight steps := by
  match steps with
  | [] => simp [ScriptStep.read] at h
  | .fail e :: steps => simp [ScriptStep.read, ScriptStep.weight]
  | .data bs :: steps =>
    have h : bs.take n ≠ [] := by simpa [ScriptStep.read] using h
    have hpos : 0 < (bs.take n).length := List.length_pos_iff.2 h
    have hlen : (bs.take n).length + (bs.drop n).length = bs.length := by
      rw [← List.length_append, List.take_append_drop]
    by_cases hd : (bs.drop n).isEmpty
    · simp [ScriptStep.read, ScriptStep.weight, hd]
    · simp only [ScriptStep.read, hd, ScriptStep.weight, Bool.false_eq_true, if_false]
      omega

/-- A read that delivers something or fails makes the weight smaller, whatever the reader is made
    of. -/
theorem weight_read (r : Reader) (n : Nat) (h : (r.read n).1 ≠ .ok []) :
    (r.read n).2.weight < r.weight := by
  induction r with
  | memory bs =>
    have h : bs.take n ≠ [] := by simpa [read] using h
    have : 0 < (bs.take n).length := List.length_pos_iff.2 h
    simp only [List.length_take] at this
    simp only [read, weight, List.length_drop]
    omega
  | fragments f => exact f.length_read_lt n (by simpa [read] using h)
  | cursor c =>
    have h : (c.read n).1 ≠ [] := by simpa [read] using h
    have hpos : 0 < (c.read n).1.length := List.length_pos_iff.2 h
    have happ := congrArg List.length (c.read_append_rest n)
    simp only [List.length_append] at happ
    simp only [read, weight]
    omega
  | script steps => exact weight_script steps n h
  | chain first second done ihf ihs =>
    cases done with
    | true => exact ihs h
    | false =>
      obtain ⟨-, hread⟩ | ⟨-, -, hread⟩ := read_chain_cases first second n
      · rw [hread] at h ⊢
        exact Nat.add_lt_add_right (ihf h) _
      · -- Of a first reader that has ended, nothing is counted any more.
        rw [hread] at h ⊢
        exact Nat.lt_of_lt_of_le (ihs h) (Nat.le_add_left _ _)
  | layer inner ih => exact ih h

instance : Readable Reader where
  read := read
  weight := weight
  weight_read := weight_read

/-- All bytes of a reader, or the failure that came before its end. -/
def allBytes (r : Reader) : Except Error Bytes :=
  match (Readable.readToEnd r).1 with
  | (bs, none) => .ok bs
  | (_, some e) => .error (.io e)

end Reader

/-! ### Fragments and cursors alone -/

namespace Fragments

instance : Readable Fragments where
  read f n := (.ok (f.read n).1, (f.read n).2)
  weight := length
  weight_read f n h := f.length_read_lt n (by simpa using h)

/-- The description of a reader of fragments in a layer of its own. -/
def describeLayer (f : Fragments) : String :=
  Text.record "ByteReader" [("inner", f.describe)]

end Fragments

namespace Cursor

/-- Performs one step of reading. Where exactly `n` bytes are asked for and fewer are left, the
    position goes to the end. -/
def perform (c : Cursor) : ReadStep → ReadAnswer × Cursor
  | .read n => let (got, c) := c.read n; (.bytes got, c)
  | .exact n =>
    let (got, c) := c.readExact n
    (match got with
      | some got => .bytes got
      | none => .failed .endOfInput, c)
  | .all => let (got, c) := c.readToEnd; (.bytes got, c)
  | .byte =>
    let (got, c) := c.readExact 1
    (match got with
      | some (b :: _) => .byte b
      | _ => .failed .endOfInput, c)

end Cursor

end WireBytes
