import WireBytes.Bytes

/-!
# Cursors

A `Cursor` is a position in stored bytes. The position may lie past the end, where nothing is left
to read.

* `Cursor.rest` is what is left; `read`, `readExact` and `readToEnd` take from its front;
* `Cursor.takeRest` takes all of it at once. Storage that is shared stays in the cursor, storage of
  the cursor's own leaves with the bytes.
-/

namespace WireBytes

/-- Who holds the storage of a cursor. -/
inductive Storage where
  /-- Others may hold it too. -/
  | shared
  /-- The cursor alone holds it. -/
  | owned
  deriving DecidableEq, Repr

/-- A position in stored bytes. -/
structure Cursor where
  storage : Storage
  data : Bytes
  pos : Nat
  deriving DecidableEq, Repr

namespace Cursor

/-- The bytes from the position on. -/
def rest (c : Cursor) : Bytes :=
  c.data.drop c.pos

/-- The cursor after `k` bytes were read. -/
def forward (c : Cursor) (k : Nat) : Cursor :=
  { c with pos := c.pos + k }

/-- Reads up to `n` bytes. -/
def read (c : Cursor) (n : Nat) : Bytes × Cursor :=
  (c.rest.take n, c.forward (c.rest.take n).length)

/-- Reads exactly `n` bytes. If fewer are left the position goes to the end of the data. -/
def readExact (c : Cursor) (n : Nat) : Option Bytes × Cursor :=
  if n ≤ c.rest.length then (some (c.rest.take n), c.forward n)
  else (none, { c with pos := c.data.length })

/-- Reads all that is left. -/
def readToEnd (c : Cursor) : Bytes × Cursor :=
  (c.rest, c.forward c.rest.length)

/-- Takes all that is left away. Shared storage stays and the position goes to its end; storage of
    the cursor's own goes, and the cursor is left empty. -/
def takeRest (c : Cursor) : Bytes × Cursor :=
  (c.rest, match c.storage with
    | .shared => { c with pos := c.data.length }
    | .owned => { c with data := [], pos := 0 })

/-- What was read and what is left make up what was left before. -/
theorem read_append_rest (c : Cursor) (n : Nat) : (c.read n).1 ++ (c.read n).2.rest = c.rest := by
  have h : (c.rest.drop (min n c.rest.length)) = c.rest.drop n := by
    rcases Nat.le_total n c.rest.length with h | h
    · rw [Nat.min_eq_left h]
    · rw [Nat.min_eq_right h, List.drop_length, List.drop_of_length_le h]
  calc (c.read n).1 ++ (c.read n).2.rest
      = c.rest.take n ++ c.rest.drop (min n c.rest.length) := by
        simp [read, forward, rest]
    _ = c.rest := by rw [h, List.take_append_drop]

/-- After taking the rest nothing is left to read, whoever holds the storage. -/
theorem takeRest_rest (c : Cursor) : c.takeRest.2.rest = [] := by
  rcases c with ⟨_ | _, data, pos⟩ <;> simp [takeRest, rest]

end Cursor

end WireBytes
