import WireBytes.Bytes

/-!
# Growable buffers

A `Buffer` holds bytes and has room for `capacity` of them. Cutting bytes off the end keeps the
capacity, adding bytes raises it once they do not fit, and dividing a buffer divides its capacity.

An `Edit` is a step that the holder of a buffer can take on it:

* `Buffer.edit?` performs one, and has no result where an offset is out of range;
* `Edit.grows` says whether a step raises the capacity, and `Edit.divides` whether it takes part of
  the room away.
-/

namespace WireBytes

/-- Bytes with the room that is set aside for them. -/
structure Buffer where
  capacity : Nat
  bytes : Bytes
  fits : bytes.length ≤ capacity
  deriving DecidableEq

namespace Buffer

/-- A buffer without bytes. -/
def empty (capacity : Nat) : Buffer :=
  ⟨capacity, [], Nat.zero_le _⟩

/-- The number of bytes in a buffer. -/
def length (b : Buffer) : Nat :=
  b.bytes.length

/-- The capacity after making room for `needed` bytes: if they do not fit, the largest of twice
    the old capacity, what is needed, and eight. -/
def grown (capacity needed : Nat) : Nat :=
  if needed ≤ capacity then capacity else max (max (2 * capacity) needed) 8

/-- A grown buffer has the room that was needed. -/
theorem le_grown (capacity needed : Nat) : needed ≤ grown capacity needed := by
  unfold grown
  split <;> omega

/-- A buffer of the same room, grown if needed, with other bytes. -/
def refill (b : Buffer) (bytes : Bytes) : Buffer :=
  ⟨grown b.capacity bytes.length, bytes, le_grown _ _⟩

/-- Removes all bytes. -/
def clear (b : Buffer) : Buffer :=
  empty b.capacity

/-- Keeps the first `n` bytes. -/
def truncate (b : Buffer) (n : Nat) : Buffer :=
  ⟨b.capacity, b.bytes.take n, Nat.le_trans (List.length_take_le' n b.bytes) b.fits⟩

/-- Adds bytes at the end. -/
def extend (b : Buffer) (more : Bytes) : Buffer :=
  b.refill (b.bytes ++ more)

/-- Keeps the first `n` bytes, or adds copies of `fill` until there are `n`. -/
def resize (b : Buffer) (n : Nat) (fill : UInt8) : Buffer :=
  b.refill (b.bytes.take n ++ List.replicate (n - b.length) fill)

/-- A buffer from given bytes: they are added to an empty buffer of the given capacity. -/
def ofBytes (capacity : Nat) (bytes : Bytes) : Buffer :=
  (empty capacity).extend bytes

/-- Divides the room of a buffer at an offset in it: the first `n` places with their bytes, and the
    rest. -/
def divide (b : Buffer) (n : Nat) : Buffer × Buffer :=
  (⟨n, b.bytes.take n, List.length_take_le n b.bytes⟩,
   ⟨b.capacity - n, b.bytes.drop n,
    List.length_drop ▸ Nat.sub_le_sub_right b.fits n⟩)

end Buffer

/-! ### Edits -/

/-- A step on one buffer. -/
inductive Edit where
  /-- Looks at the buffer. -/
  | look
  | clear
  | truncate (n : Nat)
  | extend (more : Bytes)
  | resize (n : Nat) (fill : UInt8)
  /-- Gives the room from offset `n` on to a new buffer. -/
  | splitOff (n : Nat)
  /-- Gives the first `n` bytes to a new buffer. -/
  | splitTo (n : Nat)
  /-- Gives the first `n` bytes up. -/
  | advance (n : Nat)
  deriving DecidableEq

namespace Edit

/-- Whether the step raises the capacity of the buffer. -/
def grows (e : Edit) (b : Buffer) : Bool :=
  match e with
  | extend more => b.capacity < b.length + more.length
  | resize n _ => b.capacity < n
  | _ => false

/-- Whether the step divides the room of the buffer. -/
def divides : Edit → Bool
  | splitOff _ | splitTo _ | advance _ => true
  | _ => false

end Edit

/-- The buffer after a step and the buffer split off, if any. An offset past the capacity, or past
    the bytes for the steps that take the first ones, has no result. -/
def Buffer.edit? (b : Buffer) : Edit → Option (Buffer × Option Buffer)
  | .look => some (b, none)
  | .clear => some (b.clear, none)
  | .truncate n => some (b.truncate n, none)
  | .extend more => some (b.extend more, none)
  | .resize n fill => some (b.resize n fill, none)
  | .splitOff n =>
    if n ≤ b.capacity then
      let (first, rest) := b.divide n
      some (first, some rest)
    else none
  | .splitTo n =>
    if n ≤ b.length then
      let (first, rest) := b.divide n
      some (rest, some first)
    else none
  | .advance n => if n ≤ b.length then some ((b.divide n).2, none) else none

end WireBytes
