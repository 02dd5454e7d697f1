import WireBytes.Bytes

/-!
# Captured bytes

A `Capture` is the sink into which a source writes itself out. A first chunk that is given away is
kept as it is; anything else is copied into one growing buffer.

* `Capture.adopt` and `Capture.write` add bytes and report how many;
* `Capture.bytes` is all that was captured, in the order of the calls.
-/

namespace WireBytes

/-- What a sink has captured. -/
inductive Capture where
  | empty
  /-- A single chunk, taken over as it is. -/
  | owned (chunk : Bytes)
  /-- Bytes copied into a buffer. -/
  | appending (buffer : Bytes)
  deriving DecidableEq, Repr

namespace Capture

/-- All bytes captured. -/
def bytes : Capture → Bytes
  | empty => []
  | owned chunk => chunk
  | appending buffer => buffer

/-- The number of bytes captured. -/
def length : Capture → Nat
  | empty => 0
  | owned chunk => chunk.length
  | appending buffer => buffer.length

/-- Whether no byte was captured. -/
def isEmpty (c : Capture) : Bool :=
  c.length = 0

/-- Copies bytes behind those captured. A chunk that was taken over is copied first. -/
def append (c : Capture) (data : Bytes) : Capture :=
  match c with
  | empty => appending data
  | owned first => appending (first ++ data)
  | appending buffer => appending (buffer ++ data)

/-- Takes a chunk over and reports its length. -/
def adopt (c : Capture) (chunk : Bytes) : Nat × Capture :=
  (chunk.length, match c with
    | empty => owned chunk
    | c => c.append chunk)

/-- Takes chunks over in order and reports how many bytes they are. -/
def adoptAll (c : Capture) : List Bytes → Nat × Capture
  | [] => (0, c)
  | chunk :: chunks =>
    let (n, c) := c.adopt chunk
    let (m, c) := adoptAll c chunks
    (n + m, c)

/-- Copies a slice and reports its length. -/
def write (c : Capture) (slice : Bytes) : Nat × Capture :=
  (slice.length, c.append slice)

/-- Copies a slice by as many writes as it takes: none if it is empty. -/
def writeAll (c : Capture) (slice : Bytes) : Capture :=
  if slice.isEmpty then c else (c.write slice).2

/-- Writes the first slice that is not empty, or an empty one if there is none. -/
def writeVectored (c : Capture) (slices : List Bytes) : Nat × Capture :=
  c.write ((slices.find? (!·.isEmpty)).getD [])

/-- What is counted are the bytes that come out in the end. -/
theorem length_eq_length_bytes (c : Capture) : c.length = c.bytes.length := by
  cases c with
  | empty => rfl
  | owned chunk => rfl
  | appending buffer => rfl

/-- Appending leads to one buffer of all bytes, whichever of the three the capture was before. -/
theorem append_eq (c : Capture) (data : Bytes) : c.append data = appending (c.bytes ++ data) := by
  cases c with
  | empty => rfl
  | owned first => rfl
  | appending buffer => rfl

/-- No byte that was captured is lost when others are appended to it. -/
@[simp] theorem bytes_append (c : Capture) (data : Bytes) :
    (c.append data).bytes = c.bytes ++ data := by
  rw [append_eq]
  rfl

/-- A chunk comes behind the bytes captured before it, be it kept or copied. -/
@[simp] theorem bytes_adopt (c : Capture) (chunk : Bytes) :
    (c.adopt chunk).2.bytes = c.bytes ++ chunk := by
  cases c with
  | empty => rfl
  | owned first => exact bytes_append (owned first) chunk
  | appending buffer => exact bytes_append (appending buffer) chunk

/-- A capture with all its parts. -/
def describe (c : Capture) : String :=
  let captured := match c with
    | empty => "Empty"
    | owned chunk => Text.case "Owned" (Text.quoteBytes chunk)
    | appending buffer => Text.case "Appending" (Text.quoteBytes buffer)
  Text.record "ByteStealer" [("captured", captured)]

end Capture

end WireBytes
