import WireBytes.Bytes

/-!
# Fragments

`Fragments` are pieces of bytes that are read back to back without being joined. A single read never
goes past the end of a piece, so an empty piece would look like the end of the input: there are none
in the queue that `Fragments.ofList` builds.
-/

namespace WireBytes

/-- A queue of pieces to read. -/
structure Fragments where
  queue : List Bytes
  deriving DecidableEq, Repr

namespace Fragments

/-- A queue of the pieces that are not empty. -/
def ofList (pieces : List Bytes) : Fragments :=
  ⟨pieces.filter (!·.isEmpty)⟩

/-- All bytes left. -/
def content (f : Fragments) : Bytes :=
  f.queue.flatten

/-- The number of bytes left. -/
def length (f : Fragments) : Nat :=
  Bytes.totalLength f.queue

/-- Reads up to `n` bytes of the first piece. A piece that was read to its end leaves the queue. -/
def read (f : Fragments) (n : Nat) : Bytes × Fragments :=
  match f.queue with
  | [] => ([], f)
  | first :: others =>
    (first.take n, ⟨if (first.drop n).isEmpty then others else first.drop n :: others⟩)

/-- A queue with all its pieces. -/
def describe (f : Fragments) : String :=
  Text.record "FragmentReader" [("fragments", Text.list (f.queue.map Text.quoteBytes))]

/-- Leaving out the empty pieces loses no bytes. -/
@[simp] theorem content_ofList (pieces : List Bytes) :
    (ofList pieces).content = pieces.flatten := by
  induction pieces with
  | nil => rfl
  | cons p ps ih => cases p <;> simp_all [ofList, content]

/-- There is no empty piece in a queue that was built of a list. -/
theorem ne_nil_of_mem_ofList {pieces : List Bytes} {piece : Bytes}
    (h : piece ∈ (ofList pieces).queue) : piece ≠ [] := by
  simpa [ofList] using (List.mem_filter.1 h).2

/-- The count over the pieces is the number of all bytes left. -/
theorem length_eq_length_content (f : Fragments) : f.length = f.content.length :=
  Bytes.totalLength_eq_length_flatten f.queue

/-- What was read and what is left make up what was left before. -/
theorem read_append_content (f : Fragments) (n : Nat) :
    (f.read n).1 ++ (f.read n).2.content = f.content := by
  rcases f with ⟨_ | ⟨first, others⟩⟩
  · rfl
  · have h : first.take n ++ first.drop n = first := List.take_append_drop n first
    by_cases he : first.drop n = []
    · simp_all [read, content]
    · simp [read, content, he, ← List.append_assoc]

/-- A read delivers no more than was asked for. -/
theorem length_read_le (f : Fragments) (n : Nat) : (f.read n).1.length ≤ n := by
  rcases f with ⟨_ | ⟨first, others⟩⟩
  · exact Nat.zero_le n
  · exact List.length_take_le n first

/-- A read that delivers something leaves fewer bytes, so that the loops come to an end. -/
theorem length_read_lt (f : Fragments) (n : Nat) (h : (f.read n).1 ≠ []) :
    (f.read n).2.length < f.length := by
  have hpos : 0 < (f.read n).1.length := List.length_pos_iff.2 h
  have happ := congrArg List.length (f.read_append_content n)
  simp only [List.length_append] at happ
  simp only [length_eq_length_content]
  omega

end Fragments

end WireBytes
