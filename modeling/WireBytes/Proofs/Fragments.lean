import Mathlib
import WireBytes.Reader

/-!
# Reading a queue of pieces

The state of a queue is known from the pieces that it was built of and from the number of bytes that
were read of it. Reads of no bytes, reads that end where a piece ends, and empty pieces between the
others make no difference to this.

* `Fragments.behind` — the queue of what lies behind the first `k` bytes of pieces;
* `Fragments.read_behind` — a read of such a queue leads to such a queue;
* `Fragments.fst_read_behind` — what it delivers is of one piece only;
* `Fragments.run_behind` and `Fragments.run_reads` — any reads in order, and the read after them.
-/

namespace WireBytes

/-- Steps in two parts are those of the first part and then those of the second. -/
theorem Readable.run_append {ρ : Type} [Readable ρ] (r : ρ) (steps more : List ReadStep) :
    run r (steps ++ more) =
      ((run r steps).1 ++ (run (run r steps).2 more).1, (run (run r steps).2 more).2) := by
  induction steps generalizing r with
  | nil => rfl
  | cons s rest ih =>
    show (_ :: (run (perform r s).2 (rest ++ more)).1, (run (perform r s).2 (rest ++ more)).2) = _
    rw [ih]
    rfl

/-- There is nothing at the front only if there is nothing at all. -/
theorem Bytes.eq_nil_of_take {bs : Bytes} {n : Nat} (hn : 0 < n) (h : bs.take n = []) :
    bs = [] := by
  rcases List.take_eq_nil_iff.1 h with hzero | hempty
  · omega
  · exact hempty

namespace Fragments

variable {pieces : List Bytes}

/-! ### Queues without empty pieces -/

/-- A read of a queue without empty pieces delivers nothing only at its end, and leaves no empty
    piece behind. -/
theorem read_of_nonempty {f : Fragments} (h : ∀ piece ∈ f.queue, piece ≠ []) {n : Nat}
    (hn : 0 < n) :
    ((f.read n).1 = [] → f.content = []) ∧
      ∀ piece ∈ (f.read n).2.queue, piece ≠ [] := by
  obtain ⟨_ | ⟨first, others⟩⟩ := f
  · exact ⟨fun _ => rfl, h⟩
  · have hfirst : first ≠ [] := h first List.mem_cons_self
    have hothers : ∀ piece ∈ others, piece ≠ [] :=
      fun piece hmem => h piece (List.mem_cons_of_mem _ hmem)
    constructor
    · intro hnone
      exact absurd (Bytes.eq_nil_of_take hn hnone) hfirst
    · -- The first piece leaves the queue when it was read to its end.
      show ∀ piece ∈ if (first.drop n).isEmpty then others else first.drop n :: others, piece ≠ []
      by_cases hend : (first.drop n).isEmpty = true
      · rw [if_pos hend]
        exact hothers
      · rw [if_neg hend]
        exact List.forall_mem_cons.2 ⟨by simpa using hend, hothers⟩

/-- Where nothing is left a read delivers nothing. -/
theorem fst_read_of_content {f : Fragments} (h : f.content = []) (n : Nat) : (f.read n).1 = [] := by
  have happend := f.read_append_content n
  rw [h] at happend
  exact (List.append_eq_nil_iff.1 happend).1

/-! ### The queue behind the first bytes -/

/-- The queue of what lies behind the first `k` bytes of pieces. -/
def behind : List Bytes → Nat → Fragments
  | [], _ => ⟨[]⟩
  | piece :: pieces, k =>
    if k < piece.length then ⟨piece.drop k :: (ofList pieces).queue⟩
    else behind pieces (k - piece.length)

/-- An offset inside the first piece cuts that piece. -/
theorem behind_of_lt {piece : Bytes} {k : Nat} (h : k < piece.length) :
    behind (piece :: pieces) k = ⟨piece.drop k :: (ofList pieces).queue⟩ :=
  if_pos h

/-- An offset past the first piece falls into the others. -/
theorem behind_of_le {piece : Bytes} {k : Nat} (h : piece.length ≤ k) :
    behind (piece :: pieces) k = behind pieces (k - piece.length) :=
  if_neg (Nat.not_lt.2 h)

@[simp] theorem behind_zero (pieces : List Bytes) : behind pieces 0 = ofList pieces := by
  induction pieces with
  | nil => rfl
  | cons piece pieces ih =>
    cases piece with
    | nil => exact ih
    | cons b bs => rfl

/-- Whole pieces among the first bytes need not be looked at. -/
theorem behind_append {before : List Bytes} {k : Nat} (h : Bytes.totalLength before ≤ k)
    (after : List Bytes) :
    behind (before ++ after) k = behind after (k - Bytes.totalLength before) := by
  induction before generalizing k with
  | nil => rfl
  | cons piece before ih =>
    rw [Bytes.totalLength] at h ⊢
    rw [List.cons_append, behind_of_le (by omega), ih (by omega), Nat.sub_sub]

/-- There is no empty piece behind an offset. -/
theorem ne_nil_of_mem_behind {k : Nat} {piece : Bytes} (h : piece ∈ (behind pieces k).queue) :
    piece ≠ [] := by
  induction pieces generalizing k with
  | nil => cases h
  | cons first pieces ih =>
    rcases Nat.lt_or_ge k first.length with hk | hk
    · rw [behind_of_lt hk] at h
      rcases List.mem_cons.1 h with rfl | h
      · exact List.ne_nil_of_length_pos (by rw [List.length_drop]; omega)
      · exact ne_nil_of_mem_ofList h
    · rw [behind_of_le hk] at h
      exact ih h

/-- The bytes behind an offset are all bytes but those before it. -/
theorem content_behind (pieces : List Bytes) (k : Nat) :
    (behind pieces k).content = pieces.flatten.drop k := by
  induction pieces generalizing k with
  | nil => simp [behind, content]
  | cons piece pieces ih =>
    rcases Nat.lt_or_ge k piece.length with hk | hk
    · have hrest : (ofList pieces).queue.flatten = pieces.flatten := content_ofList pieces
      rw [behind_of_lt hk, List.flatten_cons, List.drop_append_of_le_length hk.le, content,
        List.flatten_cons, hrest]
    · rw [behind_of_le hk, ih, List.flatten_cons, List.drop_append, List.drop_of_length_le hk,
        List.nil_append]

/-! ### One read -/

/-- **One read.** The queue behind the first bytes becomes the queue behind these and the bytes that
    were delivered. -/
theorem read_behind (pieces : List Bytes) (k n : Nat) :
    ((behind pieces k).read n).2 = behind pieces (k + ((behind pieces k).read n).1.length) := by
  induction pieces generalizing k with
  | nil => rfl
  | cons piece pieces ih =>
    rcases Nat.lt_or_ge k piece.length with hk | hk
    · rw [behind_of_lt hk]
      show (⟨if ((piece.drop k).drop n).isEmpty then _ else _⟩ : Fragments) =
        behind _ (k + ((piece.drop k).take n).length)
      rw [List.drop_drop, List.length_take, List.length_drop]
      -- The piece stays in the queue exactly if it was not read to its end.
      rcases Nat.lt_or_ge (k + n) piece.length with hn | hn
      · have hrest : (piece.drop (k + n)).isEmpty = false := by simpa using hn
        rw [hrest, Nat.min_eq_left (by omega), behind_of_lt hn]
        rfl
      · have hrest : (piece.drop (k + n)).isEmpty = true := by simpa using hn
        rw [hrest, Nat.min_eq_right (by omega), Nat.add_sub_cancel' hk.le, behind_of_le le_rfl,
          Nat.sub_self, behind_zero]
        rfl
    · rw [behind_of_le hk, ih, behind_of_le (by omega), Nat.sub_add_comm hk]

/-- Where not all bytes were delivered, the next one lies in one of the pieces. -/
theorem exists_piece_of_lt {k : Nat} (h : k < Bytes.totalLength pieces) :
    ∃ before piece after, pieces = before ++ piece :: after ∧ Bytes.totalLength before ≤ k ∧
      k < Bytes.totalLength before + piece.length := by
  induction pieces generalizing k with
  | nil => cases h
  | cons first pieces ih =>
    rcases Nat.lt_or_ge k first.length with hk | hk
    · refine ⟨[], first, pieces, rfl, Nat.zero_le k, ?_⟩
      rw [Bytes.totalLength, Nat.zero_add]
      exact hk
    · rw [Bytes.totalLength] at h
      have hrest : k - first.length < Bytes.totalLength pieces := by omega
      obtain ⟨before, piece, after, rfl, hstart, hend⟩ := ih hrest
      refine ⟨first :: before, piece, after, rfl, ?_, ?_⟩
      all_goals
        rw [Bytes.totalLength]
        omega

/-- A read delivers bytes of the piece in which the next byte lies, and no others. -/
theorem fst_read_behind {before after : List Bytes} {piece : Bytes} {k : Nat}
    (hstart : Bytes.totalLength before ≤ k) (hend : k < Bytes.totalLength before + piece.length)
    (n : Nat) :
    ((behind (before ++ piece :: after) k).read n).1 =
      (piece.drop (k - Bytes.totalLength before)).take n := by
  rw [behind_append hstart, behind_of_lt (by omega)]
  rfl

/-! ### Reads in order -/

/-- **Reads in order.** None of them fails, and they lead to the queue behind what they deliver. -/
theorem run_behind (pieces : List Bytes) (k : Nat) (sizes : List Nat) :
    ∃ gots : List Bytes,
      Readable.run (behind pieces k) (sizes.map .read) =
        (gots.map .bytes, behind pieces (k + gots.flatten.length)) ∧
      gots.length = sizes.length ∧
      gots.flatten ++ (behind pieces (k + gots.flatten.length)).content =
        (behind pieces k).content := by
  -- Each read moves the offset by what it delivers, and the others begin there.
  induction sizes generalizing k with
  | nil => exact ⟨[], rfl, rfl, rfl⟩
  | cons n sizes ih =>
    have hnext := read_behind pieces k n
    have happend := (behind pieces k).read_append_content n
    obtain ⟨gots, hrun, hlength, hgots⟩ := ih (k + ((behind pieces k).read n).1.length)
    refine ⟨((behind pieces k).read n).1 :: gots, ?_, ?_, ?_⟩
    · show (_ :: (Readable.run ((behind pieces k).read n).2 (sizes.map .read)).1,
        (Readable.run ((behind pieces k).read n).2 (sizes.map .read)).2) = _
      rw [hnext, hrun, List.flatten_cons, List.length_append, Nat.add_assoc]
      rfl
    · rw [List.length_cons, hlength, List.length_cons]
    · rw [List.flatten_cons, List.append_assoc, List.length_append, ← Nat.add_assoc, hgots, ← hnext,
        happend]

/-- **Reading pieces.** After any reads of a queue that was built of pieces, empty ones among them,
    no piece in the queue is empty, the bytes delivered and those left are the bytes of the pieces
    in order, and the number of those left is the number of all less that of those delivered. The
    read after them delivers as many bytes as are asked for and as there are left in the piece in
    which the next byte lies, and none of another piece. At the end it delivers nothing, and only
    there if anything is asked for. -/
theorem run_reads (pieces : List Bytes) (sizes : List Nat) :
    ∃ (gots : List Bytes) (f : Fragments),
      Readable.run (ofList pieces) (sizes.map .read) = (gots.map .bytes, f) ∧
      gots.length = sizes.length ∧
      (∀ piece ∈ f.queue, piece ≠ []) ∧
      gots.flatten ++ f.queue.flatten = pieces.flatten ∧
      f.length = Bytes.totalLength pieces - gots.flatten.length ∧
      ∀ n, ∃ got next, Readable.read f n = (.ok got, next) ∧
        Readable.run (ofList pieces) ((sizes ++ [n]).map .read) =
          ((gots ++ [got]).map .bytes, next) ∧
        (gots.flatten.length < Bytes.totalLength pieces →
          ∃ before piece after, pieces = before ++ piece :: after ∧
            Bytes.totalLength before ≤ gots.flatten.length ∧
            gots.flatten.length < Bytes.totalLength before + piece.length ∧
            got = (piece.drop (gots.flatten.length - Bytes.totalLength before)).take n ∧
            got.length = min n (Bytes.totalLength before + piece.length - gots.flatten.length)) ∧
        (gots.flatten.length = Bytes.totalLength pieces → got = []) ∧
        (0 < n → got = [] → gots.flatten = pieces.flatten) := by
  -- The queue that was built of the pieces is the one behind no bytes.
  obtain ⟨gots, hrun, hlength, hcontent⟩ := run_behind pieces 0 sizes
  rw [behind_zero, Nat.zero_add] at hrun
  rw [behind_zero, content_ofList, Nat.zero_add] at hcontent
  refine ⟨gots, behind pieces gots.flatten.length, hrun, hlength,
    fun piece => ne_nil_of_mem_behind, hcontent, ?_, ?_⟩
  · rw [length_eq_length_content, content_behind, List.length_drop,
      Bytes.totalLength_eq_length_flatten]
  · intro n
    refine ⟨_, _, rfl, ?_, ?_, ?_, ?_⟩
    · rw [List.map_append, Readable.run_append, hrun, List.map_append]
      rfl
    · intro hleft
      obtain ⟨before, piece, after, rfl, hstart, hend⟩ := exists_piece_of_lt hleft
      have hgot : ((behind (before ++ piece :: after) gots.flatten.length).read n).1 = _ :=
        fst_read_behind hstart hend n
      refine ⟨before, piece, after, rfl, hstart, hend, hgot, ?_⟩
      rw [hgot, List.length_take, List.length_drop]
      omega
    · intro hall
      -- Nothing is left behind all bytes, and so nothing is delivered.
      apply fst_read_of_content
      rw [content_behind, hall, Bytes.totalLength_eq_length_flatten, List.drop_length]
    · intro hn hnone
      obtain ⟨hend, -⟩ := read_of_nonempty (fun piece => ne_nil_of_mem_behind) hn
      rw [hend hnone, List.append_nil] at hcontent
      exact hcontent

/-- A piece that is read to its end at once, an empty piece, and a read of no bytes. -/
example : Readable.run (ofList [[1, 2], [], [3, 4, 5]]) [.read 2, .read 0, .read 4, .read 4] =
    ([.bytes [1, 2], .bytes [], .bytes [3, 4, 5], .bytes []], ⟨[]⟩) := by
  decide

end Fragments

end WireBytes
