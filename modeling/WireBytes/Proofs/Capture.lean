import Mathlib
import WireBytes.Source

/-!
# The state of a sink

The state of a sink is known from the calls that were made on it. Without a call it is empty, a
chunk given away by the only call is kept as it is, and after any other calls there is one buffer of
copies. Whether a chunk was empty makes no difference to this, and neither does a flush or a write
of all of nothing, which do not count as calls.

* `SinkCall.passed` and `SinkCall.counts` — the bytes that a call passes, and whether it counts;
* `Capture.after` — the state after calls that count; `Capture.bytes_after` — its bytes;
* `SinkCall.play_cons_after` — what one call makes of such a state;
* `SinkCall.play_after` — what several calls make of it;
* `Capture.state_of_calls` — the state of a new sink after any calls.
-/

namespace WireBytes

/-! ### Calls -/

namespace SinkCall

/-- The bytes that a call passes to the sink. -/
def passed : SinkCall → Bytes
  | handOver chunk => chunk
  | write slice => slice
  | writeAll slice => slice
  | flush => []
  | fail _ => []

/-- Whether a call brings the sink a chunk or a slice, which may be one of no bytes. A flush brings
    none, and writing all of nothing takes no write. -/
def counts : SinkCall → Bool
  | handOver _ => true
  | write _ => true
  | writeAll slice => !slice.isEmpty
  | flush => false
  | fail _ => false

/-- What does not count passes nothing. -/
theorem passed_of_not_counts {c : SinkCall} (h : ¬ c.counts) : c.passed = [] := by
  cases c with
  | handOver chunk => simp [counts] at h
  | write slice => simp [counts] at h
  | writeAll slice => simpa [counts, passed] using h
  | flush => rfl
  | fail e => rfl

/-- Calls that do not count pass no bytes. -/
@[simp] theorem flatMap_passed_filter (calls : List SinkCall) :
    (calls.filter counts).flatMap passed = calls.flatMap passed := by
  induction calls with
  | nil => rfl
  | cons c calls ih =>
    by_cases hc : c.counts
    · simp [hc, ih]
    · simp [hc, ih, passed_of_not_counts hc]

end SinkCall

/-! ### The state after calls -/

namespace Capture

open SinkCall (passed counts)

/-- The state of a new sink after calls that all count. -/
def after : List SinkCall → Capture
  | [] => empty
  | [.handOver chunk] => owned chunk
  | calls => appending (calls.flatMap passed)

/-- Only a single chunk that was given away is not copied. -/
theorem after_of_copied {calls : List SinkCall} (hne : calls ≠ [])
    (hgift : ∀ chunk, calls ≠ [.handOver chunk]) :
    after calls = appending (calls.flatMap passed) := by
  fun_cases after calls with
  | case1 => exact absurd rfl hne
  | case2 chunk => exact absurd rfl (hgift chunk)
  | case3 => rfl

/-- No byte is lost on the way, and none changes its place. -/
@[simp] theorem bytes_after (calls : List SinkCall) :
    (after calls).bytes = calls.flatMap passed := by
  fun_cases after calls with
  | case1 => rfl
  | case2 chunk => simp [bytes, passed]
  | case3 => rfl

/-- Every state is one after calls. -/
theorem exists_after (c : Capture) : ∃ made, c = after made := by
  cases c with
  | empty => exact ⟨[], rfl⟩
  | owned chunk => exact ⟨[.handOver chunk], rfl⟩
  | appending buffer => exact ⟨[.write buffer], by simp [after, passed]⟩

/-- Nothing was captured exactly if there was no call. -/
theorem after_eq_empty_iff {calls : List SinkCall} : after calls = empty ↔ calls = [] := by
  fun_cases after calls <;> simp_all

/-- A chunk is owned exactly if it was handed over and there was no other call. -/
theorem after_eq_owned_iff {calls : List SinkCall} {chunk : Bytes} :
    after calls = owned chunk ↔ calls = [.handOver chunk] := by
  fun_cases after calls <;> simp_all

/-- In all other cases the bytes are in a buffer. -/
theorem exists_after_eq_appending_iff {calls : List SinkCall} :
    (∃ buffer, after calls = appending buffer) ↔
      calls ≠ [] ∧ ∀ chunk, calls ≠ [.handOver chunk] := by
  fun_cases after calls <;> simp_all

/-! ### One more call -/

/-- A call copies what it passes if it is not the first one or gives nothing away. -/
theorem after_append_copied {made : List SinkCall} {c : SinkCall}
    (h : made ≠ [] ∨ ∀ chunk, c ≠ .handOver chunk) :
    after (made ++ [c]) = (after made).append c.passed := by
  have hcopied : after (made ++ [c]) = appending ((made ++ [c]).flatMap passed) := by
    apply after_of_copied (by simp)
    intro chunk heq
    have hsingle : made = [] ∧ c = .handOver chunk := by
      simpa [List.append_eq_singleton_iff] using heq
    rcases h with hmade | hcopied
    · exact hmade hsingle.1
    · exact hcopied chunk hsingle.2
  rw [hcopied, append_eq, bytes_after, List.flatMap_append, List.flatMap_singleton]

/-- Whether a chunk is kept as it is depends on the calls before it, not on their bytes. -/
theorem adopt_after (made : List SinkCall) (chunk : Bytes) :
    ((after made).adopt chunk).2 = after (made ++ [.handOver chunk]) := by
  by_cases hmade : made = []
  · rw [hmade]
    rfl
  · have hne : after made ≠ empty := by rwa [Ne, after_eq_empty_iff]
    have hcopies : ((after made).adopt chunk).2 = (after made).append chunk := by
      cases h : after made with
      | empty => exact absurd h hne
      | owned first => rfl
      | appending buffer => rfl
    rw [hcopies, after_append_copied (.inl hmade), SinkCall.passed]

end Capture

namespace SinkCall

open Capture (after)

/-- **One call.** If it counts it comes behind those made before it, and if not the state stays as
    it is. The number of the bytes that it passes is what is counted. -/
theorem play_cons_after {c : SinkCall} (h : ∀ e, c ≠ fail e) (made calls : List SinkCall)
    (count : Nat) :
    play (c :: calls) count (after made) =
      play calls (count + c.passed.length) (after (made ++ [c].filter counts)) := by
  cases c with
  | handOver chunk =>
    show play calls (count + chunk.length) ((after made).adopt chunk).2 = _
    rw [Capture.adopt_after]
    rfl
  | write slice =>
    show play calls (count + slice.length) ((after made).append slice) =
      play calls _ (after (made ++ [write slice]))
    rw [Capture.after_append_copied (.inr (by simp))]
    rfl
  | writeAll slice =>
    show play calls (count + slice.length) ((after made).writeAll slice) = _
    -- A write of all of nothing makes no call, and is not among those that count.
    cases slice with
    | nil => simp [counts, passed, Capture.writeAll]
    | cons b bs =>
      show play calls _ ((after made).append (b :: bs)) =
        play calls _ (after (made ++ [writeAll (b :: bs)]))
      rw [Capture.after_append_copied (.inr (by simp))]
      rfl
  | flush => simp [counts, passed, play]
  | fail e => exact absurd rfl (h e)

/-- **Several calls.** Those of them that count come behind those made before them, in their
    order. -/
theorem play_after {calls : List SinkCall} (h : ∀ e, fail e ∉ calls) (made later : List SinkCall)
    (count : Nat) :
    play (calls ++ later) count (after made) =
      play later (count + (calls.flatMap passed).length) (after (made ++ calls.filter counts)) := by
  induction calls generalizing made count with
  | nil => simp
  | cons c calls ih =>
    have hhead : ∀ e, c ≠ fail e := fun e hc => h e (hc ▸ List.mem_cons_self)
    have htail : ∀ e, fail e ∉ calls := fun e hmem => h e (List.mem_cons_of_mem _ hmem)
    have hfilter : (c :: calls).filter counts = [c].filter counts ++ calls.filter counts := by
      rw [← List.filter_append, List.singleton_append]
    rw [List.cons_append, play_cons_after hhead, ih htail, hfilter, List.append_assoc,
      List.flatMap_cons, List.length_append, Nat.add_assoc]

end SinkCall

namespace Capture

open SinkCall (passed counts)

/-- **The state of a sink.** Take any calls on a new sink, where a failure is no call, and whatever
    follows them. Nothing is captured exactly if none of them counts. A chunk is kept as it is
    exactly if it was given away by the only one that counts, and there is a buffer exactly in all
    other cases. In each case the length is the number of all bytes passed, the sink is said to be
    empty exactly if that is zero, and its bytes are those passed in the order of the calls. Other
    calls that pass the same leave the same bytes, whichever of them give a chunk away. -/
theorem state_of_calls {calls : List SinkCall} (h : ∀ e, .fail e ∉ calls) :
    ∃ sink : Capture,
      (∀ later, SinkCall.play (calls ++ later) 0 .empty =
        SinkCall.play later (Bytes.totalLength (calls.map passed)) sink) ∧
      (sink = .empty ↔ calls.filter counts = []) ∧
      (∀ chunk, sink = .owned chunk ↔ calls.filter counts = [.handOver chunk]) ∧
      ((∃ buffer, sink = .appending buffer) ↔
        calls.filter counts ≠ [] ∧ ∀ chunk, calls.filter counts ≠ [.handOver chunk]) ∧
      sink.length = Bytes.totalLength (calls.map passed) ∧
      (sink.isEmpty ↔ sink.length = 0) ∧
      sink.bytes = calls.flatMap passed ∧
      ∀ others : List SinkCall, (∀ e, .fail e ∉ others) → others.map passed = calls.map passed →
        (SinkCall.play others 0 .empty).2.2.bytes = sink.bytes := by
  have htotal : Bytes.totalLength (calls.map passed) = (calls.flatMap passed).length := by
    rw [Bytes.totalLength_eq_length_flatten, List.flatMap_def]
  have hbytes : (after (calls.filter counts)).bytes = calls.flatMap passed := by simp
  refine ⟨after (calls.filter counts), ?_, after_eq_empty_iff, fun _ => after_eq_owned_iff,
    exists_after_eq_appending_iff, ?_, ?_, hbytes, ?_⟩
  · intro later
    have hplay := SinkCall.play_after h [] later 0
    rw [Nat.zero_add, ← htotal] at hplay
    exact hplay
  · rw [length_eq_length_bytes, hbytes, htotal]
  · simp [isEmpty]
  · intro others hothers hsame
    have hplay := SinkCall.play_after hothers [] [] 0
    rw [List.append_nil] at hplay
    -- A new sink is the one after no calls, which is the case that `play_after` speaks of.
    show (SinkCall.play others 0 (after [])).2.2.bytes = _
    rw [hplay]
    show (after (others.filter counts)).bytes = _
    rw [hbytes, bytes_after, SinkCall.flatMap_passed_filter, List.flatMap_def, hsame,
      ← List.flatMap_def]

/-- A chunk of no bytes that is given away first is kept like any other, and copied once more comes.
    The bytes are the same if the chunks are written and the slices are given away. -/
theorem state_of_calls_with_empty_chunk :
    let calls : List SinkCall :=
      [.flush, .handOver [], .writeAll [], .write [7], .handOver [8, 9]]
    let others : List SinkCall :=
      [.flush, .write [], .flush, .handOver [7], .writeAll [8, 9]]
    (∀ e, .fail e ∉ calls) ∧ (∀ e, .fail e ∉ others) ∧
      others.map passed = calls.map passed ∧
      (SinkCall.play (calls.take 3) 0 .empty).2.2 = .owned [] ∧
      ∃ sink : Capture, SinkCall.play calls 0 .empty = (.ok 3, [], sink) ∧
        (∃ buffer, sink = .appending buffer) ∧ sink.length = 3 ∧ ¬ sink.isEmpty ∧
        sink.bytes = [7, 8, 9] ∧ (SinkCall.play others 0 .empty).2.2.bytes = [7, 8, 9] := by
  intro calls others
  have hcalls : ∀ e, .fail e ∉ calls := by simp [calls]
  have hothers : ∀ e, .fail e ∉ others := by simp [others]
  have hgift : ∀ e, .fail e ∉ calls.take 3 := fun e hmem => hcalls e (List.mem_of_mem_take hmem)
  obtain ⟨first, hfirst, -, howned, -⟩ := state_of_calls hgift
  obtain ⟨sink, hplay, -, -, happending, hlength, hempty, hbytes, hsame⟩ := state_of_calls hcalls
  refine ⟨hcalls, hothers, rfl, ?_, sink, ?_, ?_, hlength, ?_, hbytes, ?_⟩
  · have hrun := hfirst []
    rw [List.append_nil] at hrun
    rw [hrun]
    exact (howned []).2 rfl
  · have hrun := hplay []
    rw [List.append_nil] at hrun
    exact hrun
  · apply happending.2
    have hcounted : calls.filter counts = [.handOver [], .write [7], .handOver [8, 9]] := rfl
    rw [hcounted]
    simp
  · rw [hempty, hlength]
    decide
  · rw [hsame others hothers rfl, hbytes]
    rfl

end Capture

end WireBytes
