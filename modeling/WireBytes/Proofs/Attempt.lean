import Mathlib
import WireBytes.Proofs.Capture
import WireBytes.Proofs.Source

/-!
# Sources that are not trusted

A capture believes nothing that a source says. Whatever calls the source makes on the sink, all that
it passes is captured in order, and what it reports is compared with that.

* `WritesOut.captures` — capturing what something writes time and again;
* `Attempt` — what it does when it is asked to: the calls that it makes, and how it ends;
  `Attempt.outcome` — what has to come of that;
* `SinkCall.play_append` — what calls do to a sink, from `SinkCall.play_after`;
* `Source.exists_makesAll` — the sources of the library do nothing else than make attempts;
* `WritesOut.captures_of_makesAll` — captures in a row.
-/

namespace WireBytes

/-! ### Captures in a row -/

namespace WritesOut

variable {σ : Type} [WritesOut σ]

/-- Captures so many times in a row. -/
def captures (s : σ) : Nat → List (Except Error Bytes) × σ
  | 0 => ([], s)
  | k + 1 => ((capture s).1 :: (captures (capture s).2 k).1, (captures (capture s).2 k).2)

end WritesOut

/-- The sources of the library are captured so. -/
theorem Source.capture_eq (s : Source) : s.capture = WritesOut.capture s := rfl

/-! ### Calls on a sink -/

namespace SinkCall

/-- **Several calls.** The sink gets all bytes passed in the order of the calls, and their number is
    what is counted. -/
theorem play_append {calls : List SinkCall} (h : ∀ e, fail e ∉ calls) (sink : Capture) :
    ∃ next : Capture, next.bytes = sink.bytes ++ calls.flatMap passed ∧
      ∀ later count, play (calls ++ later) count sink =
        play later (count + (calls.flatMap passed).length) next := by
  -- Only the bytes of a state matter here, and not the calls that it comes from.
  obtain ⟨made, rfl⟩ := sink.exists_after
  refine ⟨.after (made ++ calls.filter counts), ?_, play_after h made⟩
  rw [Capture.bytes_after, Capture.bytes_after, List.flatMap_append, flatMap_passed_filter]

/-- Giving chunks away one by one. -/
theorem play_map_handOver (chunks : List Bytes) (count : Nat) (sink : Capture) :
    play (chunks.map handOver) count sink =
      (.ok (count + Bytes.totalLength chunks), [], (sink.adoptAll chunks).2) := by
  induction chunks generalizing count sink with
  | nil => rfl
  | cons chunk chunks ih =>
    show play (chunks.map handOver) (count + chunk.length) (sink.adopt chunk).2 = _
    rw [ih, Nat.add_assoc]
    rfl

/-- The calls of a script up to the first failure in it, if there is one. -/
theorem unfailing_or_split (calls : List SinkCall) :
    (∀ e, fail e ∉ calls) ∨ ∃ before e later, calls = before ++ fail e :: later ∧
      ∀ e', fail e' ∉ before := by
  induction calls with
  | nil => exact .inl fun _ => List.not_mem_nil
  | cons c calls ih =>
    by_cases hc : ∃ e, c = fail e
    · obtain ⟨e, rfl⟩ := hc
      exact .inr ⟨[], e, calls, rfl, fun _ => List.not_mem_nil⟩
    · have hhead : ∀ e, fail e ≠ c := fun e he => hc ⟨e, he.symm⟩
      rcases ih with hnone | ⟨before, e, later, rfl, hbefore⟩
      · exact .inl fun e => List.not_mem_cons_of_ne_of_not_mem (hhead e) (hnone e)
      · exact .inr ⟨c :: before, e, later, rfl,
          fun e' => List.not_mem_cons_of_ne_of_not_mem (hhead e') (hbefore e')⟩

end SinkCall

/-! ### Attempts -/

/-- What something does when it is asked to write itself out: it makes calls, and then it fails or
    reports a number of bytes. -/
structure Attempt where
  calls : List SinkCall
  /-- Failing is no call. -/
  unfailing : ∀ e, .fail e ∉ calls
  ending : Except IoError Nat

namespace Attempt

/-- All bytes passed, in the order of the calls. -/
def passed (a : Attempt) : Bytes :=
  a.calls.flatMap SinkCall.passed

/-- A new sink after the calls. -/
def sink (a : Attempt) : Capture :=
  (SinkCall.play a.calls 0 .empty).2.2

/-- The report is the sum of what the calls have returned, where a call that writes all of a slice
    counts for the length of the slice. -/
def Honest (a : Attempt) : Prop :=
  a.ending = (SinkCall.play a.calls 0 .empty).1

/-- What has to come of an attempt: the failure, or the bytes passed if as many were reported, or
    else the miscount. -/
def outcome (a : Attempt) : Except Error Bytes :=
  match a.ending with
  | .error e => .error (.io e)
  | .ok n => if n = a.passed.length then .ok a.passed else .error (.miscount n a.passed.length)

/-- The new sink has all bytes passed, and their number was counted. -/
theorem play_calls (a : Attempt) :
    SinkCall.play a.calls 0 .empty = (.ok a.passed.length, [], a.sink) ∧
      a.sink.bytes = a.passed := by
  obtain ⟨next, hnext, hplay⟩ := SinkCall.play_append a.unfailing .empty
  have h := hplay [] 0
  rw [List.append_nil, Nat.zero_add] at h
  rw [sink, h]
  exact ⟨rfl, hnext⟩

/-- An honest report is believed. -/
theorem Honest.outcome_eq {a : Attempt} (h : a.Honest) : a.outcome = .ok a.passed := by
  have hending : a.ending = .ok a.passed.length := by rw [h, a.play_calls.1]
  rw [outcome, hending]
  exact if_pos rfl

end Attempt

namespace WritesOut

variable {σ : Type} [WritesOut σ] {s next last : σ}

/-- Asked to write itself out into a new sink, `s` makes this attempt, and `next` is left. -/
def Makes (s : σ) (a : Attempt) (next : σ) : Prop :=
  writeOut s .empty = (a.ending, next, a.sink)

/-- Asked time and again, `s` makes these attempts in order, and `last` is left. -/
inductive MakesAll : σ → List Attempt → σ → Prop
  | nil (s : σ) : MakesAll s [] s
  | cons {s next last : σ} {a : Attempt} {rest : List Attempt} (hmakes : Makes s a next)
      (hrest : MakesAll next rest last) : MakesAll s (a :: rest) last

/-- **One attempt.** The sink is a new one, so nothing of an earlier attempt is in it. -/
theorem capture_of_makes {a : Attempt} (h : Makes s a next) : capture s = (a.outcome, next) := by
  have hbytes : a.sink.bytes = a.passed := a.play_calls.2
  have hlength : a.sink.length = a.passed.length := by
    rw [Capture.length_eq_length_bytes, hbytes]
  rw [capture, show writeOut s .empty = (a.ending, next, a.sink) from h, Attempt.outcome]
  cases a.ending with
  | error e => rfl
  | ok n =>
    simp only [hbytes, hlength]
    split <;> rfl

end WritesOut

/-! ### The sources of the library -/

namespace Source

open WritesOut (Makes MakesAll)

theorem makes_iff {s next : Source} {a : Attempt} :
    Makes s a next ↔ s.writeOut .empty = (a.ending, next, a.sink) := Iff.rfl

/-- A script that fails after some calls keeps the calls behind the failure for the next time. -/
theorem makes_script_fail {calls : List SinkCall} (h : ∀ e, .fail e ∉ calls) (e : IoError)
    (later : List SinkCall) (report : Option Nat) :
    Makes (script (calls ++ .fail e :: later) report) ⟨calls, h, .error e⟩
      (script later report) := by
  obtain ⟨next, -, hplay⟩ := SinkCall.play_append h .empty
  have hcalls := hplay [] 0
  have hfails := hplay (.fail e :: later) 0
  rw [List.append_nil] at hcalls
  rw [makes_iff, writeOut, hfails, Attempt.sink, hcalls]
  rfl

/-- A script that comes to its end without a failure. -/
theorem makes_script {calls : List SinkCall} (h : ∀ e, .fail e ∉ calls) (report : Option Nat) :
    Makes (script calls report)
      ⟨calls, h, .ok (report.getD (calls.flatMap SinkCall.passed).length)⟩
      (script [] report) := by
  have hcalls := (Attempt.mk calls h (.ok 0)).play_calls.1
  rw [makes_iff, writeOut, hcalls]
  rfl

/-- Every source makes an attempt when it is asked to write itself out. -/
theorem exists_makes (s : Source) : ∃ a next, Makes s a next := by
  cases s with
  | cursor c =>
    exact ⟨⟨[.handOver c.rest], by simp, .ok c.rest.length⟩, cursor c.takeRest.2, rfl⟩
  | fragments f =>
    refine ⟨⟨f.queue.map .handOver, by simp, .ok (Bytes.totalLength f.queue)⟩,
      fragments ⟨[]⟩, ?_⟩
    rw [makes_iff, writeOut, Attempt.sink, SinkCall.play_map_handOver, ← Capture.fst_adoptAll .empty]
  | script calls report =>
    rcases SinkCall.unfailing_or_split calls with h | ⟨before, e, later, rfl, h⟩
    · exact ⟨_, _, makes_script h report⟩
    · exact ⟨_, _, makes_script_fail h e later report⟩

/-- Every source makes as many attempts as it is asked for. -/
theorem exists_makesAll (s : Source) (k : Nat) :
    ∃ attempts last, attempts.length = k ∧ MakesAll s attempts last := by
  induction k generalizing s with
  | zero => exact ⟨[], s, rfl, .nil s⟩
  | succ k ih =>
    obtain ⟨a, next, hmakes⟩ := s.exists_makes
    obtain ⟨rest, last, rfl, hrest⟩ := ih next
    exact ⟨a :: rest, last, rfl, .cons hmakes hrest⟩

end Source

namespace WritesOut

variable {σ : Type} [WritesOut σ] {s last : σ}

/-- **No source is trusted.** Whatever attempts something makes when it is asked to write itself out
    time and again, each capture comes to what has to come of its own attempt: the failure, or all
    bytes passed if their number was reported, or else the miscount. An honest report is always
    believed. The captures of the sources of the library are such captures. -/
theorem captures_of_makesAll {attempts : List Attempt} (h : MakesAll s attempts last) :
    captures s attempts.length = (attempts.map Attempt.outcome, last) ∧
      (∀ a ∈ attempts, a.Honest → a.outcome = .ok a.passed) ∧
      ∀ x : Source, x.capture = capture x := by
  refine ⟨?_, fun a _ => Attempt.Honest.outcome_eq, Source.capture_eq⟩
  -- What one capture leaves is what the next attempt is made by.
  induction h with
  | nil s => rfl
  | cons hmakes hrest ih =>
    rw [List.length_cons, captures, capture_of_makes hmakes, ih]
    rfl

/-- A script that fails, then reports what it wrote, and then reports the same again although it has
    nothing left to write. What it gave away before the failure is not seen any more. -/
theorem captures_of_failing_script :
    let e : IoError := ⟨.brokenPipe, "gone"⟩
    let calls : List SinkCall := [.write [2], .writeAll [], .flush, .handOver [3, 4]]
    let s : Source := .script (.handOver [1] :: .fail e :: calls) (some 3)
    ∃ attempts, MakesAll s attempts (.script [] (some 3)) ∧ attempts.length = 3 ∧
      captures s 3 =
        ([.error (.io e), .ok [2, 3, 4], .error (.miscount 3 0)], .script [] (some 3)) ∧
      s.capture.1 = .error (.io e) := by
  intro e calls s
  have hgift : ∀ e', SinkCall.fail e' ∉ [SinkCall.handOver [1]] := by simp
  have hcalls : ∀ e', SinkCall.fail e' ∉ calls := by simp [calls]
  have hfails : Makes s ⟨[.handOver [1]], hgift, .error e⟩ (.script calls (some 3)) :=
    Source.makes_script_fail hgift e calls (some 3)
  have hreports : Makes (Source.script calls (some 3)) ⟨calls, hcalls, .ok 3⟩
      (.script [] (some 3)) := Source.makes_script hcalls (some 3)
  have hagain : Makes (Source.script [] (some 3)) ⟨[], by simp, .ok 3⟩ (.script [] (some 3)) :=
    Source.makes_script (by simp) (some 3)
  have h := MakesAll.cons hfails (.cons hreports (.cons hagain (.nil _)))
  obtain ⟨hcaptures, -, hsource⟩ := captures_of_makesAll h
  refine ⟨_, h, rfl, hcaptures, ?_⟩
  rw [hsource, capture_of_makes hfails]
  rfl

end WritesOut

end WireBytes
