import Mathlib
import WireBytes.Proofs.Reader

/-!
# Reading to the end by single reads

Someone who reads a reader to its end chooses the size of every read. The choice does not show: the
reads come to an end, and what they have delivered by then, and how it ends, are always the same.

* `Readable.answers` — the answers to reads in a row; `Readable.Ends` — after which answer nobody
  reads on;
* `Readable.exists_answers` — the loop that reads to the end makes finitely many reads, and what it
  says of them is right;
* `Readable.run_bytes` — reading one byte at a time;
* `Reader.readToEnd_of_schedule` — every reader, with every schedule of sizes.
-/

namespace WireBytes

namespace Readable

variable {ρ : Type} [Readable ρ]

/-! ### Reads in a row -/

/-- The answers to `n` reads with the sizes `sizes k`, `sizes (k + 1)`, … -/
def answers (sizes : Nat → Nat) (k : Nat) (r : ρ) : Nat → List (Except IoError Bytes)
  | 0 => []
  | n + 1 => (read r (sizes k)).1 :: answers sizes (k + 1) (read r (sizes k)).2 n

/-- Nobody reads on after no bytes, or after a failure that is no interruption. -/
def Ends : Except IoError Bytes → Prop
  | .ok bs => bs = []
  | .error e => e.isInterrupted = false

/-- The bytes that an answer brings. -/
def broughtBy : Except IoError Bytes → Bytes
  | .ok bs => bs
  | .error _ => []

/-- The failure that an answer is. -/
def failure? : Except IoError Bytes → Option IoError
  | .ok _ => none
  | .error e => some e

/-- The loop stops at an answer after which nobody reads on. -/
theorem drain_of_ends {sizes : Nat → Nat} {k : Nat} {r next : ρ} {answer : Except IoError Bytes}
    (h : read r (sizes k) = (answer, next)) (hends : Ends answer) :
    (drain sizes k r).1 = ([], failure? answer) := by
  cases answer with
  | ok bs =>
    obtain rfl : bs = [] := hends
    rw [drain_of_end h]
    rfl
  | error e =>
    rw [drain_of_error h, show e.isInterrupted = false from hends]
    rfl

/-- Behind the bytes of any other answer it goes on. -/
theorem drain_of_not_ends {sizes : Nat → Nat} {k : Nat} {r next : ρ}
    {answer : Except IoError Bytes} (h : read r (sizes k) = (answer, next))
    (hgoes : ¬ Ends answer) :
    (drain sizes k r).1 =
      (broughtBy answer ++ (drain sizes (k + 1) next).1.1, (drain sizes (k + 1) next).1.2) := by
  cases answer with
  | ok bs =>
    obtain ⟨b, bs, rfl⟩ := List.exists_cons_of_ne_nil (show bs ≠ [] from hgoes)
    rw [drain_of_bytes h]
    rfl
  | error e =>
    have he : e.isInterrupted = true := by simpa [Ends] using hgoes
    rw [drain_of_error h, if_pos he]
    rfl

/-- **The loop over single reads ends.** It stops at the first answer after which nobody reads on,
    and gives the bytes that were brought before it, and the failure that it is. -/
theorem exists_answers (sizes : Nat → Nat) (k : Nat) (r : ρ) :
    ∃ before last, answers sizes k r (before.length + 1) = before ++ [last] ∧
      before.length ≤ weight r ∧ (∀ a ∈ before, ¬ Ends a) ∧ Ends last ∧
      (drain sizes k r).1 = (before.flatMap broughtBy, failure? last) := by
  -- Every read that is followed by another one makes the weight smaller.
  induction hw : weight r using Nat.strong_induction_on generalizing k r with
  | _ w ih =>
    have hless := weight_read r (sizes k)
    rcases hr : read r (sizes k) with ⟨answer, next⟩
    rw [hr, hw] at hless
    have hanswers (n : Nat) :
        answers sizes k r (n + 1) = answer :: answers sizes (k + 1) next n := by
      rw [answers, hr]
    by_cases hends : Ends answer
    · exact ⟨[], answer, hanswers 0, Nat.zero_le _, by simp, hends, drain_of_ends hr hends⟩
    · have hnext : weight next < w := by
        apply hless
        rintro rfl
        exact hends rfl
      obtain ⟨before, last, hrest, hcount, hgoes, hlast, hdrain⟩ := ih _ hnext (k + 1) next rfl
      refine ⟨answer :: before, last, ?_, ?_, ?_, hlast, ?_⟩
      · rw [List.length_cons, hanswers, hrest, List.cons_append]
      · exact Nat.le_trans (Nat.succ_le_succ hcount) hnext
      · exact List.forall_mem_cons.2 ⟨hends, hgoes⟩
      · rw [drain_of_not_ends hr hends, hdrain, List.flatMap_cons]

/-! ### One byte at a time -/

/-- At the end of the input there is no byte. -/
theorem readByte_of_end {r next : ρ} (h : read r 1 = (.ok [], next)) :
    readByte r = (.error .endOfInput, next) := by
  rw [readByte, readExact_of_end h]
  rfl

/-- A byte that a read delivers is the byte read. -/
theorem readByte_of_byte {r next : ρ} {b : UInt8} (h : read r 1 = (.ok [b], next)) :
    readByte r = (.ok b, next) := by
  rw [readByte, readExact_of_bytes h, List.length_nil, Nat.sub_zero, readExact_zero]
  rfl

/-- An interrupted read of a byte is made again. -/
theorem readByte_of_interrupted {r next : ρ} {e : IoError} (h : read r 1 = (.error e, next))
    (he : e.isInterrupted = true) : readByte r = readByte next := by
  rw [readByte, readExact_of_error h, if_pos he, readByte]

/-- Any other failure is handed on. -/
theorem readByte_of_failure {r next : ρ} {e : IoError} (h : read r 1 = (.error e, next))
    (he : e.isInterrupted = false) : readByte r = (.error e, next) := by
  rw [readByte, readExact_of_error h, he]
  rfl

theorem run_byte (r : ρ) (rest : List ReadStep) :
    (run r (.byte :: rest)).1 =
      ReadAnswer.ofByte (readByte r).1 :: (run (readByte r).2 rest).1 := rfl

/-- **Reading byte by byte.** Every byte that is delivered is read, and the read after the last one
    fails as the delivery does, or with the end of the input if it does not fail. -/
theorem run_bytes {f : ρ → Delivery}
    (hf : ∀ (r : ρ) (n : Nat), 0 < n → f r = resume (read r n).1 (f (read r n).2))
    (hlen : ∀ (r : ρ) (n : Nat) (bs : Bytes), (read r n).1 = .ok bs → bs.length ≤ n) (r : ρ) :
    (run r (List.replicate ((f r).1.length + 1) .byte)).1 =
      (f r).1.map ReadAnswer.byte ++ [.failed ((f r).2.getD .endOfInput)] := by
  -- An interruption uses up a read but no byte, so the induction is not on the bytes delivered.
  induction hw : weight r using Nat.strong_induction_on generalizing r with
  | _ w ih =>
    have hstep := hf r 1 Nat.one_pos
    have hless := weight_read r 1
    have hone := hlen r 1
    rcases hr : read r 1 with ⟨answer, next⟩
    rw [hr] at hstep hless hone
    match answer with
    | .ok [] =>
      rw [hstep, resume_end, List.length_nil, List.replicate_succ, run_byte, readByte_of_end hr]
      rfl
    | .ok (b :: bs) =>
      -- No read brings more than it was asked for.
      obtain rfl : bs = [] := List.length_eq_zero_iff.1 (by simpa using hone _ rfl)
      have hnext := ih _ (hw ▸ hless (by simp)) next rfl
      rw [hstep, resume_bytes, List.singleton_append, List.length_cons, List.replicate_succ,
        run_byte, readByte_of_byte hr, hnext]
      rfl
    | .error e =>
      have hnext := ih _ (hw ▸ hless (by simp)) next rfl
      rw [hstep, resume_error]
      cases he : e.isInterrupted with
      | true =>
        rw [List.replicate_succ, run_byte] at hnext
        rw [if_pos rfl, List.replicate_succ, run_byte, readByte_of_interrupted hr he, hnext]
      | false =>
        rw [if_neg Bool.false_ne_true, List.length_nil, List.replicate_succ, run_byte,
          readByte_of_failure hr he]
        rfl

end Readable

/-! ### The readers of the library -/

/-- A read of a script delivers no more than was asked for. -/
theorem ScriptStep.length_le_of_read {steps : List ScriptStep} {n : Nat} {bs : Bytes}
    (h : (read steps n).1 = .ok bs) : bs.length ≤ n := by
  match steps with
  | [] =>
    obtain rfl : [] = bs := Except.ok.inj h
    exact Nat.zero_le n
  | data piece :: steps =>
    obtain rfl : piece.take n = bs := Except.ok.inj h
    exact List.length_take_le n piece
  | fail e :: steps => cases h

namespace Reader

/-- No read brings more bytes than it was asked for. -/
theorem length_le_of_read {r : Reader} {n : Nat} {bs : Bytes} (h : (r.read n).1 = .ok bs) :
    bs.length ≤ n := by
  induction r with
  | memory data =>
    obtain rfl : data.take n = bs := Except.ok.inj h
    exact List.length_take_le n data
  | fragments f =>
    obtain rfl : (f.read n).1 = bs := Except.ok.inj h
    exact f.length_read_le n
  | cursor c =>
    obtain rfl : c.rest.take n = bs := Except.ok.inj h
    exact List.length_take_le n c.rest
  | script steps => exact ScriptStep.length_le_of_read h
  | chain first second done ihf ihs =>
    cases done with
    | true => exact ihs h
    | false =>
      obtain ⟨-, hread⟩ | ⟨-, -, hread⟩ := read_chain_cases first second n
      · rw [hread] at h
        exact ihf h
      · rw [hread] at h
        exact ihs h
  | layer inner ih => exact ih h

/-- **The sizes of the reads do not show.** Reads of any sizes above zero come to an end, and what
    they have brought by then, and the failure if that is the end, are what reading to the end
    gives. So does the loop that makes them. Behind a layer, read byte by byte, these bytes come one
    after another, and the next read fails: as reading to the end does, or with the end of the
    input. -/
theorem readToEnd_of_schedule (r : Reader) {sizes : Nat → Nat} (hpos : ∀ k, 0 < sizes k) :
    (∃ before last, Readable.answers sizes 0 r (before.length + 1) = before ++ [last] ∧
      (∀ a ∈ before, ¬ Readable.Ends a) ∧ Readable.Ends last ∧
      (before.flatMap Readable.broughtBy, Readable.failure? last) = (Readable.readToEnd r).1) ∧
    (Readable.drain sizes 0 r).1 = (Readable.readToEnd r).1 ∧
    (Readable.run (layer r) (List.replicate ((Readable.readToEnd r).1.1.length + 1) .byte)).1 =
      (Readable.readToEnd r).1.1.map ReadAnswer.byte ++
        [.failed ((Readable.readToEnd r).1.2.getD .endOfInput)] := by
  have hdrain : (Readable.drain sizes 0 r).1 = (Readable.readToEnd r).1 := by
    rw [r.drain_eq_delivers hpos, r.readToEnd_eq_delivers]
  refine ⟨?_, hdrain, ?_⟩
  · obtain ⟨before, last, hanswers, -, hgoes, hends, hloop⟩ := Readable.exists_answers sizes 0 r
    exact ⟨before, last, hanswers, hgoes, hends, hloop.symm.trans hdrain⟩
  · rw [r.readToEnd_eq_delivers]
    exact Readable.run_bytes (fun r _ hn => r.delivers_eq_resume hn)
      (fun _ _ _ => length_le_of_read) (layer r)

/-- Pieces with an empty one among them, and behind them a script that is interrupted and fails,
    read one byte and two bytes at a time. -/
theorem readToEnd_of_interrupted_chain :
    let late : IoError := ⟨.timedOut, "late"⟩
    let r : Reader := chain (fragments (.ofList [[1], [], [2, 3]]))
      (script [.fail ⟨.interrupted, "again"⟩, .data [4], .fail late]) false
    (∀ k, 0 < k % 2 + 1) ∧ (Readable.readToEnd r).1 = ([1, 2, 3, 4], some late) ∧
      (Readable.drain (fun k => k % 2 + 1) 0 r).1 = ([1, 2, 3, 4], some late) ∧
      (Readable.run (layer r) (List.replicate 5 .byte)).1 =
        [.byte 1, .byte 2, .byte 3, .byte 4, .failed late] := by
  intro late r
  have hpos : ∀ k, 0 < k % 2 + 1 := fun k => Nat.succ_pos _
  have hall : (Readable.readToEnd r).1 = ([1, 2, 3, 4], some late) := by
    rw [r.readToEnd_eq_delivers]
    decide
  obtain ⟨-, hdrain, hbytes⟩ := r.readToEnd_of_schedule hpos
  rw [hall] at hdrain hbytes
  exact ⟨hpos, hall, hdrain, hbytes⟩

end Reader

end WireBytes
