import Mathlib
import WireBytes.Reader

/-!
# What a reader delivers

Reading to the end gives the same bytes and the same ending with every schedule of sizes. What it
gives can be said without a loop:

* `Readable.resume` — what is delivered in all, from one answer and what comes after it;
  `Readable.drain_eq` — a description that obeys this law for every single read is what every
  schedule delivers;
* `Reader.delivers` — such a description, by recursion on the reader; `Reader.delivers_eq_resume` is
  the law for it, and `Reader.drain_eq_delivers` the consequence.
-/

namespace WireBytes

/-- The bytes that are delivered, and the failure if that is how it ends. -/
abbrev Delivery := Bytes × Option IoError

namespace Readable

/-- What is delivered in all, if a read answers so and this comes after it: no bytes are the end of
    the input, and an interrupted read counts for nothing. -/
def resume (answer : Except IoError Bytes) (rest : Delivery) : Delivery :=
  match answer with
  | .ok [] => ([], none)
  | .ok (b :: bs) => (b :: bs ++ rest.1, rest.2)
  | .error e => if e.isInterrupted then rest else ([], some e)

@[simp] theorem resume_end (rest : Delivery) : resume (.ok []) rest = ([], none) := rfl

@[simp] theorem resume_bytes (b : UInt8) (bs : Bytes) (rest : Delivery) :
    resume (.ok (b :: bs)) rest = (b :: bs ++ rest.1, rest.2) := rfl

@[simp] theorem resume_error (e : IoError) (rest : Delivery) :
    resume (.error e) rest = if e.isInterrupted then rest else ([], some e) := rfl

/-- A piece that is delivered by several reads: nothing left of it is not yet an end. -/
theorem resume_take {n : Nat} (hn : 0 < n) (bs : Bytes) (rest : Delivery) :
    resume (.ok bs) rest =
      resume (.ok (bs.take n))
        (if (bs.drop n).isEmpty then rest else resume (.ok (bs.drop n)) rest) := by
  cases bs with
  | nil => simp
  | cons b bs =>
    obtain ⟨n, rfl⟩ := Nat.exists_eq_succ_of_ne_zero (Nat.pos_iff_ne_zero.1 hn)
    rw [List.take_succ_cons, List.drop_succ_cons]
    have hsplit : bs.take n ++ bs.drop n = bs := List.take_append_drop n bs
    cases hd : bs.drop n with
    | nil =>
      rw [hd, List.append_nil] at hsplit
      rw [hsplit]
      rfl
    | cons b' bs' =>
      rw [hd] at hsplit
      -- Something is left, and so the piece goes on instead of what comes after it.
      rw [List.isEmpty_cons, if_neg Bool.false_ne_true, resume_bytes, resume_bytes, resume_bytes]
      rw [List.cons_append, List.cons_append, ← List.append_assoc, hsplit]

variable {ρ : Type} [Readable ρ]

/-- **All schedules deliver the same.** If what `f` says of a reader follows from any single read
    and from what `f` says of the reader after it, then every schedule of sizes above zero
    delivers what `f` says. -/
theorem drain_eq {f : ρ → Delivery}
    (hf : ∀ r n, 0 < n → f r = resume (read r n).1 (f (read r n).2)) {sizes : Nat → Nat}
    (hpos : ∀ k, 0 < sizes k) (k : Nat) (r : ρ) : (drain sizes k r).1 = f r := by
  -- The weight drops with every read that delivers or fails, which are those that are followed up.
  induction hw : weight r using Nat.strong_induction_on generalizing k r with
  | _ w ih =>
    have hstep := hf r (sizes k) (hpos k)
    have hless := weight_read r (sizes k)
    rcases hr : read r (sizes k) with ⟨answer, next⟩
    rw [hr] at hstep hless
    match answer with
    | .ok [] =>
      rw [drain_of_end hr, hstep]
      rfl
    | .ok (b :: bs) =>
      have hnext := ih _ (hw ▸ hless (by simp)) (k + 1) next rfl
      rw [drain_of_bytes hr, hstep, ← hnext]
      rfl
    | .error e =>
      have hnext := ih _ (hw ▸ hless (by simp)) (k + 1) next rfl
      rw [drain_of_error hr, hstep, resume_error, ← hnext]
      split <;> rfl

end Readable

/-! ### The readers of the library -/

open Readable (resume resume_take)

/-- One delivery and then another, unless the first has failed. -/
def Delivery.andThen (first second : Delivery) : Delivery :=
  match first.2 with
  | none => (first.1 ++ second.1, second.2)
  | some _ => first

/-- What is appended to a delivery is appended to the rest of it. -/
theorem Delivery.resume_andThen {answer : Except IoError Bytes} (h : answer ≠ .ok [])
    (rest second : Delivery) :
    (resume answer rest).andThen second = resume answer (rest.andThen second) := by
  obtain ⟨bytes, failure⟩ := rest
  match answer with
  | .ok [] => exact absurd rfl h
  | .ok (b :: bs) => cases failure <;> simp [andThen]
  | .error e =>
    rw [Readable.resume_error, Readable.resume_error]
    split <;> rfl

/-- What a script delivers. -/
def ScriptStep.delivers : List ScriptStep → Delivery
  | [] => ([], none)
  | data bs :: steps => resume (.ok bs) (delivers steps)
  | fail e :: steps => resume (.error e) (delivers steps)

/-- A read of a script comes before the rest of what it delivers. -/
theorem ScriptStep.delivers_eq_resume {n : Nat} (hn : 0 < n) (steps : List ScriptStep) :
    delivers steps = resume (read steps n).1 (delivers (read steps n).2) := by
  match steps with
  | [] => rfl
  | fail e :: steps => rfl
  | data bs :: steps =>
    rw [delivers, resume_take hn]
    show _ = resume (.ok (bs.take n))
      (delivers (if (bs.drop n).isEmpty then steps else data (bs.drop n) :: steps))
    split <;> rfl

namespace Fragments

/-- What a queue of pieces delivers: an empty piece would be its end. -/
def delivers (f : Fragments) : Delivery :=
  f.queue.foldr (fun piece => resume (.ok piece)) ([], none)

/-- A queue of pieces that are not empty delivers them all. -/
theorem delivers_of_nonempty {f : Fragments} (h : ∀ piece ∈ f.queue, piece ≠ []) :
    f.delivers = (f.content, none) := by
  obtain ⟨queue⟩ := f
  unfold delivers content
  induction queue with
  | nil => rfl
  | cons piece queue ih =>
    obtain ⟨b, bs, rfl⟩ := List.exists_cons_of_ne_nil (h piece List.mem_cons_self)
    rw [List.foldr_cons, ih fun p hp => h p (List.mem_cons_of_mem _ hp)]
    simp

/-- Fragments deliver the bytes of all pieces and do not fail. -/
theorem delivers_ofList (pieces : List Bytes) :
    (ofList pieces).delivers = (pieces.flatten, none) := by
  rw [delivers_of_nonempty fun _ => ne_nil_of_mem_ofList, content_ofList]

/-- A read of the first piece comes before the rest of what the queue delivers. -/
theorem delivers_eq_resume {n : Nat} (hn : 0 < n) (f : Fragments) :
    f.delivers = resume (.ok (f.read n).1) (f.read n).2.delivers := by
  obtain ⟨_ | ⟨first, others⟩⟩ := f
  · rfl
  · show resume (.ok first) (delivers ⟨others⟩) = resume (.ok (first.take n))
      (delivers ⟨if (first.drop n).isEmpty then others else first.drop n :: others⟩)
    rw [resume_take hn]
    split <;> rfl

end Fragments

namespace Reader

/-- What a reader delivers. -/
def delivers : Reader → Delivery
  | memory bs => (bs, none)
  | fragments f => f.delivers
  | cursor c => (c.rest, none)
  | script steps => ScriptStep.delivers steps
  | chain first second false => first.delivers.andThen second.delivers
  | chain _ second true => second.delivers
  | layer inner => inner.delivers

/-- Bytes up to the end of the input, read piece by piece. -/
theorem end_eq_resume {n : Nat} (hn : 0 < n) (bs : Bytes) :
    ((bs, none) : Delivery) = resume (.ok (bs.take n)) (bs.drop n, none) := by
  cases bs with
  | nil => simp
  | cons b bs =>
    obtain ⟨n, rfl⟩ := Nat.exists_eq_succ_of_ne_zero (Nat.pos_iff_ne_zero.1 hn)
    simp

/-- **The law of a single read.** -/
theorem delivers_eq_resume {n : Nat} (hn : 0 < n) (r : Reader) :
    r.delivers = resume (r.read n).1 (r.read n).2.delivers := by
  induction r with
  | memory bs => exact end_eq_resume hn bs
  | fragments f => exact f.delivers_eq_resume hn
  | cursor c =>
    -- The position moves by what was read, which may be less than what was asked for.
    have hleft : (c.read n).2.rest = c.rest.drop n := by
      apply @List.append_cancel_left _ (c.rest.take n)
      rw [List.take_append_drop]
      exact c.read_append_rest n
    show (c.rest, none) = resume (.ok (c.rest.take n)) ((c.read n).2.rest, none)
    rw [hleft]
    exact end_eq_resume hn c.rest
  | script steps => exact ScriptStep.delivers_eq_resume hn steps
  | chain first second done ihf ihs =>
    cases done with
    | true => exact ihs
    | false =>
      obtain ⟨hfirst, hread⟩ | ⟨hend, -, hread⟩ := read_chain_cases first second n
      · have hgoes : (first.read n).1 ≠ .ok [] :=
          hfirst.resolve_right (Nat.pos_iff_ne_zero.1 hn)
        rw [hread, delivers, ihf, Delivery.resume_andThen hgoes]
        rfl
      · -- The end of the first reader is not delivered: the same read goes on with the second.
        rw [hread, delivers, ihf, hend, Readable.resume_end]
        exact ihs
  | layer inner ih => exact ih

/-- **Every schedule delivers all that a reader has.** -/
theorem drain_eq_delivers {sizes : Nat → Nat} (hpos : ∀ k, 0 < sizes k) (k : Nat) (r : Reader) :
    (Readable.drain sizes k r).1 = r.delivers :=
  Readable.drain_eq (fun r _ hn => r.delivers_eq_resume hn) hpos k r

/-- So does reading to the end. -/
theorem readToEnd_eq_delivers (r : Reader) : (Readable.readToEnd r).1 = r.delivers :=
  r.drain_eq_delivers (fun _ => by decide) 0

end Reader

end WireBytes
