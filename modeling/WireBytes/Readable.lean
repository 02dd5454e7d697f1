import WireBytes.Bytes
import WireBytes.Error

/-!
# Reading piece by piece

A type is `Readable` if a bounded number of its bytes can be asked for at a time. A read may deliver
fewer bytes than asked for, and delivers none at the end of the input. The loops on top of it are
the same for every such type:

* `Readable.drain` reads with a schedule of sizes until the end or a failure, `readToEnd` with one
  fixed size;
* `Readable.readExact` reads until it has a given number of bytes, `readByte` until it has one;
* `Readable.perform` is one of these as a step, `Readable.run` a list of steps.

A failure of kind interrupted is no failure to the loops: they read again.
-/

namespace WireBytes

/-- What can be read piece by piece. -/
class Readable (ρ : Type) where
  /-- Reads up to a given number of bytes. -/
  read : ρ → Nat → Except IoError Bytes × ρ
  /-- A bound on the number of reads that can still deliver bytes or fail. -/
  weight : ρ → Nat
  weight_read : ∀ r n, (read r n).1 ≠ .ok [] → weight (read r n).2 < weight r

namespace Readable

variable {ρ : Type} [Readable ρ]

/-! ### Loops -/

/-- Reads with the sizes `sizes k`, `sizes (k + 1)`, … until nothing is delivered or a read fails:
    the bytes delivered, and the failure if there was one. -/
def drain (sizes : Nat → Nat) (k : Nat) (r : ρ) : (Bytes × Option IoError) × ρ :=
  match h : read r (sizes k) with
  | (.ok [], next) => (([], none), next)
  | (.ok (b :: bs), next) =>
    let ((more, failure), last) := drain sizes (k + 1) next
    ((b :: bs ++ more, failure), last)
  | (.error e, next) =>
    if e.isInterrupted then drain sizes (k + 1) next else (([], some e), next)
termination_by weight r
decreasing_by
  all_goals
    have smaller := weight_read r (sizes k)
    rw [h] at smaller
    exact smaller (by simp)

/-- The loop stops at the first read that delivers nothing. -/
theorem drain_of_end {sizes : Nat → Nat} {k : Nat} {r next : ρ}
    (h : read r (sizes k) = (.ok [], next)) : drain sizes k r = (([], none), next) := by
  unfold drain
  split <;> simp_all

/-- Behind what a read has delivered, the loop goes on with the next size. -/
theorem drain_of_bytes {sizes : Nat → Nat} {k : Nat} {r next : ρ} {b : UInt8} {bs : Bytes}
    (h : read r (sizes k) = (.ok (b :: bs), next)) :
    drain sizes k r =
      ((b :: bs ++ (drain sizes (k + 1) next).1.1, (drain sizes (k + 1) next).1.2),
        (drain sizes (k + 1) next).2) := by
  conv => lhs; unfold drain
  split <;> simp_all

/-- After an interrupted read the loop goes on with the next size, and any other failure ends it. -/
theorem drain_of_error {sizes : Nat → Nat} {k : Nat} {r next : ρ} {e : IoError}
    (h : read r (sizes k) = (.error e, next)) :
    drain sizes k r =
      if e.isInterrupted then drain sizes (k + 1) next else (([], some e), next) := by
  conv => lhs; unfold drain
  split <;> simp_all

/-- The size with which a reader is read to its end. -/
def chunkSize : Nat := 8192

/-- Reads to the end of the input: the bytes delivered, and the failure if there was one. -/
def readToEnd (r : ρ) : (Bytes × Option IoError) × ρ :=
  drain (fun _ => chunkSize) 0 r

/-- Reads exactly `n` bytes. If the input ends before that, all that was left is lost. -/
def readExact (r : ρ) : Nat → Except IoError Bytes × ρ
  | 0 => (.ok [], r)
  | n + 1 =>
    match h : read r (n + 1) with
    | (.ok [], next) => (.error .endOfInput, next)
    | (.ok (b :: bs), next) =>
      let (more, last) := readExact next (n - bs.length)
      (more.map (b :: bs ++ ·), last)
    | (.error e, next) => if e.isInterrupted then readExact next (n + 1) else (.error e, next)
termination_by weight r
decreasing_by
  all_goals
    have smaller := weight_read r (n + 1)
    rw [h] at smaller
    exact smaller (by simp)

@[simp] theorem readExact_zero (r : ρ) : readExact r 0 = (.ok [], r) := by
  unfold readExact
  rfl

/-- Where the input ends before all bytes are there, its end is the failure. -/
theorem readExact_of_end {n : Nat} {r next : ρ} (h : read r (n + 1) = (.ok [], next)) :
    readExact r (n + 1) = (.error .endOfInput, next) := by
  unfold readExact
  split <;> simp_all

/-- Behind what a read has delivered, only the bytes that are still missing are asked for. -/
theorem readExact_of_bytes {n : Nat} {r next : ρ} {b : UInt8} {bs : Bytes}
    (h : read r (n + 1) = (.ok (b :: bs), next)) :
    readExact r (n + 1) =
      ((readExact next (n - bs.length)).1.map (b :: bs ++ ·),
        (readExact next (n - bs.length)).2) := by
  conv => lhs; unfold readExact
  split <;> simp_all

/-- After an interrupted read as many bytes are asked for again, and any other failure is handed on.
    -/
theorem readExact_of_error {n : Nat} {r next : ρ} {e : IoError}
    (h : read r (n + 1) = (.error e, next)) :
    readExact r (n + 1) =
      if e.isInterrupted then readExact next (n + 1) else (.error e, next) := by
  conv => lhs; unfold readExact
  split <;> simp_all

/-- Reads one byte. -/
def readByte (r : ρ) : Except IoError UInt8 × ρ :=
  let (bytes, r) := readExact r 1
  (bytes.bind fun
    | b :: _ => .ok b
    | [] => .error .endOfInput, r)

end Readable

/-! ### Steps -/

/-- A step of someone who reads. -/
inductive ReadStep where
  | read (n : Nat)
  | exact (n : Nat)
  | all
  | byte
  deriving DecidableEq, Repr

/-- What comes of such a step. -/
inductive ReadAnswer where
  | bytes (got : Bytes)
  | byte (got : UInt8)
  | failed (e : IoError)
  /-- Reading to the end failed after some bytes. -/
  | failedAfter (got : Bytes) (e : IoError)
  deriving DecidableEq, Repr

/-- The answer to a read that delivers bytes or fails. -/
def ReadAnswer.ofBytes : Except IoError Bytes → ReadAnswer
  | .ok got => bytes got
  | .error e => failed e

/-- The answer to reading to the end. -/
def ReadAnswer.ofAll : Bytes × Option IoError → ReadAnswer
  | (got, none) => bytes got
  | (got, some e) => failedAfter got e

/-- The answer to reading one byte. -/
def ReadAnswer.ofByte : Except IoError UInt8 → ReadAnswer
  | .ok got => byte got
  | .error e => failed e

namespace Readable

variable {ρ : Type} [Readable ρ]

/-- Performs one step. -/
def perform (r : ρ) : ReadStep → ReadAnswer × ρ
  | .read n => let (a, r) := read r n; (.ofBytes a, r)
  | .exact n => let (a, r) := readExact r n; (.ofBytes a, r)
  | .all => let (a, r) := readToEnd r; (.ofAll a, r)
  | .byte => let (a, r) := readByte r; (.ofByte a, r)

/-- Performs steps in order. -/
def run (r : ρ) : List ReadStep → List ReadAnswer × ρ
  | [] => ([], r)
  | s :: rest =>
    let (a, r) := perform r s
    let (as, r) := run r rest
    (a :: as, r)

end Readable

end WireBytes
