import Mathlib
import WireBytes.Message
import WireBytes.Proofs.Fragments

/-!
# Reading whole values

Someone who asks for whole values, so many bytes or all that are left, does not see how the bytes of
a message are divided. A value may be put together of several short reads where the pieces of the
message end, or be read at once: what comes of it is the same.

* `WholeRead` — a step that asks for a whole value; `WholeRead.serve` and `WholeRead.serveAll` say
  what such steps come to if the bytes are plainly a list;
* `Readable.Steady` — the law of a single read that all of this rests on;
  `Readable.Steady.readExact` and `Readable.Steady.drain` — the loops over such reads,
  `Readable.Steady.run` — any steps;
* `Reader.Holds` — the readers of messages that obey the law;
* `Message.run_wholeReads` — the steps at the readers of two messages of the same bytes.
-/

namespace WireBytes

/-! ### Steps at plain bytes -/

/-- A step that asks for a whole value. -/
inductive WholeRead where
  /-- Exactly so many bytes. -/
  | exact (n : Nat)
  | byte
  /-- All bytes that are left. -/
  | all
  deriving DecidableEq, Repr

/-- The bytes that an answer brings. -/
def ReadAnswer.got : ReadAnswer → Bytes
  | bytes got => got
  | byte b => [b]
  | failed _ => []
  | failedAfter got _ => got

/-- The first `n` of the bytes left, and those after them. If there are fewer than `n`, they are
    lost, and the failure is the end of the input. -/
def Bytes.exactly (n : Nat) (left : Bytes) : Except IoError Bytes × Bytes :=
  if n ≤ left.length then (.ok (left.take n), left.drop n) else (.error .endOfInput, [])

namespace WholeRead

/-- The step that a reader performs. -/
def step : WholeRead → ReadStep
  | exact n => .exact n
  | byte => .byte
  | all => .all

/-- The answer to a step, and the bytes left after it. -/
def serve (left : Bytes) : WholeRead → ReadAnswer × Bytes
  | exact n => (.ofBytes (Bytes.exactly n left).1, (Bytes.exactly n left).2)
  | byte =>
    match left with
    | b :: rest => (.byte b, rest)
    | [] => (.failed .endOfInput, [])
  | all => (.bytes left, [])

/-- The answers to steps in order, and the bytes left after them. -/
def serveAll (left : Bytes) : List WholeRead → List ReadAnswer × Bytes
  | [] => ([], left)
  | s :: rest =>
    ((serve left s).1 :: (serveAll (serve left s).2 rest).1, (serveAll (serve left s).2 rest).2)

/-- What a step brings is the beginning of the bytes left. If it fails nothing is left after it, and
    otherwise all that it did not bring. -/
theorem got_serve (left : Bytes) (s : WholeRead) :
    (serve left s).1.got ++ (serve left s).2 = left ∨
      (serve left s).1 = .failed .endOfInput ∧ (serve left s).2 = [] := by
  cases s with
  | exact n =>
    by_cases hn : n ≤ left.length
    · left
      simp [serve, Bytes.exactly, hn, ReadAnswer.ofBytes, ReadAnswer.got]
    · right
      simp [serve, Bytes.exactly, hn, ReadAnswer.ofBytes]
  | byte =>
    cases left with
    | nil => exact .inr ⟨rfl, rfl⟩
    | cons b rest => exact .inl rfl
  | all => exact .inl (List.append_nil left)

/-- What several steps bring, in order, is the beginning of the bytes left. -/
theorem got_serveAll (left : Bytes) (steps : List WholeRead) :
    (serveAll left steps).1.flatMap ReadAnswer.got <+: left := by
  induction steps generalizing left with
  | nil => exact List.nil_prefix
  | cons s rest ih =>
    have hrest := ih (serve left s).2
    rw [serveAll, List.flatMap_cons]
    rcases got_serve left s with hgot | ⟨hfailed, hnone⟩
    · -- The later steps bring the beginning of what this one has left.
      conv => rhs; rw [← hgot]
      exact (List.prefix_append_right_inj _).2 hrest
    · rw [hnone] at hrest ⊢
      rw [hfailed, List.prefix_nil.1 hrest]
      exact List.nil_prefix

end WholeRead

/-- Some bytes and then exactly `n` are exactly so many more. -/
theorem Bytes.exactly_append (got rest : Bytes) (n : Nat) :
    exactly (got.length + n) (got ++ rest) =
      ((exactly n rest).1.map (got ++ ·), (exactly n rest).2) := by
  unfold exactly
  rw [List.length_append]
  by_cases hn : n ≤ rest.length
  · rw [if_pos hn, if_pos (by omega), List.take_length_add_append, List.drop_length_add_append]
    rfl
  · rw [if_neg hn, if_neg (by omega)]
    rfl

/-! ### Loops over single reads -/

namespace Readable

variable {ρ : Type} [Readable ρ] {Left : ρ → Bytes → Prop}

/-- Which bytes are left in a reader, such that every read of one byte or more delivers some of them
    from the front, and nothing only if nothing is left. No read fails. -/
def Steady (Left : ρ → Bytes → Prop) : Prop :=
  ∀ r left n, Left r left → 0 < n →
    ∃ got rest next, read r n = (.ok got, next) ∧ Left next rest ∧ got ++ rest = left ∧
      got.length ≤ n ∧ (got = [] → left = [])

namespace Steady

variable (hsteady : Steady Left) {r : ρ} {left : Bytes}

include hsteady

/-- Asking for exactly `n` bytes, by as many reads as it takes. -/
theorem readExact (h : Left r left) (n : Nat) :
    ∃ next, Readable.readExact r n = ((Bytes.exactly n left).1, next) ∧
      Left next (Bytes.exactly n left).2 := by
  -- Every read that delivers something leaves fewer bytes to ask for.
  induction n using Nat.strong_induction_on generalizing r left with
  | _ n ih =>
    cases n with
    | zero => exact ⟨r, by simp [Bytes.exactly], by simpa [Bytes.exactly] using h⟩
    | succ n =>
      obtain ⟨got, rest, next, hread, hnext, rfl, hlen, hend⟩ := hsteady r left (n + 1) h n.succ_pos
      cases got with
      | nil =>
        obtain rfl : rest = [] := hend rfl
        exact ⟨next, readExact_of_end hread, hnext⟩
      | cons b bs =>
        rw [List.length_cons] at hlen
        have hmore : n + 1 = (b :: bs).length + (n - bs.length) := by
          rw [List.length_cons]
          omega
        obtain ⟨last, hrest, hlast⟩ := ih (n - bs.length) (by omega) hnext
        refine ⟨last, ?_, ?_⟩
        · rw [readExact_of_bytes hread, hrest, hmore, Bytes.exactly_append]
        · rw [hmore, Bytes.exactly_append]
          exact hlast

/-- Asking for all bytes, with any sizes of the reads. -/
theorem drain (h : Left r left) {sizes : Nat → Nat} (hpos : ∀ k, 0 < sizes k) (k : Nat) :
    ∃ next, Readable.drain sizes k r = ((left, none), next) ∧ Left next [] := by
  induction hw : left.length using Nat.strong_induction_on generalizing k r left with
  | _ w ih =>
    obtain ⟨got, rest, next, hread, hnext, rfl, -, hend⟩ := hsteady r left (sizes k) h (hpos k)
    cases got with
    | nil =>
      obtain rfl : rest = [] := hend rfl
      exact ⟨next, drain_of_end hread, hnext⟩
    | cons b bs =>
      have hless : rest.length < w := by
        rw [← hw, List.length_append, List.length_cons]
        omega
      obtain ⟨last, hrest, hlast⟩ := ih rest.length hless hnext (k + 1) rfl
      exact ⟨last, by rw [drain_of_bytes hread, hrest], hlast⟩

/-- **One step.** It gets the answer that the bytes left give. -/
theorem perform (h : Left r left) (s : WholeRead) :
    ∃ next, Readable.perform r s.step = ((s.serve left).1, next) ∧ Left next (s.serve left).2 := by
  cases s with
  | exact n =>
    obtain ⟨next, hexact, hnext⟩ := hsteady.readExact h n
    exact ⟨next, by rw [WholeRead.step, Readable.perform, hexact]; rfl, hnext⟩
  | byte =>
    obtain ⟨next, hexact, hnext⟩ := hsteady.readExact h 1
    rw [WholeRead.step, Readable.perform, readByte, hexact]
    -- One byte is the first of those left, if there is one.
    cases left with
    | nil => exact ⟨next, rfl, hnext⟩
    | cons b rest => exact ⟨next, rfl, by simpa [Bytes.exactly, WholeRead.serve] using hnext⟩
  | all =>
    have hpos : 0 < chunkSize := by decide
    obtain ⟨next, hdrain, hnext⟩ := hsteady.drain h (fun _ => hpos) 0
    exact ⟨next, by rw [WholeRead.step, Readable.perform, readToEnd, hdrain]; rfl, hnext⟩

/-- **Steps in order.** They get the answers that the bytes left give. -/
theorem run (h : Left r left) (steps : List WholeRead) :
    ∃ last, Readable.run r (steps.map WholeRead.step) =
        ((WholeRead.serveAll left steps).1, last) ∧
      Left last (WholeRead.serveAll left steps).2 := by
  induction steps generalizing r left with
  | nil => exact ⟨r, rfl, h⟩
  | cons s rest ih =>
    obtain ⟨next, hstep, hnext⟩ := hsteady.perform h s
    obtain ⟨last, hrest, hlast⟩ := ih hnext
    refine ⟨last, ?_, hlast⟩
    rw [List.map_cons, Readable.run, hstep]
    show (_ :: (Readable.run next _).1, (Readable.run next _).2) = _
    rw [hrest]
    rfl

end Steady

end Readable

/-! ### The readers of messages -/

namespace Reader

/-- A reader made of a message, with the bytes left in it. -/
inductive Holds : Reader → Bytes → Prop
  | memory (bs : Bytes) : Holds (memory bs) bs
  | fragments {f : Fragments} (h : ∀ piece ∈ f.queue, piece ≠ []) : Holds (fragments f) f.content
  | layer {r : Reader} {left : Bytes} (h : Holds r left) : Holds (layer r) left

/-- Every read takes some of the bytes that are held, and the others are still held afterwards. -/
theorem steady_holds : Readable.Steady Holds := by
  intro r left n h hn
  induction h with
  | memory bs =>
    exact ⟨bs.take n, bs.drop n, memory (bs.drop n), rfl, .memory _, List.take_append_drop n bs,
      List.length_take_le n bs, Bytes.eq_nil_of_take hn⟩
  | @fragments f h =>
    obtain ⟨hend, hnext⟩ := Fragments.read_of_nonempty h hn
    exact ⟨(f.read n).1, _, fragments (f.read n).2, rfl, .fragments hnext,
      f.read_append_content n, f.length_read_le n, hend⟩
  | @layer r left h ih =>
    obtain ⟨got, rest, next, hread, hnext, happend⟩ := ih
    refine ⟨got, rest, .layer next, ?_, .layer hnext, happend⟩
    show ((r.read n).1, layer (r.read n).2) = _
    rw [show r.read n = (.ok got, next) from hread]

end Reader

namespace Message

/-- A message that is no reader has a reader of all its bytes. -/
theorem exists_holds {m : Message} {bs : Bytes} (h : ∀ r, m ≠ reader r)
    (hbytes : m.toBytes = .ok bs) : ∃ r, m.toLayeredReader = .ok r ∧ r.Holds bs := by
  cases m with
  | bytes b =>
    obtain rfl : b = bs := Except.ok.inj hbytes
    exact ⟨_, rfl, .layer (.memory b)⟩
  | fragments pieces =>
    -- The queue is built without the empty pieces, which would look like the end of the bytes.
    obtain rfl : pieces.flatten = bs := Except.ok.inj hbytes
    refine ⟨_, rfl, .layer ?_⟩
    rw [← Fragments.content_ofList]
    exact .fragments fun _ => Fragments.ne_nil_of_mem_ofList
  | text s =>
    obtain rfl : Bytes.utf8 s = bs := Except.ok.inj hbytes
    exact ⟨_, rfl, .layer (.memory _)⟩
  | buffer b =>
    obtain rfl : b.bytes = bs := Except.ok.inj hbytes
    exact ⟨_, rfl, .layer (.memory _)⟩
  | writer s =>
    have hcapture : s.capture.1 = .ok bs := hbytes
    refine ⟨_, ?_, .layer (.memory bs)⟩
    rw [toLayeredReader, toReader, hcapture]
    rfl
  | reader r => exact absurd rfl (h r)
  | unsupported typeName => cases hbytes

/-- **Whole values do not show how a message is divided.** Two messages that are no readers and have
    the same bytes get the same answers, whatever whole values are asked for: those that the bytes
    give as a list. What is brought in order is the beginning of the bytes. A step fails, with the
    end of the input, exactly if it asks for more bytes than are left, and nothing is left then. -/
theorem run_wholeReads {m₁ m₂ : Message} {bs : Bytes} (h₁ : ∀ r, m₁ ≠ reader r)
    (h₂ : ∀ r, m₂ ≠ reader r) (hbytes₁ : m₁.toBytes = .ok bs) (hbytes₂ : m₂.toBytes = .ok bs)
    (steps : List WholeRead) :
    ∃ r₁ r₂ answers last₁ last₂,
      m₁.toLayeredReader = .ok r₁ ∧ m₂.toLayeredReader = .ok r₂ ∧
      Readable.run r₁ (steps.map WholeRead.step) = (answers, last₁) ∧
      Readable.run r₂ (steps.map WholeRead.step) = (answers, last₂) ∧
      answers = (WholeRead.serveAll bs steps).1 ∧ answers.flatMap ReadAnswer.got <+: bs := by
  obtain ⟨r₁, hreader₁, hholds₁⟩ := exists_holds h₁ hbytes₁
  obtain ⟨r₂, hreader₂, hholds₂⟩ := exists_holds h₂ hbytes₂
  obtain ⟨last₁, hrun₁, -⟩ := Reader.steady_holds.run hholds₁ steps
  obtain ⟨last₂, hrun₂, -⟩ := Reader.steady_holds.run hholds₂ steps
  exact ⟨r₁, r₂, _, last₁, last₂, hreader₁, hreader₂, hrun₁, hrun₂, rfl,
    WholeRead.got_serveAll bs steps⟩

/-- Pieces with an empty one among them, and a source that hands over, writes, and writes all. The
    second value begins in one piece and ends in another, and the fourth asks for too much. -/
theorem run_wholeReads_of_pieces :
    let m₁ : Message := fragments [[1], [], [2, 3], [4, 5]]
    let m₂ : Message := writer (.script [.handOver [1, 2], .write [3], .writeAll [4, 5]] none)
    let steps : List WholeRead := [.byte, .exact 3, .exact 0, .exact 2, .byte, .all]
    (∀ r, m₁ ≠ reader r) ∧ (∀ r, m₂ ≠ reader r) ∧ m₁.toBytes = .ok [1, 2, 3, 4, 5] ∧
      m₂.toBytes = .ok [1, 2, 3, 4, 5] ∧ ∃ r₁ r₂ answers last₁ last₂,
        m₁.toLayeredReader = .ok r₁ ∧ m₂.toLayeredReader = .ok r₂ ∧
        Readable.run r₁ (steps.map WholeRead.step) = (answers, last₁) ∧
        Readable.run r₂ (steps.map WholeRead.step) = (answers, last₂) ∧
        answers = [.byte 1, .bytes [2, 3, 4], .bytes [], .failed .endOfInput,
          .failed .endOfInput, .bytes []] := by
  intro m₁ m₂ steps
  have h₁ : ∀ r, m₁ ≠ reader r := by
    intro r
    simp [m₁]
  have h₂ : ∀ r, m₂ ≠ reader r := by
    intro r
    simp [m₂]
  have hbytes₁ : m₁.toBytes = .ok [1, 2, 3, 4, 5] := by decide
  have hbytes₂ : m₂.toBytes = .ok [1, 2, 3, 4, 5] := by decide
  obtain ⟨r₁, r₂, answers, last₁, last₂, hreader₁, hreader₂, hrun₁, hrun₂, hanswers, -⟩ :=
    run_wholeReads h₁ h₂ hbytes₁ hbytes₂ steps
  exact ⟨h₁, h₂, hbytes₁, hbytes₂, r₁, r₂, answers, last₁, last₂, hreader₁, hreader₂, hrun₁, hrun₂,
    hanswers⟩

end Message

end WireBytes
