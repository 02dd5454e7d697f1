import Mathlib
import WireBytes.Message
import WireBytes.Proofs.Reader

/-!
# The two ways to the bytes of a message

All bytes of a message can be taken at once, or a reader can be made of it and read to its end.

* `Message.toBytes_eq_bind_delivers` — the first is what the reader of the second delivers;
* `Message.toBytes_eq_read_toReader` — so the two agree, failures included, whatever the sizes of
  the reads are, and nothing is lost if the reader is made a message again.
-/

namespace WireBytes

/-- The bytes, if they were delivered without a failure. -/
def Delivery.outcome : Delivery → Except Error Bytes
  | (bs, none) => .ok bs
  | (_, some e) => .error (.io e)

@[simp] theorem Delivery.outcome_ok (bs : Bytes) : outcome (bs, none) = .ok bs := rfl

theorem Reader.allBytes_eq_outcome (r : Reader) : r.allBytes = r.delivers.outcome := by
  rw [← r.readToEnd_eq_delivers]
  rfl

namespace Message

/-- A message gives the bytes that its reader delivers. -/
theorem toBytes_eq_bind_delivers (m : Message) :
    m.toBytes = m.toReader.bind fun r => r.delivers.outcome := by
  cases m with
  | bytes bs => rfl
  | fragments pieces =>
    -- The pieces are joined on one way and read one by one on the other.
    show .ok pieces.flatten = (Fragments.ofList pieces).delivers.outcome
    rw [Fragments.delivers_ofList, Delivery.outcome_ok]
  | text s => rfl
  | buffer b => rfl
  | writer s =>
    show s.capture.1 = (s.capture.1.map Reader.memory).bind _
    cases s.capture.1 <;> rfl
  | reader r => exact r.allBytes_eq_outcome
  | unsupported typeName => rfl

/-- **Both ways to the bytes agree.** Taking all bytes of a message is the same as making a reader
    of it and reading that to its end: an error of making the reader is the error that is given,
    and a failure of a read is given as an error of input and output. The sizes of the reads do not
    matter as long as none is zero, and the reader made a message again has the same bytes. This
    holds of every message, so also of one whose reader is put together of readers of others. -/
theorem toBytes_eq_read_toReader (m : Message) :
    (m.toBytes = m.toReader.bind fun r => Delivery.outcome (Readable.readToEnd r).1) ∧
      (∀ r, m.toReader = .ok r → (reader r).toBytes = m.toBytes) ∧
      ∀ sizes : Nat → Nat, (∀ k, 0 < sizes k) →
        m.toBytes = m.toReader.bind fun r => Delivery.outcome (Readable.drain sizes 0 r).1 := by
  have hbytes := m.toBytes_eq_bind_delivers
  refine ⟨?_, fun r hr => ?_, fun sizes hpos => ?_⟩
  · rw [hbytes]
    congr 1
    funext r
    rw [r.readToEnd_eq_delivers]
  · rw [hbytes, hr]
    exact r.allBytes_eq_outcome
  · rw [hbytes]
    congr 1
    funext r
    rw [r.drain_eq_delivers hpos]

/-- The pieces, an interruption that is no failure, more bytes and a failure, one after another. -/
theorem toBytes_of_interrupted_chain :
    let r : Reader := .layer (.chain (.fragments (.ofList [[1], [], [2, 3]]))
      (.script [.fail ⟨.interrupted, "again"⟩, .data [4], .fail ⟨.timedOut, "late"⟩]) false)
    let m : Message := reader r
    m.toReader = .ok r ∧ (∀ k, 0 < k % 2 + 1) ∧
      m.toBytes = .error (.io ⟨.timedOut, "late"⟩) ∧ (reader r).toBytes = m.toBytes ∧
      Delivery.outcome (Readable.drain (fun k => k % 2 + 1) 0 r).1 = m.toBytes := by
  intro r m
  have hreader : m.toReader = .ok r := rfl
  have hpos : ∀ k, 0 < k % 2 + 1 := fun k => Nat.succ_pos _
  obtain ⟨-, hagain, hsizes⟩ := toBytes_eq_read_toReader m
  have hbytes : m.toBytes = .error (.io ⟨.timedOut, "late"⟩) := by
    rw [m.toBytes_eq_bind_delivers]
    decide
  exact ⟨hreader, hpos, hbytes, hagain r hreader, (hsizes _ hpos).symm⟩

end Message

end WireBytes
