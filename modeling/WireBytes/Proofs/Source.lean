import Mathlib
import WireBytes.Proofs.Message

/-!
# Reading a source and taking the rest away

The sources of the library's own can be read like any reader and can write themselves out. The two
ways may be mixed: together they give the bytes of the source in order, none of them twice and none
of them not at all.

* `Supply` — such a source with its bytes; `Draw` — one of the two ways to take some of them;
* `Source.read_of_reader?` — a source is read like the reader that it is, and
  `Source.drawAll_of_reader?` the same of several reads;
* `Source.Holds` — what is left in a source; `Source.Holds.draw` — what a draw does to it, and
  `Source.Holds.drawAll` — what several draws do;
* `Supply.capture_of_drawAll` — the consequence for a capture after any draws.
-/

namespace WireBytes

/-! ### Capturing several chunks -/

namespace Capture

/-- The number reported is that of the bytes of all chunks. -/
theorem fst_adoptAll (c : Capture) (chunks : List Bytes) :
    (c.adoptAll chunks).1 = Bytes.totalLength chunks := by
  induction chunks generalizing c with
  | nil => rfl
  | cons chunk chunks ih =>
    show chunk.length + ((c.adopt chunk).2.adoptAll chunks).1 = _
    rw [ih]
    rfl

/-- All chunks are added in order, whatever was captured before. -/
@[simp] theorem bytes_adoptAll (c : Capture) (chunks : List Bytes) :
    (c.adoptAll chunks).2.bytes = c.bytes ++ chunks.flatten := by
  induction chunks generalizing c with
  | nil => exact (List.append_nil _).symm
  | cons chunk chunks ih =>
    show ((c.adopt chunk).2.adoptAll chunks).2.bytes = _
    rw [ih, bytes_adopt, List.append_assoc, List.flatten_cons]

end Capture

namespace Source

/-- Capturing a cursor takes away all that was left in it. -/
theorem capture_cursor (c : Cursor) :
    (cursor c).capture = (.ok c.rest, cursor c.takeRest.2) :=
  if_pos rfl

/-- The pieces are counted one by one, and the count is that of all their bytes. -/
theorem capture_fragments (f : Fragments) :
    (fragments f).capture = (.ok f.content, fragments ⟨[]⟩) := by
  have hbytes : (Capture.empty.adoptAll f.queue).2.bytes = f.content :=
    Capture.bytes_adoptAll _ _
  have hcount : (Capture.empty.adoptAll f.queue).1 =
      (Capture.empty.adoptAll f.queue).2.length := by
    rw [Capture.fst_adoptAll, Capture.length_eq_length_bytes, hbytes]
    exact f.length_eq_length_content
  show (if (Capture.empty.adoptAll f.queue).1 = (Capture.empty.adoptAll f.queue).2.length then
    (Except.ok (Capture.empty.adoptAll f.queue).2.bytes, fragments ⟨[]⟩) else _) = _
  rw [if_pos hcount, hbytes]

/-! ### Draws -/

/-- A way to take bytes from a source. -/
inductive Draw where
  | read (n : Nat)
  | capture
  deriving DecidableEq, Repr

/-- Takes bytes from a source. -/
def draw (s : Source) : Draw → Except Error Bytes × Source
  | .read n => (.ok (s.read n).1, (s.read n).2)
  | .capture => s.capture

/-- Takes bytes from a source time and again. -/
def drawAll (s : Source) : List Draw → List (Except Error Bytes) × Source
  | [] => ([], s)
  | d :: rest => ((s.draw d).1 :: ((s.draw d).2.drawAll rest).1, ((s.draw d).2.drawAll rest).2)

/-! ### The reader of a source -/

/-- The same as a reader, if it can be read. -/
def reader? : Source → Option Reader
  | cursor c => some (.cursor c)
  | fragments f => some (.fragments f)
  | script _ _ => none

/-- **Both reads agree.** What is read of a source is what its reader delivers, and what is left of
    the one is left of the other. -/
theorem read_of_reader? {s : Source} {r : Reader} (h : s.reader? = some r) (n : Nat) :
    (r.read n).1 = .ok (s.read n).1 ∧ (s.read n).2.reader? = some (r.read n).2 := by
  cases s with
  | cursor c =>
    obtain rfl := Option.some.inj h
    exact ⟨rfl, rfl⟩
  | fragments f =>
    obtain rfl := Option.some.inj h
    exact ⟨rfl, rfl⟩
  | script calls report => cases h

/-- Several reads of a source draw what the same reads of its reader deliver. -/
theorem drawAll_of_reader? {s : Source} {r : Reader} (h : s.reader? = some r)
    (sizes : List Nat) :
    ∃ gots : List Bytes, (s.drawAll (sizes.map .read)).1 = gots.map .ok ∧
      (Readable.run r (sizes.map .read)).1 = gots.map .bytes := by
  induction sizes generalizing s r with
  | nil => exact ⟨[], rfl, rfl⟩
  | cons n sizes ih =>
    obtain ⟨hanswer, hnext⟩ := read_of_reader? h n
    obtain ⟨gots, hdraws, hreads⟩ := ih hnext
    refine ⟨(s.read n).1 :: gots, ?_, ?_⟩
    · show .ok (s.read n).1 :: ((s.read n).2.drawAll (sizes.map .read)).1 = _
      rw [hdraws, List.map_cons]
    · show .ofBytes (r.read n).1 :: (Readable.run (r.read n).2 (sizes.map .read)).1 = _
      rw [hanswer, hreads, List.map_cons]
      rfl

/-! ### What is left -/

/-- A source that can be read, with the bytes that are left in it. -/
inductive Holds : Source → Bytes → Prop
  | cursor (c : Cursor) : Holds (cursor c) c.rest
  | fragments (f : Fragments) : Holds (fragments f) f.content

namespace Holds

variable {s : Source} {left : Bytes}

/-- What is read and what is left after it are what was left before. -/
theorem read (h : s.Holds left) (n : Nat) :
    ∃ more, (s.read n).2.Holds more ∧ (s.read n).1 ++ more = left := by
  cases h with
  | cursor c => exact ⟨_, .cursor (c.read n).2, c.read_append_rest n⟩
  | fragments f => exact ⟨_, .fragments (f.read n).2, f.read_append_content n⟩

/-- All that is left is captured, and nothing is left after it. -/
theorem capture (h : s.Holds left) : ∃ s', s.capture = (.ok left, s') ∧ s'.Holds [] := by
  cases h with
  | cursor c =>
    refine ⟨_, capture_cursor c, ?_⟩
    rw [← c.takeRest_rest]
    exact .cursor _
  | fragments f => exact ⟨_, capture_fragments f, .fragments ⟨[]⟩⟩

/-- **One draw.** It does not fail, and what it gives is the beginning of what was left. -/
theorem draw (h : s.Holds left) (d : Draw) :
    ∃ bs more s', s.draw d = (.ok bs, s') ∧ s'.Holds more ∧ bs ++ more = left := by
  cases d with
  | read n =>
    obtain ⟨more, hmore, happend⟩ := h.read n
    exact ⟨_, more, _, rfl, hmore, happend⟩
  | capture =>
    obtain ⟨s', hcapture, hempty⟩ := h.capture
    exact ⟨left, [], s', hcapture, hempty, List.append_nil left⟩

/-- **Several draws.** None of them fails, and what they give in order is the beginning of what was
    left. -/
theorem drawAll (h : s.Holds left) (ds : List Draw) :
    ∃ (pieces : List Bytes) (more : Bytes) (s' : Source),
      s.drawAll ds = (pieces.map .ok, s') ∧ s'.Holds more ∧
      pieces.length = ds.length ∧ pieces.flatten ++ more = left := by
  induction ds generalizing s left with
  | nil => exact ⟨[], left, s, rfl, h, rfl, rfl⟩
  | cons d ds ih =>
    obtain ⟨bs, more, s₁, hdraw, hmore, happend⟩ := h.draw d
    obtain ⟨pieces, last, s₂, hrest, hlast, hlength, hflatten⟩ := ih hmore
    refine ⟨bs :: pieces, last, s₂, ?_, hlast, by simp [hlength], ?_⟩
    · rw [Source.drawAll, hdraw, hrest]
      rfl
    · rw [List.flatten_cons, List.append_assoc, hflatten, happend]

/-- Where nothing is left, every draw gives nothing. -/
theorem drawAll_of_nil (h : s.Holds []) (ds : List Draw) :
    (s.drawAll ds).1 = List.replicate ds.length (.ok []) := by
  obtain ⟨pieces, more, s', hdraw, -, hlength, hflatten⟩ := h.drawAll ds
  have hempty : ∀ piece ∈ pieces, piece = [] := by
    intro piece hpiece
    exact List.flatten_eq_nil_iff.1 (List.append_eq_nil_iff.1 hflatten).1 piece hpiece
  rw [hdraw, List.eq_replicate_of_mem hempty, List.map_replicate, hlength]

end Holds

end Source

/-! ### The sources of the library's own -/

/-- The bytes left in a cursor do not depend on how far past the end it stands. -/
theorem Cursor.rest_eq_drop_min (c : Cursor) :
    c.rest = c.data.drop (min c.pos c.data.length) := by
  rcases Nat.le_total c.pos c.data.length with h | h
  · rw [Nat.min_eq_left h, rest]
  · rw [Nat.min_eq_right h, List.drop_length, rest, List.drop_of_length_le h]

/-- Bytes in a source of the library's own. -/
inductive Supply where
  /-- A position in bytes that others may hold too, in bytes of the cursor's own, or in the bytes of
      a text, where it may lie within a character. -/
  | cursor (c : Cursor)
  /-- Pieces in order, some of which may be empty. -/
  | fragments (pieces : List Bytes)

namespace Supply

/-- The source itself. -/
def source : Supply → Source
  | cursor c => .cursor c
  | fragments pieces => .fragments (.ofList pieces)

/-- The same as a reader. -/
def reader : Supply → Reader
  | cursor c => .cursor c
  | fragments pieces => .fragments (.ofList pieces)

/-- The bytes from the position on, of which there are none if it lies past the end. -/
def content : Supply → Bytes
  | cursor c => c.data.drop (min c.pos c.data.length)
  | fragments pieces => pieces.flatten

/-- The two are the same thing. -/
theorem reader?_source (x : Supply) : x.source.reader? = some x.reader := by
  cases x with
  | cursor c => rfl
  | fragments pieces => rfl

/-- The source of a supply holds its content. -/
theorem holds_source (x : Supply) : x.source.Holds x.content := by
  cases x with
  | cursor c =>
    rw [content, ← c.rest_eq_drop_min]
    exact .cursor c
  | fragments pieces =>
    rw [content, ← Fragments.content_ofList]
    exact .fragments (.ofList pieces)

/-- The reader of a supply delivers its content and does not fail. -/
theorem delivers_reader (x : Supply) : x.reader.delivers = (x.content, none) := by
  cases x with
  | cursor c =>
    rw [content, ← c.rest_eq_drop_min]
    rfl
  | fragments pieces => exact Fragments.delivers_ofList pieces

/-- **A capture takes all that was not read.** After any draws from a source of the library's own a
    capture succeeds, and what was drawn before it with what it takes are the bytes of the source,
    which are those of a message that reads the source. After it every draw gives nothing. What
    reads draw, read by read, is what the same reads of its reader deliver. -/
theorem capture_of_drawAll (x : Supply) (before after : List Source.Draw) :
    ∃ (pieces : List Bytes) (s : Source) (rest : Bytes) (last : Source),
      x.source.drawAll before = (pieces.map .ok, s) ∧
      s.capture = (.ok rest, last) ∧ pieces.flatten ++ rest = x.content ∧
      (Message.reader x.reader).toBytes = .ok x.content ∧
      (last.drawAll after).1 = List.replicate after.length (.ok []) ∧
      ∀ sizes : List Nat, ∃ gots : List Bytes,
        (x.source.drawAll (sizes.map .read)).1 = gots.map .ok ∧
        (Readable.run x.reader (sizes.map .read)).1 = gots.map .bytes := by
  obtain ⟨pieces, rest, s, hbefore, hrest, -, hflatten⟩ := x.holds_source.drawAll before
  obtain ⟨last, hcapture, hempty⟩ := hrest.capture
  refine ⟨pieces, s, rest, last, hbefore, hcapture, hflatten, ?_, hempty.drawAll_of_nil after,
    Source.drawAll_of_reader? x.reader?_source⟩
  show x.reader.allBytes = _
  rw [x.reader.allBytes_eq_outcome, x.delivers_reader, Delivery.outcome_ok]

end Supply

end WireBytes
