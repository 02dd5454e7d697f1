import WireBytes.Capture
import WireBytes.Cursor
import WireBytes.Error
import WireBytes.Fragments

/-!
# Sources

What can write all it has left into a sink, and reports how many bytes those were.

* `WritesOut` is the class of such things; `WritesOut.capture` lets one of them write itself out
  into a new sink, and compares its report with what the sink has captured;
* `Source` is the type of those of the library, `Source.writeOut` how they write themselves out;
* `Source.read` reads those of them that can be read as well.
-/

namespace WireBytes

/-! ### What can write itself out -/

/-- What can write itself out into a sink. It fails, or reports a number of bytes that need not be
    the number of those that it wrote. -/
class WritesOut (σ : Type) where
  /-- The number reported or the failure, what is left afterwards, and the sink. -/
  writeOut : σ → Capture → Except IoError Nat × σ × Capture

namespace WritesOut

variable {σ : Type} [WritesOut σ]

/-- Captures all that something has left. If it fails, or reports another number of bytes than it
    wrote, that is an error. -/
def capture (s : σ) : Except Error Bytes × σ :=
  let (reported, s, sink) := writeOut s .empty
  match reported with
  | .error e => (.error (.io e), s)
  | .ok n =>
    if n = sink.length then (.ok sink.bytes, s) else (.error (.miscount n sink.length), s)

end WritesOut

/-! ### The sources of the library -/

/-- A call that a scripted source makes on its sink. -/
inductive SinkCall where
  | handOver (chunk : Bytes)
  | write (slice : Bytes)
  | writeAll (slice : Bytes)
  | flush
  /-- Not a call: the source fails. -/
  | fail (e : IoError)
  deriving DecidableEq, Repr

/-- What can write itself out. -/
inductive Source where
  | cursor (c : Cursor)
  | fragments (f : Fragments)
  /-- Makes the calls in order. It reports the given number of bytes, or if there is none, what the
      calls add up to. -/
  | script (calls : List SinkCall) (report : Option Nat)
  deriving DecidableEq, Repr

/-- Makes the calls of a script until one fails: the count or the failure, the calls left over, and
    the sink. -/
def SinkCall.play : List SinkCall → Nat → Capture → Except IoError Nat × List SinkCall × Capture
  | [], count, sink => (.ok count, [], sink)
  | .handOver chunk :: calls, count, sink =>
    let (n, sink) := sink.adopt chunk
    play calls (count + n) sink
  | .write slice :: calls, count, sink =>
    let (n, sink) := sink.write slice
    play calls (count + n) sink
  | .writeAll slice :: calls, count, sink =>
    play calls (count + slice.length) (sink.writeAll slice)
  | .flush :: calls, count, sink => play calls count sink
  | .fail e :: calls, _, sink => (.error e, calls, sink)

namespace Source

/-- Writes all that a source has left into a sink: the reported number of bytes or the failure, the
    source afterwards, and the sink. -/
def writeOut (s : Source) (sink : Capture) : Except IoError Nat × Source × Capture :=
  match s with
  | cursor c =>
    let (chunk, c) := c.takeRest
    let (n, sink) := sink.adopt chunk
    (.ok n, cursor c, sink)
  | fragments f =>
    let (n, sink) := sink.adoptAll f.queue
    (.ok n, fragments ⟨[]⟩, sink)
  | script calls report =>
    let (count, calls, sink) := SinkCall.play calls 0 sink
    (count.map fun n => report.getD n, script calls report, sink)

instance : WritesOut Source where
  writeOut := writeOut

/-- Captures all that a source has left. -/
def capture (s : Source) : Except Error Bytes × Source :=
  WritesOut.capture s

/-- Reads up to `n` bytes. A script can only write itself out, so that nothing is read of it. -/
def read : Source → Nat → Bytes × Source
  | cursor c, n => ((c.read n).1, cursor (c.read n).2)
  | fragments f, n => ((f.read n).1, fragments (f.read n).2)
  | script calls report, _ => ([], script calls report)

end Source

end WireBytes
