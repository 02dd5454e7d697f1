import WireBytes.Buffer
import WireBytes.Reader
import WireBytes.Source

/-!
# Messages

A `Message` is any of the things from which bytes can be had, or a value of a type that is not one
of them.

* `Message.toBytes` gives all its bytes at once;
* `Message.toReader` gives a reader of them, and takes out of a source what it has to write.
-/

namespace WireBytes

/-- A value to take bytes from. -/
inductive Message where
  | bytes (bs : Bytes)
  | fragments (pieces : List Bytes)
  | text (s : String)
  | buffer (b : Buffer)
  /-- What can only write itself out. -/
  | writer (s : Source)
  | reader (r : Reader)
  /-- A value of a type from which no bytes can be had, known by the name of the type. -/
  | unsupported (typeName : String)
  deriving DecidableEq

namespace Message

/-- The name of the kind of a message. -/
def kind : Message → String
  | bytes _ => "bytes"
  | fragments _ => "fragments"
  | text _ => "text"
  | buffer _ => "buffer"
  | writer _ => "writer-to"
  | reader _ => "reader"
  | unsupported _ => "unsupported"

/-- A message with its content, where the content can be seen without being used up. -/
def describe : Message → String
  | bytes bs => Text.case "Bytes" (Text.quoteBytes bs)
  | fragments pieces => Text.case "Fragments" (Text.list (pieces.map Text.quoteBytes))
  | text s => Text.case "Text" (Text.quote s)
  | buffer b => Text.case "Buffer" (Text.quoteBytes b.bytes)
  | writer _ => Text.case "WriterTo" ".."
  | reader _ => Text.case "Reader" ".."
  | unsupported typeName => Text.case "Unsupported" (Text.quote typeName)

/-- All bytes of a message. -/
def toBytes : Message → Except Error Bytes
  | bytes bs => .ok bs
  | fragments pieces => .ok pieces.flatten
  | text s => .ok (Bytes.utf8 s)
  | buffer b => .ok b.bytes
  | writer s => s.capture.1
  | reader r => r.allBytes
  | unsupported typeName => .error (.unsupportedType typeName)

/-- A reader of the bytes of a message. Pieces are read without being joined, and a source writes
    itself out first. -/
def toReader : Message → Except Error Reader
  | bytes bs => .ok (.memory bs)
  | fragments pieces => .ok (.fragments (.ofList pieces))
  | text s => .ok (.memory (Bytes.utf8 s))
  | buffer b => .ok (.memory b.bytes)
  | writer s => s.capture.1.map .memory
  | reader r => .ok r
  | unsupported typeName => .error (.unsupportedType typeName)

/-- A reader of the bytes of a message, in a layer of its own. -/
def toLayeredReader (m : Message) : Except Error Reader :=
  m.toReader.map .layer

end Message

end WireBytes
