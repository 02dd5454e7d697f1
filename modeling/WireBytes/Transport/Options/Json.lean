import WireBytes.Json.Parser
import WireBytes.Json.Printer
import WireBytes.Transport.Options

/-!
# Transport options as JSON

One table, `Field`, gives each part of the options its key, its place and its form.

* `Options.toJson` is the object with all fields in order;
* `Options.ofJson?` reads an object, whose fields come in any order and whose other keys are
  ignored, or an array of the first fields in order. What is not given has its default;
* `Options.load` and `Options.store` go from and to text.
-/

namespace WireBytes.Transport

open Json (Value Units)

/-! ### Durations -/

namespace Duration

/-- A duration as an object. -/
def toJson (d : Duration) : Value :=
  .object [(Units.ofString "secs", .nat d.secs.toNat), (Units.ofString "nanos", .nat d.nanos.toNat)]

/-- The duration of the given seconds and billionths. -/
def ofJsonParts? (secs nanos : Value) : Option Duration := do
  ofParts? (← secs.natBelow? UInt64.size) (← nanos.natBelow? UInt32.size)

/-- Reads an object of exactly the two parts, in either order, or an array of them. -/
def ofJson? : Value → Option Duration
  | .array [secs, nanos] => ofJsonParts? secs nanos
  | .object [(k, v), (l, w)] =>
    if k = Units.ofString "secs" ∧ l = Units.ofString "nanos" then ofJsonParts? v w
    else if k = Units.ofString "nanos" ∧ l = Units.ofString "secs" then ofJsonParts? w v
    else none
  | _ => none

end Duration

/-! ### Fields -/

/-- The fields of the options. -/
inductive Field where
  | timeout | keepAlive | keepAlivePeriod | linger | noDelay | sockBuf | readBufferSize
  | writeBufferSize
  deriving DecidableEq, Repr

namespace Field

/-- All fields in order. -/
def all : List Field :=
  [timeout, keepAlive, keepAlivePeriod, linger, noDelay, sockBuf, readBufferSize, writeBufferSize]

/-- The key of a field. -/
def name : Field → String
  | timeout => "timeout"
  | keepAlive => "keep-alive"
  | keepAlivePeriod => "keep-alive-period"
  | linger => "linger"
  | noDelay => "nodelay"
  | sockBuf => "sockbuf"
  | readBufferSize => "readBufferSize"
  | writeBufferSize => "writeBufferSize"

/-- The key of a field as a text of a JSON object. -/
def key (f : Field) : Units :=
  Units.ofString f.name

/-- The field of a given key. -/
def ofKey? (k : Units) : Option Field :=
  all.find? (·.key = k)

/-- The value of a field. -/
def get (f : Field) (o : Options) : Value :=
  match f with
  | timeout => o.timeout.toJson
  | keepAlive => .bool o.keepAlive
  | keepAlivePeriod => o.keepAlivePeriod.toJson
  | linger => (o.linger.map Duration.toJson).getD .null
  | noDelay => .bool o.noDelay
  | sockBuf => .nat o.sockBuf.toNat
  | readBufferSize => .nat o.readBufferSize.toNat
  | writeBufferSize => .nat o.writeBufferSize.toNat

/-- A natural number of 64 bits. -/
def word? (v : Value) : Option UInt64 :=
  (v.natBelow? UInt64.size).map Nat.toUInt64

/-- A duration, or its absence. -/
def duration? : Value → Option (Option Duration)
  | .null => some none
  | v => (Duration.ofJson? v).map some

/-- Sets a field to a value, if it has the form of the field. -/
def set? (f : Field) (v : Value) (o : Options) : Option Options :=
  match f with
  | timeout => (Duration.ofJson? v).map fun d => { o with timeout := d }
  | keepAlive => v.bool?.map fun b => { o with keepAlive := b }
  | keepAlivePeriod => (Duration.ofJson? v).map fun d => { o with keepAlivePeriod := d }
  | linger => (duration? v).map fun d => { o with linger := d }
  | noDelay => v.bool?.map fun b => { o with noDelay := b }
  | sockBuf => (word? v).map fun n => { o with sockBuf := n }
  | readBufferSize => (word? v).map fun n => { o with readBufferSize := n }
  | writeBufferSize => (word? v).map fun n => { o with writeBufferSize := n }

end Field

/-! ### Options -/

namespace Options

/-- The object with all fields in order. -/
def toJson (o : Options) : Value :=
  .object (Field.all.map fun f => (f.key, f.get o))

/-- Sets the fields that members name. A key has to be a text of characters, and a field may be
    named once; `seen` are the fields named before. -/
def setMembers? (o : Options) (seen : List Field) : List (Units × Value) → Option Options
  | [] => some o
  | (k, v) :: ms =>
    if k.wellPaired then
      match Field.ofKey? k with
      | none => setMembers? o seen ms
      | some f => if f ∈ seen then none else (f.set? v o).bind (setMembers? · (f :: seen) ms)
    else none

/-- Sets the given fields to values in order. There may be fewer values than fields, not more. -/
def setElements? (o : Options) : List Field → List Value → Option Options
  | _, [] => some o
  | [], _ :: _ => none
  | f :: fs, v :: vs => (f.set? v o).bind (setElements? · fs vs)

/-- Reads options; what is not given has its default. -/
def ofJson? : Value → Option Options
  | .object ms => setMembers? default [] ms
  | .array vs => setElements? default Field.all vs
  | _ => none

/-- Options as text. -/
def store (o : Options) : String :=
  String.ofList o.toJson.render

/-- Options from text. -/
def load (text : String) : Option Options := do
  ofJson? (← Json.parse text)

end Options

end WireBytes.Transport
