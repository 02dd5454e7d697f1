import WireBytes.Bytes

/-!
# Errors

`IoError` is what a reader or a source fails with, `Error` what the library's own operations fail
with. An `Error` names its cause; `Error.message` is its text, `Error.describe` shows all its parts.
-/

namespace WireBytes

/-! ### Failures of input and output -/

/-- The kinds of input and output failures. Of them, only `unexpectedEof` is made here, and only
    `interrupted` is looked at: the read that failed with it is made again. Every other kind is
    handed on as it came. The kinds left out, such as those of directories, disks and routes, would
    be handed on in the same way. -/
inductive IoKind where
  | notFound | permissionDenied | connectionRefused | connectionReset | connectionAborted
  | notConnected | addrInUse | brokenPipe | alreadyExists | wouldBlock | invalidInput | invalidData
  | timedOut | writeZero | interrupted | unsupported | unexpectedEof | outOfMemory | other
  deriving DecidableEq, Repr

namespace IoKind

/-- The name of a kind. -/
def name : IoKind → String
  | notFound => "NotFound"
  | permissionDenied => "PermissionDenied"
  | connectionRefused => "ConnectionRefused"
  | connectionReset => "ConnectionReset"
  | connectionAborted => "ConnectionAborted"
  | notConnected => "NotConnected"
  | addrInUse => "AddrInUse"
  | brokenPipe => "BrokenPipe"
  | alreadyExists => "AlreadyExists"
  | wouldBlock => "WouldBlock"
  | invalidInput => "InvalidInput"
  | invalidData => "InvalidData"
  | timedOut => "TimedOut"
  | writeZero => "WriteZero"
  | interrupted => "Interrupted"
  | unsupported => "Unsupported"
  | unexpectedEof => "UnexpectedEof"
  | outOfMemory => "OutOfMemory"
  | other => "Other"

/-- All kinds. -/
def all : List IoKind :=
  [notFound, permissionDenied, connectionRefused, connectionReset, connectionAborted, notConnected,
    addrInUse, brokenPipe, alreadyExists, wouldBlock, invalidInput, invalidData, timedOut,
    writeZero, interrupted, unsupported, unexpectedEof, outOfMemory, other]

/-- The kind of a given name. -/
def ofName? (s : String) : Option IoKind :=
  all.find? (·.name == s)

end IoKind

/-- A failure of a reader or a source. -/
structure IoError where
  kind : IoKind
  message : String
  deriving DecidableEq, Repr

/-- The failure of a read that asks for more bytes than are left. -/
def IoError.endOfInput : IoError :=
  ⟨.unexpectedEof, "failed to fill whole buffer"⟩

/-- Whether the failed call may simply be made again. -/
def IoError.isInterrupted (e : IoError) : Bool :=
  e.kind = .interrupted

/-! ### Errors of the library -/

/-- What is wrong with a configuration. -/
inductive ConfigFlaw where
  /-- The largest class is zero. -/
  | zeroCeiling
  /-- No power of two lies between the bounds. -/
  | floorAboveCeiling
  | zeroTimeout
  | zeroKeepAlivePeriod
  /-- A flaw that a caller words. -/
  | other (text : String)
  deriving DecidableEq, Repr

/-- The text of a flaw. -/
def ConfigFlaw.message : ConfigFlaw → String
  | zeroCeiling => "pool ceiling must be non-zero"
  | floorAboveCeiling => "smallest class cannot exceed the pool ceiling"
  | zeroTimeout => "timeout must be non-zero"
  | zeroKeepAlivePeriod => "keep-alive period must be non-zero when keep-alive is enabled"
  | other text => text

/-- Why an operation of the library failed. -/
inductive Error where
  /-- The message is of a type from which no bytes can be had. -/
  | unsupportedType (typeName : String)
  /-- A source reported another number of bytes than it wrote. -/
  | miscount (reported captured : Nat)
  /-- A reader or a source failed. -/
  | io (failure : IoError)
  /-- A configuration was refused. -/
  | config (flaw : ConfigFlaw)
  deriving DecidableEq, Repr

namespace Error

/-- The text of an error. -/
def message : Error → String
  | unsupportedType typeName => s!"unrecognized type: {typeName}"
  | miscount reported captured =>
    s!"short write: source reported {reported} bytes, captured {captured}"
  | io failure => "io error: " ++ failure.message
  | config flaw => "invalid config: " ++ flaw.message

/-- The text of the failure underneath an error, if there is one. -/
def source : Error → Option String
  | io failure => some failure.message
  | _ => none

/-- An error with all its parts. -/
def describe : Error → String
  | unsupportedType typeName =>
    Text.record "UnrecognizedType" [("type_name", Text.quote typeName)]
  | miscount reported captured =>
    Text.record "ShortWrite" [("reported", toString reported), ("captured", toString captured)]
  | io failure =>
    Text.case "Io" (Text.record "Custom"
      [("kind", failure.kind.name), ("error", Text.quote failure.message)])
  | config flaw =>
    Text.record "InvalidConfig" [("message", Text.quote flaw.message)]

end Error

end WireBytes
