import WireBytes.Error

/-!
# Transport options

What a transport is told about its connections.

* `Duration` is a span of time in seconds and billionths of a second, of which there are always
  fewer than a second has;
* `Options` are the options themselves. The builders set one part each and check nothing;
  `Options.validate` says whether the options can be used.
-/

namespace WireBytes.Transport

/-! ### Durations -/

/-- A span of time. -/
structure Duration where
  secs : UInt64
  nanos : UInt32
  nanos_lt : nanos.toNat < 1000000000
  deriving DecidableEq, Repr

namespace Duration

/-- A whole number of seconds. -/
def ofSecs (n : UInt64) : Duration :=
  ⟨n, 0, by decide⟩

/-- Seconds and billionths, of which those that make a second are added to the seconds. There is no
    duration if the seconds do not fit 64 bits. -/
def ofParts? (secs nanos : Nat) : Option Duration :=
  if secs + nanos / 1000000000 < UInt64.size then
    some ⟨(secs + nanos / 1000000000).toUInt64, (nanos % 1000000000).toUInt32, by
      have h : nanos % 1000000000 < 1000000000 := Nat.mod_lt _ (by decide)
      simp only [Nat.toUInt32, UInt32.toNat_ofNat']
      omega⟩
  else none

/-- Whether a duration is no time at all. -/
def isZero (d : Duration) : Bool :=
  d.secs = 0 && d.nanos = 0

/-- A decimal number with a unit: the whole part, and behind a point the `places` decimals without
    the zeros at their end. -/
def decimal (whole decimals places : Nat) (unit : String) : String :=
  let digits := Nat.toDigits 10 decimals
  let padded := List.replicate (places - digits.length) '0' ++ digits
  let shown := padded.reverse.dropWhile (· = '0')
  toString whole ++ (if shown.isEmpty then "" else "." ++ String.ofList shown.reverse) ++ unit

/-- A duration in the largest unit of which it has at least one; no time at all is in billionths. -/
def describe (d : Duration) : String :=
  let n := d.nanos.toNat
  if d.secs ≠ 0 then decimal d.secs.toNat n 9 "s"
  else if 1000000 ≤ n then decimal (n / 1000000) (n % 1000000) 6 "ms"
  else if 1000 ≤ n then decimal (n / 1000) (n % 1000) 3 "µs"
  else decimal n 0 0 "ns"

end Duration

/-! ### Options -/

/-- Options of a connection. A buffer size of zero leaves the size to the system. -/
structure Options where
  /-- How long connecting may take. -/
  timeout : Duration
  /-- Whether an idle connection is probed. -/
  keepAlive : Bool
  /-- The time between two probes. -/
  keepAlivePeriod : Duration
  /-- How long closing waits for unsent data; left to the system if absent. -/
  linger : Option Duration
  /-- Whether small packets are sent at once. -/
  noDelay : Bool
  sockBuf : UInt64
  readBufferSize : UInt64
  writeBufferSize : UInt64
  deriving DecidableEq, Repr

namespace Options

/-- Five seconds to connect, a probe each minute, and no delay. -/
def default : Options where
  timeout := .ofSecs 5
  keepAlive := true
  keepAlivePeriod := .ofSecs 60
  linger := none
  noDelay := true
  sockBuf := 0
  readBufferSize := 0
  writeBufferSize := 0

/-- Sets the time to connect. -/
def withTimeout (o : Options) (d : Duration) : Options :=
  { o with timeout := d }

/-- Sets whether an idle connection is probed, and how often. -/
def withKeepAlive (o : Options) (enabled : Bool) (period : Duration) : Options :=
  { o with keepAlive := enabled, keepAlivePeriod := period }

/-- Sets the wait at closing. -/
def withLinger (o : Options) (d : Option Duration) : Options :=
  { o with linger := d }

/-- Sets whether small packets are sent at once. -/
def withNoDelay (o : Options) (b : Bool) : Options :=
  { o with noDelay := b }

/-- Sets the size of the system's buffers. -/
def withSockBuf (o : Options) (n : UInt64) : Options :=
  { o with sockBuf := n }

/-- Sets the size of the buffer for reads. -/
def withReadBufferSize (o : Options) (n : UInt64) : Options :=
  { o with readBufferSize := n }

/-- Sets the size of the buffer for writes. -/
def withWriteBufferSize (o : Options) (n : UInt64) : Options :=
  { o with writeBufferSize := n }

/-- Refuses no time to connect, and then no time between probes where there are probes. -/
def validate (o : Options) : Except Error Unit :=
  if o.timeout.isZero then .error (.config .zeroTimeout)
  else if o.keepAlive && o.keepAlivePeriod.isZero then .error (.config .zeroKeepAlivePeriod)
  else .ok ()

/-- Options with all their parts. -/
def describe (o : Options) : String :=
  Text.record "TcpOptions"
    [("timeout", o.timeout.describe), ("keep_alive", Text.bool o.keepAlive),
      ("keep_alive_period", o.keepAlivePeriod.describe),
      ("linger", Text.option (o.linger.map Duration.describe)),
      ("no_delay", Text.bool o.noDelay), ("sock_buf", toString o.sockBuf),
      ("read_buffer_size", toString o.readBufferSize),
      ("write_buffer_size", toString o.writeBufferSize)]

end Options

end WireBytes.Transport
