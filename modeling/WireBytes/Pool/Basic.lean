import WireBytes.Buffer
import WireBytes.Error
import WireBytes.SizeClass

/-!
# Buffer pools

A `Pool` keeps idle buffers for reuse, one free list for each size class.

* `Pool.Config` gives the bounds between which the size classes lie, and how many idle buffers are
  kept in each. `Pool.Config.validate` says whether the bounds can be used; the builders do not
  check them;
* `Pool.get` hands out an idle buffer of the class that serves a size, or a new one;
* `Pool.put` keeps a buffer whose capacity is a class with room left, and gives up any other;
* `Pool.take` wraps the buffer in a `Guard`, which `Pool.release` puts back;
* `Pool.retained` and `Pool.stats` report; `Pool.Stats` is a snapshot of what was counted.

A pool that `Pool.ofConfig` accepted keeps only empty buffers, each in the list of its capacity.
-/

namespace WireBytes

namespace Pool

/-! ### Configuration -/

/-- The bounds of the size classes, and the number of idle buffers kept in each class. -/
structure Config where
  lower : UInt64
  upper : UInt64
  /-- No limit if absent. -/
  limit : Option UInt64
  deriving DecidableEq, Repr

namespace Config

/-- Classes from one byte to 64 KiB, without a limit. -/
def default : Config :=
  ⟨1, 65536, none⟩

/-- Sets the lower bound. -/
def withLower (c : Config) (n : UInt64) : Config :=
  { c with lower := n }

/-- Sets the upper bound. -/
def withUpper (c : Config) (n : UInt64) : Config :=
  { c with upper := n }

/-- Sets the number of idle buffers kept in each class. -/
def withLimit (c : Config) (n : UInt64) : Config :=
  { c with limit := some n }

/-- Refuses an upper bound of zero, and then bounds with no power of two between them. -/
def validate (c : Config) : Except Error Unit :=
  if c.upper = 0 then .error (.config .zeroCeiling)
  else
    match Word.roundUp? (max c.lower.toNat 1) with
    | some floor =>
      if floor ≤ Word.roundDown c.upper.toNat then .ok ()
      else .error (.config .floorAboveCeiling)
    | none => .error (.config .floorAboveCeiling)

/-- The configuration with the given bounds, if they can be used, without a limit. -/
def ofBounds (lower upper : UInt64) : Except Error Config := do
  let c : Config := ⟨lower, upper, none⟩
  c.validate
  return c

/-- The configuration with the default lower bound and the given upper one, if it can be used. -/
def ofCeiling (upper : UInt64) : Except Error Config :=
  ofBounds default.lower upper

/-- A configuration with all its parts. -/
def describe (c : Config) : String :=
  Text.record "PoolConfig"
    [("min_size", toString c.lower), ("max_size", toString c.upper),
      ("max_retained", Text.option (c.limit.map toString))]

end Config

/-! ### Statistics -/

/-- The idle buffers of a pool and its counters. -/
structure Stats where
  /-- Idle buffers in all classes together. -/
  retained : UInt64
  /-- Requests served by an idle buffer. -/
  hits : UInt64
  /-- Requests served by a new buffer. -/
  misses : UInt64
  /-- Returned buffers that were kept. -/
  returns : UInt64
  /-- Returned buffers that were given up. -/
  drops : UInt64
  deriving DecidableEq, Repr

namespace Stats

/-- The statistics of a pool that was never used. -/
def zero : Stats :=
  ⟨0, 0, 0, 0, 0⟩

/-- The share of requests served by an idle buffer, and zero before the first request. It is
    rounded once for the hits, once for the requests and once for their quotient. -/
def hitRatio (s : Stats) : Checked Float := do
  let total ← Word.add s.hits.toNat s.misses.toNat
  return if total = 0 then 0 else s.hits.toFloat / total.toUInt64.toFloat

/-- Statistics with all their parts. -/
def describe (s : Stats) : String :=
  Text.record "PoolStats"
    [("retained", toString s.retained), ("hits", toString s.hits), ("misses", toString s.misses),
      ("returns", toString s.returns), ("drops", toString s.drops)]

end Stats

end Pool

/-! ### Pools -/

/-- Free lists of buffers by size class, and counters that wrap around at 64 bits. -/
structure Pool where
  classes : ClassRange
  /-- The free list of each class, smallest class first; in a list the last returned comes first. -/
  idle : List (List Buffer)
  /-- How many idle buffers each class keeps; no limit if absent. -/
  limit : Option UInt64
  hits : UInt64
  misses : UInt64
  returns : UInt64
  drops : UInt64
  deriving DecidableEq

namespace Pool

/-- A buffer that goes back to its pool, with the class it was taken from. -/
structure Guard where
  cls : Nat
  buffer : Buffer
  deriving DecidableEq

/-- The buffer of a guard; it does not go back to the pool any more. -/
def Guard.detach (g : Guard) : Buffer :=
  g.buffer

/-- A guard with all its parts. -/
def Guard.describe (g : Guard) : String :=
  Text.record "Pooled" [("class", toString g.cls), ("len", toString g.buffer.length)]

/-! ### Construction -/

/-- A pool without idle buffers, if the configuration can be used. -/
def ofConfig (c : Config) : Checked (Except Error Pool) := do
  if let .error e := c.validate then
    return .error e
  match ClassRange.ofBounds? c.lower c.upper with
  | none => return .error (.config .floorAboveCeiling)
  | some classes =>
    return .ok ⟨classes, List.replicate (← classes.count) [], c.limit, 0, 0, 0, 0⟩

/-- A pool with the default lower bound and the given upper one, if it can be used. -/
def ofCeiling (upper : UInt64) : Checked (Except Error Pool) :=
  match Config.ofCeiling upper with
  | .error e => return .error e
  | .ok c => ofConfig c

/-! ### Taking and returning buffers -/

/-- A buffer for `size` bytes with its class: the idle buffer of the class that was returned last,
    or a new one if there is none. A size above the largest class gets a buffer of that class. -/
def get (p : Pool) (size : Nat) : Checked ((Buffer × Nat) × Pool) := do
  let (i, cls) ← p.classes.fit size
  match ← Word.fetch p.idle i with
  | b :: rest => return ((b, cls), { p with idle := p.idle.set i rest, hits := p.hits + 1 })
  | [] => return ((Buffer.empty cls, cls), { p with misses := p.misses + 1 })

/-- Whether a free list has as many buffers as the pool keeps in a class. -/
def isFull (p : Pool) (free : List Buffer) : Bool :=
  match p.limit with
  | none => false
  | some n => n.toNat ≤ free.length

/-- Returns a buffer. It is emptied and kept if its capacity is a class whose free list has room. -/
def put (p : Pool) (b : Buffer) : Checked Pool := do
  match ← p.classes.idxOf? b.capacity with
  | none => return { p with drops := p.drops + 1 }
  | some i =>
    let free ← Word.fetch p.idle i
    if p.isFull free then
      return { p with drops := p.drops + 1 }
    else
      return { p with idle := p.idle.set i (b.clear :: free), returns := p.returns + 1 }

/-- A buffer for `size` bytes under a guard. -/
def take (p : Pool) (size : Nat) : Checked (Guard × Pool) := do
  let ((b, cls), p) ← p.get size
  return (⟨cls, b⟩, p)

/-- Returns the buffer of a guard. It is filed by the capacity it has now. -/
def release (p : Pool) (g : Guard) : Checked Pool :=
  p.put g.buffer

/-! ### Reports -/

/-- The number of idle buffers of a class, and zero for a capacity that is no class. -/
def retained (p : Pool) (capacity : Nat) : Checked Nat := do
  match ← p.classes.idxOf? capacity with
  | none => return 0
  | some i => return (← Word.fetch p.idle i).length

/-- The number of idle buffers of all classes. -/
def retainedTotal (p : Pool) : Nat :=
  p.idle.flatten.length

/-- A snapshot of the counters. -/
def stats (p : Pool) : Stats :=
  ⟨p.retainedTotal.toUInt64, p.hits, p.misses, p.returns, p.drops⟩

/-- A pool with all its parts; a missing limit is shown as the largest word. -/
def describe (p : Pool) : String :=
  Text.record "Pool"
    [("classes", p.classes.describe),
      ("slots", Text.list (p.idle.map fun free => Text.record "Mutex"
        [("data", Text.list (free.reverse.map fun b => Text.quoteBytes b.bytes))])),
      ("max_retained", toString (p.limit.getD (UInt64.ofNat (UInt64.size - 1)))),
      ("hits", toString p.hits), ("misses", toString p.misses), ("returns", toString p.returns),
      ("drops", toString p.drops)]

end Pool

end WireBytes
