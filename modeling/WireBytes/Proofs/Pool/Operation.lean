import Mathlib
import WireBytes.Pool.Basic

/-!
# Runs of a pool

What may happen to a pool, without regard to who does it. A buffer that comes back may be any
buffer at all: its capacity, its length and its bytes need not be those of a buffer that the pool
has served.

* `Pool.perform` performs one `Operation`, `Pool.run` a list of them;
* a run is reported as a list of `Moment`s, each with the pool as it was then;
* `Pool.refuses` says which buffers a pool gives up, in terms of what it reports.
-/

namespace WireBytes.Pool

/-- What can be done to a pool. -/
inductive Operation where
  | get (size : Nat)
  | take (size : Nat)
  | put (b : Buffer)
  /-- Drops a guard. -/
  | release (g : Guard)
  /-- Takes the buffer out of a guard, which does not concern the pool. -/
  | detach (g : Guard)
  deriving DecidableEq

namespace Operation

/-- The size that is asked for. -/
def requested? : Operation → Option Nat
  | get size | take size => some size
  | _ => none

/-- The buffer that comes back. -/
def returned? : Operation → Option Buffer
  | put b => some b
  | release g => some g.buffer
  | _ => none

/-- With a request no buffer comes back. -/
theorem returned?_of_requested? {o : Operation} {size : Nat} (h : o.requested? = some size) :
    o.returned? = none := by
  cases o <;> simp_all [requested?, returned?]

/-- With a buffer that comes back nothing is requested. -/
theorem requested?_of_returned? {o : Operation} {b : Buffer} (h : o.returned? = some b) :
    o.requested? = none := by
  cases o <;> simp_all [requested?, returned?]

end Operation

/-- Performs one operation. A request is served with a buffer and the class reported beside it. -/
def perform (p : Pool) : Operation → Checked (Option (Buffer × Nat) × Pool)
  | .get size => do
    let (served, p) ← p.get size
    return (some served, p)
  | .take size => do
    let (g, p) ← p.take size
    return (some (g.buffer, g.cls), p)
  | .put b => return (none, ← p.put b)
  | .release g => return (none, ← p.release g)
  | .detach _ => return (none, p)

/-- Whether a pool gives a buffer up that comes back: its capacity is no class, or its class has as
    many idle buffers as the pool keeps. -/
def refuses (p : Pool) (b : Buffer) : Bool :=
  b.capacity ∉ p.classes.toList ||
    p.limit.any fun n => (p.retained b.capacity).toOption.any (n.toNat ≤ ·)

/-- One operation of a run: the pool before it, and what it was served with. -/
structure Moment where
  before : Pool
  operation : Operation
  served : Option (Buffer × Nat)
  deriving DecidableEq

/-- Whether a buffer came back that the pool gave up. -/
def Moment.isRefusal (m : Moment) : Bool :=
  m.operation.returned?.any m.before.refuses

/-- A request is never a refusal. -/
theorem Moment.isRefusal_of_requested? {m : Moment} {size : Nat}
    (h : m.operation.requested? = some size) : m.isRefusal = false := by
  rw [isRefusal, Operation.returned?_of_requested? h]
  rfl

/-- A return is a refusal if the pool refuses the buffer at that moment. -/
theorem Moment.isRefusal_of_returned? {m : Moment} {b : Buffer}
    (h : m.operation.returned? = some b) : m.isRefusal = m.before.refuses b := by
  rw [isRefusal, h]
  rfl

/-- Performs operations in order: the moments of the run, and the pool at its end. -/
def run (p : Pool) : List Operation → Checked (List Moment × Pool)
  | [] => return ([], p)
  | o :: rest => do
    let (served, q) ← p.perform o
    let (moments, last) ← q.run rest
    return (⟨p, o, served⟩ :: moments, last)

/-- A run begins with its first operation, and goes on from the pool that it leads to. -/
theorem run_cons {p q last : Pool} {o : Operation} {rest : List Operation}
    {served : Option (Buffer × Nat)} {moments : List Moment}
    (ho : p.perform o = .ok (served, q)) (hrest : q.run rest = .ok (moments, last)) :
    p.run (o :: rest) = .ok (⟨p, o, served⟩ :: moments, last) := by
  rw [run, ho]
  show (do let (moments, last) ← q.run rest; return (_ :: moments, last)) = _
  rw [hrest]
  rfl

end WireBytes.Pool
