import WireBytes.Buffer
import WireBytes.Pool.Basic

/-!
# Clients of a pool

A `Client` holds buffers and guards in numbered slots and works on them step by step.

* `Client.step` performs one step and says what the client sees of it, an `Answer`;
* a step that cannot be performed changes nothing, and its answer is a `Refusal`;
* `Client.run` performs a list of steps, `Client.close` lets go of all that is held at the end.

Once a buffer was divided, a step that would grow any buffer is refused: how much room a divided
buffer has to grow depends on memory that it shares.
-/

namespace WireBytes.Pool

/-- What a client holds in a slot. -/
inductive Holding where
  | plain (b : Buffer)
  | guarded (g : Guard)
  deriving DecidableEq

namespace Holding

/-- The buffer held, with or without a guard. -/
def buffer : Holding → Buffer
  | plain b => b
  | guarded g => g.buffer

/-- The same holding with another buffer. -/
def withBuffer : Holding → Buffer → Holding
  | plain _, b => plain b
  | guarded g, b => guarded { g with buffer := b }

/-- Whether there is a guard. -/
def isGuarded : Holding → Bool
  | plain _ => false
  | guarded _ => true

/-- A guard with its parts, a plain buffer as its bytes. -/
def describe : Holding → String
  | plain b => Text.quoteBytes b.bytes
  | guarded g => g.describe

end Holding

/-- A step of a client. A slot is given by its number. -/
inductive Step where
  /-- Takes a plain buffer into a new slot. -/
  | get (size : Nat)
  /-- Takes a guarded buffer into a new slot. -/
  | take (size : Nat)
  /-- Makes a buffer of exactly this capacity in a new slot, without the pool. -/
  | alloc (capacity : Nat)
  /-- Returns a plain buffer. -/
  | put (slot : Nat)
  /-- Lets go of what a slot holds; a guard returns its buffer. -/
  | drop (slot : Nat)
  /-- Takes the guard away and keeps the buffer. -/
  | detach (slot : Nat)
  /-- A step on the buffer alone. A buffer split off goes to a new slot. -/
  | edit (slot : Nat) (e : Edit)
  deriving DecidableEq

/-- Why a step is not performed. -/
inductive Refusal where
  /-- There is no such slot, or it is empty. -/
  | noBuffer
  /-- A guard cannot be returned by hand. -/
  | isGuard
  /-- A plain buffer has no guard to take away. -/
  | notGuard
  /-- An offset lies past the end. -/
  | outOfRange
  /-- A buffer would grow after one was divided. -/
  | growthAfterSplit
  deriving DecidableEq, Repr

/-- What a client sees of a step. -/
inductive Answer where
  /-- A buffer from the pool in a new slot, with the class it was served from. -/
  | served (slot cls capacity length : Nat)
  /-- A buffer of the client's own in a new slot. -/
  | allocated (slot capacity length : Nat)
  | done
  /-- The buffer after an edit. -/
  | edited (b : Buffer)
  /-- The buffer after an edit, and the one split off with its new slot. -/
  | divided (b : Buffer) (slot : Nat) (part : Buffer)
  | refused (r : Refusal)
  deriving DecidableEq

/-- A pool with what a client holds. -/
structure Client where
  pool : Pool
  /-- The slots; an empty one is kept so that the others keep their numbers. -/
  held : List (Option Holding)
  /-- Whether a buffer was divided before. -/
  divided : Bool
  deriving DecidableEq

namespace Client

/-- A client that holds nothing yet. -/
def ofPool (p : Pool) : Client :=
  ⟨p, [], false⟩

/-- What a slot holds. -/
def holding? (c : Client) (slot : Nat) : Option Holding :=
  c.held[slot]?.join

/-- The client after taking something into a new slot. -/
def hold (c : Client) (h : Holding) : Client :=
  { c with held := c.held ++ [some h] }

/-- The client after replacing what a slot holds. -/
def replace (c : Client) (slot : Nat) (h : Option Holding) : Client :=
  { c with held := c.held.set slot h }

/-- A step on the buffer of a slot. -/
def edit (c : Client) (slot : Nat) (h : Holding) (e : Edit) : Answer × Client :=
  if c.divided && e.grows h.buffer then (.refused .growthAfterSplit, c)
  else
    match h.buffer.edit? e with
    | none => (.refused .outOfRange, c)
    | some (b, part) =>
      let next := { c.replace slot (h.withBuffer b) with divided := c.divided || e.divides }
      match part with
      | none => (.edited b, next)
      | some part => (.divided b c.held.length part, next.hold (.plain part))

/-- Lets go of a holding: a guard returns its buffer, a plain buffer just goes. -/
def letGo (p : Pool) : Holding → Checked Pool
  | .plain _ => return p
  | .guarded g => p.release g

/-- A step on what a slot holds. -/
def stepAt (c : Client) (slot : Nat) (act : Holding → Checked (Answer × Client)) :
    Checked (Answer × Client) :=
  match c.holding? slot with
  | none => return (.refused .noBuffer, c)
  | some h => act h

/-- Performs one step. -/
def step (c : Client) : Step → Checked (Answer × Client)
  | .get size => do
    let ((b, cls), pool) ← c.pool.get size
    return (.served c.held.length cls b.capacity b.length, { c with pool }.hold (.plain b))
  | .take size => do
    let (g, pool) ← c.pool.take size
    return (.served c.held.length g.cls g.buffer.capacity g.buffer.length,
      { c with pool }.hold (.guarded g))
  | .alloc capacity =>
    return (.allocated c.held.length capacity 0, c.hold (.plain (Buffer.empty capacity)))
  | .put slot => c.stepAt slot fun
    | .guarded _ => return (.refused .isGuard, c)
    | .plain b => return (.done, { c with pool := ← c.pool.put b }.replace slot none)
  | .drop slot => c.stepAt slot fun h =>
    return (.done, { c with pool := ← letGo c.pool h }.replace slot none)
  | .detach slot => c.stepAt slot fun
    | .guarded g => return (.done, c.replace slot (some (.plain g.detach)))
    | .plain _ => return (.refused .notGuard, c)
  | .edit slot e => c.stepAt slot fun h => return c.edit slot h e

/-- Performs steps in order. -/
def run (c : Client) : List Step → Checked (List Answer × Client)
  | [] => return ([], c)
  | s :: rest => do
    let (a, c) ← c.step s
    let (as, c) ← c.run rest
    return (a :: as, c)

/-- The pool after everything still held is let go, in the order of the slots. -/
def close (c : Client) : Checked Pool :=
  c.held.reduceOption.foldlM letGo c.pool

end Client

end WireBytes.Pool
