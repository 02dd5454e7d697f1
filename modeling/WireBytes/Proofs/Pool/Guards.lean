import Mathlib
import WireBytes.Proofs.Pool.Address
import WireBytes.Proofs.Pool.Turns

/-!
# Guards and returns by hand

A client with guards does to its pool what a client without guards does that returns each buffer by
hand where a guard is let go of. The class that a guard remembers has no part in it.

* `Client.bare` — the client that holds the same without guards; `Turn.standIn` — the step that it
  takes in place of a turn;
* `Client.Does.bare` and `Client.Leads.bare` — these steps lead to the same pool and the same
  buffers;
* `Client.Does.guards` and `Client.Leads.guards` — every guard that was taken is let go of or
  detached, once;
* `Client.close_of_dropAll` — letting go of all that is held is dropping it slot by slot;
* `Client.run_without_guards` — all of this for the scripts at any pool.
-/

namespace WireBytes.Pool

variable {p q : Pool}

/-- A buffer that comes back is filed by its capacity, unless it is refused. No other free list
    changes. -/
theorem freeList_of_put {b : Buffer} (h : p.WellFormed) (hput : p.put b = .ok q) (capacity : Nat) :
    q.freeList capacity = if capacity = b.capacity ∧ p.refuses b = false then
      b.clear :: p.freeList capacity else p.freeList capacity := by
  obtain rfl : p.after (.put b) = q := Except.ok.inj ((put_eq h b).symm.trans hput)
  by_cases hmem : b.capacity ∈ p.classes.toList
  · have haddress : (Operation.put b).address p.classes = some b.capacity :=
      Operation.address_of_returned rfl hmem
    by_cases heq : capacity = b.capacity
    · subst heq
      obtain ⟨i, hcls⟩ := List.mem_iff_getElem?.1 hmem
      obtain ⟨free, hfree⟩ := h.exists_free hcls
      rw [freeList_after_of_address h haddress, freeList_of_class hcls hfree,
        refuses_of_class hcls hfree]
      cases hfull : p.isFull free with
      | true => rw [settle_of_full rfl hfull]; simp
      | false => rw [settle_of_room rfl hfull]; simp
    · rw [if_neg fun hboth => heq hboth.1]
      exact freeList_after_of_ne h fun ho => heq (Option.some.inj (ho.symm.trans haddress))
  · -- A capacity that is no class has no free list that could change.
    rw [refuses_of_notMem hmem, if_neg (by simp)]
    apply freeList_after_of_ne h
    rw [Operation.address_of_notMem rfl hmem]
    simp

/-- The same buffer without a guard. -/
def Holding.bare (x : Holding) : Holding :=
  .plain x.buffer

namespace Client

variable {c d last : Client} {slot : Nat} {s : Step} {a : Answer} {ts : List Turn}

/-- The client that holds the same buffers in the same slots, none of them under a guard. -/
def bare (c : Client) : Client :=
  { c with held := c.held.map (Option.map Holding.bare) }

/-- Whether a slot holds a guard. -/
def guards (c : Client) (slot : Nat) : Bool :=
  (c.holding? slot).any Holding.isGuarded

/-- The step that takes the place of a turn where there are no guards. There is none for a step that
    was refused, and none for detaching a guard. -/
def Turn.standIn (t : Turn) : Option Step :=
  match t.answer, t.step with
  | .refused _, _ => none
  | _, .take size => some (.get size)
  | _, .drop slot => some (if t.before.guards slot then .put slot else .drop slot)
  | _, .detach _ => none
  | _, s => some s

/-- The answer to the step that takes the place of a turn: that of the turn itself. -/
def Turn.standInAnswer (t : Turn) : Option Answer :=
  t.standIn.map fun _ => t.answer

/-! ### The client without guards -/

@[simp] theorem length_held_bare (c : Client) : c.bare.held.length = c.held.length :=
  List.length_map _

/-- Every slot holds the same buffer as before, and no guard. -/
@[simp] theorem holding?_bare (c : Client) (slot : Nat) :
    c.bare.holding? slot = (c.holding? slot).map Holding.bare := by
  unfold holding? bare
  rw [List.getElem?_map]
  cases c.held[slot]? <;> rfl

/-- A new holding without its guard is a new plain buffer. -/
@[simp] theorem bare_hold (c : Client) (x : Holding) : (c.hold x).bare = c.bare.hold x.bare := by
  simp [bare, hold]

/-- What a slot holds instead loses its guard as well. -/
@[simp] theorem bare_replace (c : Client) (slot : Nat) (x : Option Holding) :
    (c.replace slot x).bare = c.bare.replace slot (x.map Holding.bare) := by
  simp [bare, replace]

/-- An edit of a guarded buffer is the same edit of the plain one. -/
@[simp] theorem bare_revise (c : Client) (slot : Nat) (x : Holding) (e : Edit) (b : Buffer) :
    (c.revise slot x e b).bare = c.bare.revise slot x.bare e b := by
  cases x <;> simp [bare, revise, replace, Holding.withBuffer, Holding.bare, Holding.buffer]

/-- A slot that is filled with what it holds is as it was. -/
theorem replace_holding {x : Holding} (h : c.holding? slot = some x) :
    c.replace slot (some x) = c := by
  have hslot : c.held[slot]? = some (some x) := Option.join_eq_some_iff.1 h
  obtain ⟨hlt, hget⟩ := List.getElem?_eq_some_iff.1 hslot
  unfold replace
  rw [← hget, List.set_getElem_self]

theorem guards_of_guarded {g : Guard} (h : c.holding? slot = some (.guarded g)) :
    c.guards slot = true := by
  rw [guards, h]
  rfl

theorem guards_of_plain {b : Buffer} (h : c.holding? slot = some (.plain b)) :
    c.guards slot = false := by
  rw [guards, h]
  rfl

/-- **One step without guards.** The step that takes the place of a turn leads to the same pool and
    the same buffers and is answered alike. Where there is none, nothing happens. -/
theorem Does.bare (h : Does c s a d) :
    match (Turn.mk c s a d).standIn with
    | none => d.bare = c.bare
    | some s' => Does c.bare s' a d.bare := by
  cases h with
  | refused h => rfl
  | @got size cls b q h =>
    show Does c.bare (.get size) _ ((c.withPool q).hold (.plain b)).bare
    rw [bare_hold, ← length_held_bare]
    exact .got h
  | @took size cls b q h =>
    show Does c.bare (.get size) _ ((c.withPool q).hold (.guarded ⟨cls, b⟩)).bare
    rw [bare_hold, ← length_held_bare]
    exact .got h
  | allocated capacity =>
    show Does c.bare (.alloc capacity) _ (c.hold _).bare
    rw [bare_hold, ← length_held_bare]
    exact .allocated capacity
  | @returned slot b q hslot h =>
    show Does c.bare (.put slot) .done ((c.withPool q).replace slot none).bare
    rw [bare_replace]
    exact .returned (by rw [holding?_bare, hslot]; rfl) h
  | @dropped slot b hslot =>
    simp only [Turn.standIn, guards_of_plain hslot, Bool.false_eq_true, if_false]
    rw [bare_replace]
    exact .dropped (by rw [holding?_bare, hslot]; rfl)
  | @released slot g q hslot h =>
    simp only [Turn.standIn, guards_of_guarded hslot, if_true]
    rw [bare_replace]
    exact .returned (by rw [holding?_bare, hslot]; rfl) h
  | @detached slot g hslot =>
    -- Without guards the buffer is held as it is already.
    have hbare : c.bare.holding? slot = some (.plain g.buffer) := by
      rw [holding?_bare, hslot]
      rfl
    show (c.replace slot (some (.plain g.buffer))).bare = c.bare
    rw [bare_replace]
    exact replace_holding hbare
  | @edited slot x e b hslot hgrows h =>
    show Does c.bare (.edit slot e) _ (c.revise slot x e b).bare
    rw [bare_revise]
    exact .edited (by rw [holding?_bare, hslot]; rfl) hgrows h
  | @divided slot x e b part hslot hgrows h =>
    show Does c.bare (.edit slot e) _ ((c.revise slot x e b).hold _).bare
    rw [bare_hold, bare_revise, ← length_held_bare]
    exact .divided (by rw [holding?_bare, hslot]; rfl) hgrows h

/-- **A run without guards.** The steps that take the place of the turns lead to the same pool and
    the same buffers, and none of them is refused. -/
theorem Leads.bare (h : Leads c ts last) :
    c.bare.run (ts.filterMap Turn.standIn) = .ok (ts.filterMap Turn.standInAnswer, last.bare) := by
  induction h with
  | nil c => rfl
  | @cons c next last s a ts hturn hrest ih =>
    have hstep := hturn.bare
    rw [List.filterMap_cons, List.filterMap_cons, Turn.standInAnswer]
    cases hstandIn : (Turn.mk c s a next).standIn with
    | none =>
      -- The client without guards stays where it is, and goes on from there.
      rw [hstandIn] at hstep
      rw [← hstep]
      exact ih
    | some s' =>
      rw [hstandIn] at hstep
      exact run_cons hstep.step_eq ih

/-! ### Every guard is let go of or detached, once -/

/-- Whether a guard is taken into the slot. -/
def Turn.takes (slot : Nat) (t : Turn) : Bool :=
  match t.step, t.answer with
  | .take _, .served i _ _ _ => i = slot
  | _, _ => false

/-- Whether the guard in the slot is let go of. -/
def Turn.releases (slot : Nat) (t : Turn) : Bool :=
  t.step = .drop slot && t.before.guards slot

/-- Whether the guard in the slot is detached. -/
def Turn.detaches (slot : Nat) (t : Turn) : Bool :=
  t.step = .detach slot && t.before.guards slot

/-- A guard can always be let go of, and always be detached. -/
theorem refusal?_of_guards (h : c.guards slot = true) :
    c.refusal? (.drop slot) = none ∧ c.refusal? (.detach slot) = none := by
  unfold guards at h
  rcases hslot : c.holding? slot with _ | _ | _ <;>
    simp_all [refusal?, Holding.isGuarded]

/-- Replacing what one slot holds leaves the guards of the other slots. -/
theorem guards_replace {i : Nat} (hi : i < c.held.length) (x : Option Holding) (slot : Nat) :
    (c.replace i x).guards slot =
      if slot = i then x.any Holding.isGuarded else c.guards slot := by
  unfold guards
  rw [holding?_replace hi]
  split <;> rfl

/-- A new holding leaves the guards of the slots there were. -/
theorem guards_hold (c : Client) (x : Holding) (slot : Nat) :
    (c.hold x).guards slot = if slot = c.held.length then x.isGuarded else c.guards slot := by
  unfold guards
  rw [holding?_hold]
  split <;> rfl

@[simp] theorem guards_withPool (c : Client) (q : Pool) (slot : Nat) :
    (c.withPool q).guards slot = c.guards slot := rfl

@[simp] theorem held_withPool (c : Client) (q : Pool) : (c.withPool q).held = c.held := rfl

@[simp] theorem replace_withPool (c : Client) (q : Pool) (slot : Nat) (x : Option Holding) :
    (c.withPool q).replace slot x = (c.replace slot x).withPool q := rfl

/-- There is no guard in a slot that there is not yet. -/
theorem guards_length (c : Client) : c.guards c.held.length = false := by
  unfold guards holding?
  rw [List.getElem?_eq_none le_rfl]
  rfl

/-- A new plain buffer is no guard. -/
@[simp] theorem guards_hold_plain (c : Client) (b : Buffer) (slot : Nat) :
    (c.hold (.plain b)).guards slot = c.guards slot := by
  rw [guards_hold]
  split
  case isTrue h => rw [h, guards_length]; rfl
  case isFalse h => rfl

/-- A plain buffer that goes was no guard. -/
theorem guards_replace_plain {i : Nat} {b : Buffer} (h : c.holding? i = some (.plain b))
    (slot : Nat) : (c.replace i none).guards slot = c.guards slot := by
  rw [guards_replace (lt_length_of_holding? h)]
  split
  case isTrue heq => rw [heq, guards_of_plain h]; rfl
  case isFalse heq => rfl

/-- An edited guard is a guard, and an edited plain buffer is none. -/
theorem guards_revise {i : Nat} {x : Holding} (h : c.holding? i = some x) (e : Edit) (b : Buffer)
    (slot : Nat) : (c.revise i x e b).guards slot = c.guards slot := by
  show (c.replace i (some (x.withBuffer b))).guards slot = c.guards slot
  rw [guards_replace (lt_length_of_holding? h)]
  split
  case isTrue heq => rw [heq, guards, h]; cases x <;> rfl
  case isFalse heq => rfl

/-- **One entry.** A guard that was in a slot or is taken into it is let go of, is detached, or is
    in the slot afterwards, and only one of these. -/
theorem Does.guards (h : Does c s a d) (slot : Nat) :
    ((Turn.mk c s a d).takes slot).toNat + (c.guards slot).toNat =
      ((Turn.mk c s a d).releases slot).toNat + ((Turn.mk c s a d).detaches slot).toNat +
        (d.guards slot).toNat := by
  unfold Turn.takes Turn.releases Turn.detaches
  cases h with
  | @refused s r h =>
    -- Letting go of a guard and detaching it are not refused.
    cases hguards : c.guards slot with
    | false => cases s <;> simp
    | true =>
      obtain ⟨hdrop, hdetach⟩ := refusal?_of_guards hguards
      have hs : s ≠ .drop slot ∧ s ≠ .detach slot := by
        constructor
        · rintro rfl
          rw [hdrop] at h
          cases h
        · rintro rfl
          rw [hdetach] at h
          cases h
      cases s <;> simp_all
  | got h => simp
  | @took size cls b q h =>
    rw [guards_hold]
    by_cases heq : slot = c.held.length
    · subst heq
      simp [guards_length, Holding.isGuarded]
    · simp [heq, Ne.symm heq]
  | allocated capacity => simp
  | returned hslot h => simp [guards_replace_plain hslot]
  | @dropped i b hslot =>
    rw [guards_replace_plain hslot]
    by_cases heq : i = slot
    · subst heq
      simp [guards_of_plain hslot]
    · simp [heq]
  | @released i g q hslot h =>
    rw [replace_withPool, guards_withPool, guards_replace (lt_length_of_holding? hslot)]
    by_cases heq : i = slot
    · subst heq
      simp [guards_of_guarded hslot]
    · simp [heq, Ne.symm heq]
  | @detached i g hslot =>
    rw [guards_replace (lt_length_of_holding? hslot)]
    by_cases heq : i = slot
    · subst heq
      simp [guards_of_guarded hslot, Holding.isGuarded]
    · simp [heq, Ne.symm heq]
  | edited hslot hgrows h => simp [guards_revise hslot]
  | divided hslot hgrows h => simp [guards_revise hslot]

/-- **All entries.** -/
theorem Leads.guards (h : Leads c ts last) (slot : Nat) :
    ts.countP (Turn.takes slot) + (c.guards slot).toNat =
      ts.countP (Turn.releases slot) + ts.countP (Turn.detaches slot) +
        (last.guards slot).toNat := by
  induction h with
  | nil c => simp
  | @cons c next last s a ts hturn hrest ih =>
    have hentry := hturn.guards slot
    have hone (b : Bool) : (if b = true then 1 else 0) = b.toNat := by cases b <;> rfl
    rw [List.countP_cons, List.countP_cons, List.countP_cons, hone, hone, hone]
    omega

/-- Slots are only added, and a guard is taken into a slot that is added for it. -/
theorem Does.takes (h : Does c s a d) (slot : Nat) :
    c.held.length ≤ d.held.length ∧
      ((Turn.mk c s a d).takes slot = true → slot = c.held.length ∧ slot < d.held.length) := by
  cases h <;> simp [Turn.takes, hold, replace, revise, withPool]
  case took => omega

/-- At most one guard is taken into a slot, and none if the slot is there already. -/
theorem Leads.takes (h : Leads c ts last) (slot : Nat) :
    ts.countP (Turn.takes slot) ≤ if slot < c.held.length then 0 else 1 := by
  induction h with
  | nil c => simp
  | @cons c next last s a ts hturn hrest ih =>
    obtain ⟨hgrows, htakes⟩ := hturn.takes slot
    rw [List.countP_cons]
    -- Once a guard was taken into the slot, the slot is there and takes no other.
    by_cases ht : (Turn.mk c s a next).takes slot = true
    · obtain ⟨hslot, hnext⟩ := htakes ht
      rw [if_pos hnext] at ih
      rw [if_pos ht, if_neg (by omega)]
      omega
    · rw [if_neg ht]
      split at ih <;> split <;> omega

/-! ### A guard in a turn -/

/-- What becomes of a guard in a turn. -/
structure Turn.Treats (t : Turn) (slot : Nat) (g : Guard) : Prop where
  /-- If it is let go of, its buffer is returned. It is filed by the capacity that it has then, and
      no other free list changes. -/
  released : t.step = .drop slot → t.before.pool.put g.buffer = .ok t.after.pool ∧
    ∀ capacity, t.after.pool.freeList capacity =
      if capacity = g.buffer.capacity ∧ t.before.pool.refuses g.buffer = false then
        g.buffer.clear :: t.before.pool.freeList capacity
      else t.before.pool.freeList capacity
  /-- If it is detached, its buffer stays, and the pool is as it was. -/
  detached : t.step = .detach slot →
    t.after.holding? slot = some (.plain g.buffer) ∧ t.after.pool = t.before.pool
  /-- Otherwise it stays, with the class that it remembers. -/
  kept : t.step ≠ .drop slot → t.step ≠ .detach slot →
    ∃ b, t.after.holding? slot = some (.guarded ⟨g.cls, b⟩)

/-- A guard is always taken, with what the pool serves, and put into a new slot. -/
theorem Does.guarded_of_take {size : Nat} (h : Does c (.take size) a d) :
    ∃ g, c.pool.take size = .ok (g, d.pool) ∧
      d.holding? c.held.length = some (.guarded g) := by
  cases h with
  | refused h => cases h
  | @took _ cls b q h =>
    refine ⟨⟨cls, b⟩, ?_, ?_⟩
    · rw [Pool.take, h]
      rfl
    · rw [holding?_hold]
      exact if_pos rfl

/-- A guard that is let go of returns its buffer. -/
theorem Does.put_of_drop {g : Guard} (h : Does c (.drop slot) a d)
    (hguard : c.holding? slot = some (.guarded g)) : c.pool.put g.buffer = .ok d.pool := by
  cases h with
  | refused h =>
    rw [(refusal?_of_guards (guards_of_guarded hguard)).1] at h
    cases h
  | dropped hslot =>
    rw [hguard] at hslot
    cases hslot
  | released hslot h =>
    rw [hguard] at hslot
    obtain rfl := Holding.guarded.inj (Option.some.inj hslot)
    exact h

/-- A guard that is detached leaves its buffer, and leaves the pool alone. -/
theorem Does.plain_of_detach {g : Guard} (h : Does c (.detach slot) a d)
    (hguard : c.holding? slot = some (.guarded g)) :
    d.holding? slot = some (.plain g.buffer) ∧ d.pool = c.pool := by
  cases h with
  | refused h =>
    rw [(refusal?_of_guards (guards_of_guarded hguard)).2] at h
    cases h
  | detached hslot =>
    rw [hguard] at hslot
    obtain rfl := Holding.guarded.inj (Option.some.inj hslot)
    refine ⟨?_, rfl⟩
    rw [holding?_replace (lt_length_of_holding? hguard), if_pos rfl]

/-- A new holding takes no slot that is in use. -/
theorem holding?_hold_of_some {x : Holding} (h : c.holding? slot = some x) (y : Holding) :
    (c.hold y).holding? slot = some x := by
  rw [holding?_hold, if_neg (Nat.ne_of_lt (lt_length_of_holding? h)), h]

/-- A guard stays where another slot is emptied or filled. -/
theorem holding?_replace_of_some {x : Holding} {i : Nat} (hi : i < c.held.length)
    (h : c.holding? slot = some x) (hne : i ≠ slot) (y : Option Holding) :
    (c.replace i y).holding? slot = some x := by
  rw [holding?_replace hi, if_neg hne.symm, h]

/-- A guard whose buffer is edited remembers its class. -/
theorem holding?_revise {g : Guard} {i : Nat} {x : Holding}
    (hguard : c.holding? slot = some (.guarded g)) (hi : c.holding? i = some x) (e : Edit)
    (b : Buffer) : ∃ b', (c.revise i x e b).holding? slot = some (.guarded ⟨g.cls, b'⟩) := by
  show ∃ b', (c.replace i (some (x.withBuffer b))).holding? slot = _
  rw [holding?_replace (lt_length_of_holding? hi)]
  by_cases heq : slot = i
  · subst heq
    obtain rfl := Option.some.inj (hi.symm.trans hguard)
    exact ⟨b, if_pos rfl⟩
  · exact ⟨g.buffer, by rw [if_neg heq, hguard]⟩

/-- A guard that is neither let go of nor detached stays. -/
theorem Does.keeps {g : Guard} (h : Does c s a d) (hguard : c.holding? slot = some (.guarded g))
    (hdrop : s ≠ .drop slot) (hdetach : s ≠ .detach slot) :
    ∃ b, d.holding? slot = some (.guarded ⟨g.cls, b⟩) := by
  -- A plain buffer is not in the slot of the guard.
  have hne {i : Nat} {b : Buffer} (hi : c.holding? i = some (.plain b)) : i ≠ slot := by
    rintro rfl
    rw [hguard] at hi
    cases hi
  cases h with
  | refused h => exact ⟨g.buffer, hguard⟩
  | got h => exact ⟨g.buffer, holding?_hold_of_some hguard _⟩
  | took h => exact ⟨g.buffer, holding?_hold_of_some hguard _⟩
  | allocated capacity => exact ⟨g.buffer, holding?_hold_of_some hguard _⟩
  | returned hslot h =>
    exact ⟨g.buffer, holding?_replace_of_some (lt_length_of_holding? hslot) hguard (hne hslot) _⟩
  | dropped hslot =>
    exact ⟨g.buffer, holding?_replace_of_some (lt_length_of_holding? hslot) hguard (hne hslot) _⟩
  | released hslot h =>
    exact ⟨g.buffer, holding?_replace_of_some (lt_length_of_holding? hslot) hguard
      (fun heq => hdrop (congrArg Step.drop heq)) _⟩
  | detached hslot =>
    exact ⟨g.buffer, holding?_replace_of_some (lt_length_of_holding? hslot) hguard
      (fun heq => hdetach (congrArg Step.detach heq)) _⟩
  | edited hslot hgrows h => exact holding?_revise hguard hslot _ _
  | divided hslot hgrows h =>
    obtain ⟨b, hb⟩ := holding?_revise hguard hslot _ _
    exact ⟨b, holding?_hold_of_some hb _⟩

/-- **A guard in a turn.** -/
theorem Does.treats {g : Guard} (h : Does c s a d) (hwf : c.pool.WellFormed)
    (hguard : c.holding? slot = some (.guarded g)) : (Turn.mk c s a d).Treats slot g where
  released := by
    rintro rfl
    have hput := h.put_of_drop hguard
    exact ⟨hput, freeList_of_put hwf hput⟩
  detached := by
    rintro rfl
    exact h.plain_of_detach hguard
  kept := h.keeps hguard

/-! ### Letting go of all that is held -/

/-- The steps that let go of what is held, slot by slot. -/
def dropAll (c : Client) : List Step :=
  (List.range c.held.length).map .drop

/-- Dropping the slots from one on, where those before it are empty. -/
theorem close_of_drops {k : Nat} {rest : List (Option Holding)} {answers : List Answer}
    (hheld : c.held = List.replicate k none ++ rest)
    (hrun : c.run ((List.range' k rest.length).map .drop) = .ok (answers, d)) :
    rest.reduceOption.foldlM letGo c.pool = .ok d.pool ∧
      d.held = List.replicate (k + rest.length) none := by
  -- The slots before `k` are empty, and each step moves `k` behind the slot that it empties.
  induction rest generalizing c k answers with
  | nil =>
    obtain ⟨rfl, rfl⟩ := Prod.mk.inj (Except.ok.inj hrun)
    exact ⟨rfl, by simpa using hheld⟩
  | cons x rest ih =>
    obtain ⟨a, next, as, hstep, hrest, rfl⟩ := exists_of_run_cons hrun
    have hslot : c.holding? k = x := by
      rw [holding?, hheld]
      simp
    have hset : c.held.set k none = List.replicate (k + 1) none ++ rest := by
      rw [hheld, List.set_append_right _ _ (by simp), List.length_replicate, Nat.sub_self,
        List.set_cons_zero, List.replicate_succ', List.append_assoc]
      rfl
    have hlength : k + (x :: rest).length = k + 1 + rest.length := by
      rw [List.length_cons]
      omega
    rw [hlength]
    cases does_of_step hstep with
    | refused h =>
      obtain rfl : x = none := by
        cases x with
        | none => rfl
        | some x => simp [refusal?, hslot] at h
      exact ih (hheld.trans (by rw [List.replicate_succ', List.append_assoc]; rfl)) hrest
    | @dropped _ b hplain =>
      obtain rfl := hslot.symm.trans hplain
      exact ih (c := c.replace k none) hset hrest
    | @released _ g q hguard hput =>
      obtain rfl := hslot.symm.trans hguard
      obtain ⟨hclose, hempty⟩ := ih (c := (c.withPool q).replace k none) hset hrest
      exact ⟨bind_eq_ok.2 ⟨q, hput, hclose⟩, hempty⟩

/-- **Letting go of all that is held.** Dropping it slot by slot does to the pool what letting go of
    it at once does, and leaves every slot empty. -/
theorem close_of_dropAll {answers : List Answer} (h : c.run c.dropAll = .ok (answers, d)) :
    c.close = .ok d.pool ∧ ∀ slot, d.holding? slot = none := by
  rw [dropAll, List.range_eq_range'] at h
  have hheld : c.held = List.replicate 0 none ++ c.held := rfl
  obtain ⟨hclose, hempty⟩ := close_of_drops hheld h
  refine ⟨hclose, fun slot => ?_⟩
  rw [holding?, hempty, List.getElem?_replicate]
  split <;> rfl

/-! ### Scripts -/

/-- **A guard is a request with one return.** A script runs at a pool that was used before, and what
    is held at its end is let go of slot by slot. At each turn of this, the steps that take the
    place of the turns so far lead without guards to the same pool and the same buffers. Every guard
    that is asked for is taken into a slot of its own. It is then let go of or detached, and only
    once: if it is let go of, its buffer is returned and filed by the capacity that it has then; if
    it is detached, nothing is returned. -/
theorem run_without_guards {config : Config} {p₀ : Pool} {ops : List Operation}
    {moments : List Moment} (h : ofConfig config = .ok (.ok p₀))
    (hused : p₀.run ops = .ok (moments, p)) (steps : List Step) :
    ∃ answers last ts final,
      (ofPool p).run steps = .ok (answers, last) ∧
      (ofPool p).turns (steps ++ last.dropAll) = .ok (ts, final) ∧
      (ofPool p).run (steps ++ last.dropAll) = .ok (ts.map Turn.answer, final) ∧
      last.close = .ok final.pool ∧ (∀ slot, final.holding? slot = none) ∧
      (∀ before t after, ts = before ++ t :: after →
        (ofPool p).run (before.filterMap Turn.standIn) =
          .ok (before.filterMap Turn.standInAnswer, t.before.bare) ∧
        (ofPool p).run ((before ++ [t]).filterMap Turn.standIn) =
          .ok ((before ++ [t]).filterMap Turn.standInAnswer, t.after.bare)) ∧
      (ofPool p).run (ts.filterMap Turn.standIn) =
        .ok (ts.filterMap Turn.standInAnswer, final.bare) ∧
      (∀ slot, ts.countP (Turn.takes slot) ≤ 1 ∧
        ts.countP (Turn.releases slot) + ts.countP (Turn.detaches slot) =
          ts.countP (Turn.takes slot)) ∧
      (∀ t ∈ ts, ∀ size, t.step = .take size →
        ∃ g, t.before.pool.take size = .ok (g, t.after.pool) ∧
          t.after.holding? t.before.held.length = some (.guarded g)) ∧
      ∀ t ∈ ts, ∀ slot g, t.before.holding? slot = some (.guarded g) → t.Treats slot g := by
  have hwf : p.WellFormed := by
    obtain ⟨_, q, hrun, hq, -⟩ := run_continues (wellFormed_of_ofConfig h) ops
    obtain ⟨-, rfl⟩ := Prod.mk.inj (Except.ok.inj (hused.symm.trans hrun))
    exact hq.wellFormed
  -- The script, the letting go at its end, and both as one run.
  obtain ⟨_, last, -, -, hrun, hlast⟩ := exists_turns (c := ofPool p) hwf steps
  obtain ⟨_, final, -, -, hdrops, -⟩ := exists_turns hlast last.dropAll
  obtain ⟨hclose, hempty⟩ := close_of_dropAll hdrops
  obtain ⟨ts, final', hturns, hleads, hrun', -⟩ :=
    exists_turns (c := ofPool p) hwf (steps ++ last.dropAll)
  obtain ⟨-, rfl⟩ := Prod.mk.inj (Except.ok.inj ((run_append hrun hdrops).symm.trans hrun'))
  refine ⟨_, last, ts, final, hrun, hturns, hrun', hclose, hempty, ?_, hleads.bare, ?_, ?_, ?_⟩
  · rintro before ⟨c, s, a, d⟩ after rfl
    obtain ⟨hbefore, hturn, -⟩ := hleads.split
    exact ⟨hbefore.bare, (hbefore.concat hturn).bare⟩
  · intro slot
    have hcounts := hleads.guards slot
    have hnone : (ofPool p).guards slot = false := rfl
    have hgone : final.guards slot = false := by rw [guards, hempty]; rfl
    rw [hnone, hgone] at hcounts
    exact ⟨hleads.takes slot, hcounts.symm⟩
  · rintro ⟨c, s, a, d⟩ ht size rfl
    obtain ⟨before, after, rfl⟩ := List.append_of_mem ht
    obtain ⟨-, hturn, -⟩ := hleads.split
    exact hturn.guarded_of_take
  · rintro ⟨c, s, a, d⟩ ht slot g hguard
    obtain ⟨before, after, rfl⟩ := List.append_of_mem ht
    obtain ⟨hbefore, hturn, -⟩ := hleads.split
    exact hturn.treats (hbefore.wellFormed hwf) hguard

/-- A guard whose buffer outgrows its class before it is let go of, one that is detached and returned
    by hand, and one that is still held at the end. The buffer that has grown serves the second. -/
theorem run_without_guards_of_grown :
    let p := { unused ⟨2, 6⟩ (some 1) with misses := 1 }
    let steps : List Step :=
      [.take 5, .edit 0 (.extend [1, 2, 3, 4, 5, 6, 7, 8, 9]), .drop 0, .take 9, .put 1, .detach 1,
        .put 1, .take 3]
    let instead : List Step :=
      [.get 5, .edit 0 (.extend [1, 2, 3, 4, 5, 6, 7, 8, 9]), .put 0, .get 9, .put 1, .get 3, .put 2]
    (unused ⟨2, 6⟩ (some 1)).run [.get 3] =
        .ok ([⟨unused ⟨2, 6⟩ (some 1), .get 3, some (Buffer.empty 4, 4)⟩], p) ∧
      ∃ ts final, (ofPool p).turns (steps ++ [.drop 0, .drop 1, .drop 2]) = .ok (ts, final) ∧
        ts.filterMap Turn.standIn = instead ∧
        (ofPool p).run instead = .ok (ts.filterMap Turn.standInAnswer, final.bare) ∧
        final.pool.hits = 1 ∧ final.pool.freeList 16 = [Buffer.empty 16] := by
  intro p steps instead
  have hp : ofConfig ⟨3, 100, some 1⟩ = .ok (.ok (unused ⟨2, 6⟩ (some 1))) := by decide
  have hused : (unused ⟨2, 6⟩ (some 1)).run [.get 3] =
      .ok ([⟨unused ⟨2, 6⟩ (some 1), .get 3, some (Buffer.empty 4, 4)⟩], p) := by decide
  obtain ⟨answers, last, ts, final, hrun, hturns, -, -, -, -, hinstead, -, -, -⟩ :=
    run_without_guards hp hused steps
  have hlast : ((ofPool p).run steps).map (fun r => r.2.dropAll) =
      .ok [.drop 0, .drop 1, .drop 2] := by decide
  rw [hrun] at hlast
  replace hlast : last.dropAll = [.drop 0, .drop 1, .drop 2] := Except.ok.inj hlast
  rw [hlast] at hturns
  have hstandIns : ((ofPool p).turns (steps ++ [.drop 0, .drop 1, .drop 2])).map
      (fun r => (r.1.filterMap Turn.standIn, r.2.pool.hits, r.2.pool.freeList 16)) =
      .ok (instead, 1, [Buffer.empty 16]) := by decide
  rw [hturns] at hstandIns
  obtain ⟨hsteps, hhits, hfree⟩ : ts.filterMap Turn.standIn = instead ∧ final.pool.hits = 1 ∧
      final.pool.freeList 16 = [Buffer.empty 16] := by
    simpa [Except.map] using hstandIns
  exact ⟨hused, ts, final, hturns, hsteps, hsteps ▸ hinstead, hhits, hfree⟩

end Client

end WireBytes.Pool
