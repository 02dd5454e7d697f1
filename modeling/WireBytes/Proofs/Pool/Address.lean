import Mathlib
import WireBytes.Proofs.Pool.FreeLists

/-!
# Where an operation goes

An operation is addressed to one class at most. What becomes of it depends on the free list of that
class alone, and it changes no other free list.

* `Operation.address` — the class that an operation is addressed to; `Pool.outcome` — what the
  counters tell of it;
* `Pool.settle` — what an operation does to the free list of its class, and `Pool.after` to the
  pool; `Pool.perform_eq` — this is what every operation does to a well-formed pool;
* `Pool.freeList_after_of_address` and `Pool.freeList_after_of_ne` — the free lists afterwards;
* `Pool.outcome_after_of_address` and `Pool.outcome_after_of_stray` — what the counters tell.
-/

namespace WireBytes.Pool

variable {p q : Pool} {o : Operation} {cls : Nat} {free : List Buffer}

/-! ### Addresses and outcomes -/

/-- The class that an operation is addressed to: that which serves the size asked for, or the
    capacity of the buffer that comes back, if it is a class. -/
def Operation.address (o : Operation) (r : ClassRange) : Option Nat :=
  match o.requested?, o.returned? with
  | some size, _ => (r.fit size).toOption.map (·.2)
  | none, some b => if b.capacity ∈ r.toList then some b.capacity else none
  | none, none => none

/-- What becomes of an operation. -/
inductive Outcome where
  /-- An idle buffer is handed out. -/
  | hit
  /-- A new buffer is handed out. -/
  | miss
  /-- A buffer that came back is kept. -/
  | kept
  /-- A buffer that came back is given up. -/
  | refused
  deriving DecidableEq, Repr

/-- What became of the operation between two states of a pool, as its counters tell. -/
def outcome (p q : Pool) : Option Outcome :=
  if q.hits ≠ p.hits then some .hit
  else if q.misses ≠ p.misses then some .miss
  else if q.returns ≠ p.returns then some .kept
  else if q.drops ≠ p.drops then some .refused
  else none

/-- The pool with an outcome counted. -/
def tally (p : Pool) : Option Outcome → Pool
  | some .hit => { p with hits := p.hits + 1 }
  | some .miss => { p with misses := p.misses + 1 }
  | some .kept => { p with returns := p.returns + 1 }
  | some .refused => { p with drops := p.drops + 1 }
  | none => p

section Tally

variable (p) (x y : Option Outcome)

/-- Counting does not change the classes. -/
@[simp] theorem classes_tally : (p.tally x).classes = p.classes := by
  rcases x with _ | _ | _ | _ | _ <;> rfl

@[simp] theorem limit_tally : (p.tally x).limit = p.limit := by
  rcases x with _ | _ | _ | _ | _ <;> rfl

/-- Counting does not change the free lists. -/
@[simp] theorem idle_tally : (p.tally x).idle = p.idle := by
  rcases x with _ | _ | _ | _ | _ <;> rfl

/-- The order in which two outcomes were counted does not show. -/
theorem tally_comm : (p.tally x).tally y = (p.tally y).tally x := by
  rcases x with _ | _ | _ | _ | _ <;> rcases y with _ | _ | _ | _ | _ <;> rfl

/-- The counters tell what was counted, also where one of them wraps around. -/
@[simp] theorem outcome_tally : p.outcome (p.tally x) = x := by
  have hne (n : UInt64) : n + 1 ≠ n := by simp
  rcases x with _ | _ | _ | _ | _ <;> simp [outcome, tally, hne]

end Tally

/-! ### Free lists by class -/

/-- The free list of a class, and the empty one for a capacity that is no class. -/
def freeList (p : Pool) (cls : Nat) : List Buffer :=
  (p.idle[p.classes.toList.idxOf cls]?).getD []

/-- The pool with another free list for a class. -/
def withFree (p : Pool) (cls : Nat) (free : List Buffer) : Pool :=
  { p with idle := p.idle.set (p.classes.toList.idxOf cls) free }

/-- The place of a class in the list of the classes is the only place where it stands. -/
theorem idxOf_toList {r : ClassRange} {i : Nat} (h : r.toList[i]? = some cls) :
    r.toList.idxOf cls = i :=
  ClassRange.getElem?_toList_inj (List.getElem?_idxOf (List.mem_of_getElem? h)) h

/-- The free list of a class is the one at the place of the class. -/
theorem freeList_of_class {i : Nat} (hcls : p.classes.toList[i]? = some cls)
    (hfree : p.idle[i]? = some free) : p.freeList cls = free := by
  rw [freeList, idxOf_toList hcls, hfree]
  rfl

/-- Filing a list for a class replaces the one at the place of the class. -/
theorem withFree_of_class {i : Nat} (hcls : p.classes.toList[i]? = some cls) :
    p.withFree cls free = { p with idle := p.idle.set i free } := by
  rw [withFree, idxOf_toList hcls]

@[simp] theorem classes_withFree : (p.withFree cls free).classes = p.classes := rfl

@[simp] theorem limit_withFree : (p.withFree cls free).limit = p.limit := rfl

/-- What is filed does not show in the counters. -/
@[simp] theorem outcome_withFree : p.outcome (q.withFree cls free) = p.outcome q := rfl

@[simp] theorem freeList_tally (x : Option Outcome) :
    (p.tally x).freeList cls = p.freeList cls := by
  simp [freeList]

/-- Filing and counting may be done in either order. -/
theorem withFree_tally (x : Option Outcome) :
    (p.tally x).withFree cls free = (p.withFree cls free).tally x := by
  rcases x with _ | _ | _ | _ | _ <;> rfl

/-- A free list that is filed anew as it was changes nothing. -/
theorem withFree_freeList (h : p.classes.toList.idxOf cls < p.idle.length) :
    p.withFree cls (p.freeList cls) = p := by
  rw [withFree, freeList, List.getElem?_eq_getElem h, Option.getD_some, List.set_getElem_self]

/-- Every class has a place among the free lists. -/
theorem WellFormed.idxOf_lt (h : p.WellFormed) (hcls : cls ∈ p.classes.toList) :
    p.classes.toList.idxOf cls < p.idle.length := by
  rw [h.paired]
  exact List.idxOf_lt_length_of_mem hcls

/-- What was filed for a class is its free list. -/
theorem freeList_withFree (h : p.WellFormed) (hcls : cls ∈ p.classes.toList) :
    (p.withFree cls free).freeList cls = free := by
  simp [freeList, withFree, h.idxOf_lt hcls]

/-- Filing for one class leaves the free lists of the other classes. -/
theorem freeList_withFree_of_ne {cls' : Nat} (hcls : cls ∈ p.classes.toList) (hne : cls' ≠ cls) :
    (p.withFree cls free).freeList cls' = p.freeList cls' := by
  have hidx : p.classes.toList.idxOf cls ≠ p.classes.toList.idxOf cls' :=
    fun heq => hne ((List.idxOf_inj hcls).1 heq).symm
  simp [freeList, withFree, List.getElem?_set_ne hidx]

/-- For two classes it does not matter which list is filed first. -/
theorem withFree_comm {cls' : Nat} {free' : List Buffer} (hcls : cls ∈ p.classes.toList)
    (hne : cls' ≠ cls) :
    (p.withFree cls free).withFree cls' free' = (p.withFree cls' free').withFree cls free := by
  have hidx : p.classes.toList.idxOf cls ≠ p.classes.toList.idxOf cls' :=
    fun heq => hne ((List.idxOf_inj hcls).1 heq).symm
  simp [withFree, List.set_comm _ _ hidx]

/-- The free lists are those of the classes, in the order of the classes. -/
theorem WellFormed.idle_eq (h : p.WellFormed) : p.idle = p.classes.toList.map p.freeList := by
  apply List.ext_getElem
  · rw [List.length_map]
    exact h.paired
  · intro i hi hi'
    have hcls : i < p.classes.toList.length := h.paired ▸ hi
    rw [List.getElem_map]
    exact (freeList_of_class (List.getElem?_eq_getElem hcls) (List.getElem?_eq_getElem hi)).symm

/-- A pool that was never used has nothing idle, whatever its classes and its limit are. -/
@[simp] theorem freeList_unused (r : ClassRange) (limit : Option UInt64) (cls : Nat) :
    (unused r limit).freeList cls = [] := by
  simp only [freeList, unused, List.getElem?_replicate]
  split <;> rfl

/-- The report of a capacity is the length of its free list. -/
theorem WellFormed.retained_eq (h : p.WellFormed) (capacity : Nat) :
    p.retained capacity = .ok (p.freeList capacity).length := by
  by_cases hmem : capacity ∈ p.classes.toList
  · obtain ⟨i, hcls⟩ := List.mem_iff_getElem?.1 hmem
    obtain ⟨free, hfree⟩ := h.exists_free hcls
    rw [retained_of_class hcls hfree, freeList_of_class hcls hfree]
  · have hlen : p.idle.length ≤ p.classes.toList.idxOf capacity := by
      rw [List.idxOf_of_notMem hmem, h.paired]
    rw [retained_of_notMem hmem, freeList, List.getElem?_eq_none hlen]
    rfl

/-! ### What an operation does -/

/-- What an operation does to the free list of the class that it is addressed to: the outcome, and
    the list after it. -/
def settle (p : Pool) (o : Operation) (free : List Buffer) : Option Outcome × List Buffer :=
  match o.returned? with
  | some b => if p.isFull free then (some .refused, free) else (some .kept, b.clear :: free)
  | none =>
    match free with
    | [] => (some .miss, [])
    | _ :: rest => (some .hit, rest)

/-- What becomes of an operation that is addressed to no class. -/
def Operation.stray (o : Operation) : Option Outcome :=
  if o.returned?.isSome then some .refused else none

/-- What an operation is served with, if it is a request. -/
def Operation.served (o : Operation) (r : ClassRange) : Option (Buffer × Nat) :=
  if o.requested?.isSome then (o.address r).map fun cls => (Buffer.empty cls, cls) else none

/-- The pool after an operation. -/
def after (p : Pool) (o : Operation) : Pool :=
  match o.address p.classes with
  | some cls =>
    (p.withFree cls (p.settle o (p.freeList cls)).2).tally (p.settle o (p.freeList cls)).1
  | none => p.tally o.stray

/-- What an operation comes to depends on the limit of the pool, and else on the free list alone. -/
theorem settle_of_limit (h : q.limit = p.limit) : q.settle o free = p.settle o free := by
  have hfull : q.isFull free = p.isFull free := by
    unfold isFull
    rw [h]
  unfold settle
  rw [hfull]

/-- A request at an empty free list is a miss and leaves it empty. -/
theorem settle_of_none_idle {size : Nat} (ho : o.requested? = some size) :
    p.settle o [] = (some .miss, []) := by
  simp only [settle, Operation.returned?_of_requested? ho]

/-- Any other request is a hit and takes the buffer that came back last. -/
theorem settle_of_idle {size : Nat} (ho : o.requested? = some size) (b : Buffer) :
    p.settle o (b :: free) = (some .hit, free) := by
  simp only [settle, Operation.returned?_of_requested? ho]

/-- At a full free list a buffer that comes back is given up. -/
theorem settle_of_full {b : Buffer} (ho : o.returned? = some b) (hfull : p.isFull free = true) :
    p.settle o free = (some .refused, free) := by
  unfold settle
  rw [ho]
  exact if_pos hfull

/-- At a free list with room it is emptied and put in front. -/
theorem settle_of_room {b : Buffer} (ho : o.returned? = some b) (hroom : p.isFull free = false) :
    p.settle o free = (some .kept, b.clear :: free) := by
  unfold settle
  rw [ho]
  exact if_neg (ne_true_of_eq_false hroom)

/-- An operation addressed to a class files there what it settles, and counts the outcome. -/
theorem after_of_address (h : o.address p.classes = some cls) :
    p.after o =
      (p.withFree cls (p.settle o (p.freeList cls)).2).tally (p.settle o (p.freeList cls)).1 := by
  rw [after, h]

/-- An operation without an address is counted at most. -/
theorem after_of_stray (h : o.address p.classes = none) : p.after o = p.tally o.stray := by
  rw [after, h]

/-- No operation changes the classes. -/
@[simp] theorem classes_after (p : Pool) (o : Operation) : (p.after o).classes = p.classes := by
  cases h : o.address p.classes with
  | none => simp [after_of_stray h]
  | some cls => simp [after_of_address h]

/-- No operation changes the limit. -/
@[simp] theorem limit_after (p : Pool) (o : Operation) : (p.after o).limit = p.limit := by
  cases h : o.address p.classes with
  | none => simp [after_of_stray h]
  | some cls => simp [after_of_address h]

/-! ### Every operation does so -/

/-- A request is addressed to the class that fits its size. -/
theorem Operation.address_of_requested {size i : Nat} (ho : o.requested? = some size)
    {r : ClassRange} (hfit : r.fit size = .ok (i, cls)) : o.address r = some cls := by
  simp [address, ho, hfit, Except.toOption]

/-- A buffer that comes back is addressed by the capacity that it has now. -/
theorem Operation.address_of_returned {b : Buffer} (ho : o.returned? = some b) {r : ClassRange}
    (hb : b.capacity ∈ r.toList) : o.address r = some b.capacity := by
  rw [address, requested?_of_returned? ho, ho]
  exact if_pos hb

/-- A buffer whose capacity is no class is not addressed to any. -/
theorem Operation.address_of_notMem {b : Buffer} (ho : o.returned? = some b) {r : ClassRange}
    (hb : b.capacity ∉ r.toList) : o.address r = none := by
  rw [address, requested?_of_returned? ho, ho]
  exact if_neg hb

/-- An operation is addressed to a class of the range. -/
theorem Operation.mem_of_address {r : ClassRange} (hr : r.Valid) (h : o.address r = some cls) :
    cls ∈ r.toList := by
  unfold address at h
  split at h
  · obtain ⟨i, c, hfit, hc⟩ := ClassRange.exists_fit hr (by assumption)
    rw [hfit] at h
    obtain rfl : c = cls := by simpa [Except.toOption] using h
    exact List.mem_of_getElem? hc
  · split at h
    · obtain rfl : _ = cls := by simpa using h
      assumption
    · simp at h
  · simp at h

/-- Each branch of the pool's operations comes to what `after` says. -/
theorem Moves.eq_after {served : Option (Buffer × Nat)} (hm : Moves p o served q)
    (h : p.WellFormed) : served = o.served p.classes ∧ q = p.after o := by
  cases hm with
  | @hit _ size i cls rest ho hfit hcls hfree =>
    have haddress := Operation.address_of_requested ho hfit
    refine ⟨by simp [Operation.served, ho, haddress], ?_⟩
    rw [after_of_address haddress, freeList_of_class hcls hfree, settle_of_idle ho,
      withFree_of_class hcls]
    rfl
  | @miss _ size i cls ho hfit hcls hfree =>
    have haddress := Operation.address_of_requested ho hfit
    have hfree' := freeList_of_class hcls hfree
    have hsame := withFree_freeList (h.idxOf_lt (List.mem_of_getElem? hcls))
    rw [hfree'] at hsame
    refine ⟨by simp [Operation.served, ho, haddress], ?_⟩
    rw [after_of_address haddress, hfree', settle_of_none_idle ho, hsame]
    rfl
  | @keep _ b i free ho hcls hfree hroom hkeep =>
    have haddress := Operation.address_of_returned ho (List.mem_of_getElem? hcls)
    refine ⟨by simp [Operation.served, Operation.requested?_of_returned? ho], ?_⟩
    rw [after_of_address haddress, freeList_of_class hcls hfree, settle_of_room ho hroom,
      withFree_of_class hcls]
    rfl
  | @refuse _ b ho hrefuse =>
    refine ⟨by simp [Operation.served, Operation.requested?_of_returned? ho], ?_⟩
    -- The capacity is no class, or it is and the free list of the class is full.
    by_cases hb : b.capacity ∈ p.classes.toList
    · obtain ⟨i, hcls⟩ := List.mem_iff_getElem?.1 hb
      obtain ⟨free, hfree⟩ := h.exists_free hcls
      have hfull : p.isFull free = true := (refuses_of_class hcls hfree).symm.trans hrefuse
      have hfree' := freeList_of_class hcls hfree
      have hsame := withFree_freeList (h.idxOf_lt hb)
      rw [hfree'] at hsame
      rw [after_of_address (Operation.address_of_returned ho hb), hfree', settle_of_full ho hfull,
        hsame]
      rfl
    · rw [after_of_stray (Operation.address_of_notMem ho hb)]
      simp [Operation.stray, ho, tally]
  | detach g => exact ⟨rfl, rfl⟩

/-- **What every operation does.** It does not fault, it is served with a buffer as good as a new
    one of the class that it is addressed to, and it concerns the free list of that class alone. -/
theorem perform_eq (h : p.WellFormed) (o : Operation) :
    p.perform o = .ok (o.served p.classes, p.after o) := by
  obtain ⟨served, q, hperform, hmove⟩ := perform_moves h o
  obtain ⟨rfl, rfl⟩ := hmove.eq_after h
  exact hperform

/-- Every operation keeps the invariant. -/
theorem WellFormed.after (h : p.WellFormed) (o : Operation) : (p.after o).WellFormed := by
  obtain ⟨served, q, hperform, hmove⟩ := perform_moves h o
  obtain ⟨rfl, rfl⟩ := hmove.eq_after h
  exact (hmove.continues h).wellFormed

/-- A request is served with a buffer of the class that it is addressed to. -/
theorem get_eq (h : p.WellFormed) (size : Nat) :
    ∃ cls, (Operation.get size).address p.classes = some cls ∧
      p.get size = .ok ((Buffer.empty cls, cls), p.after (.get size)) := by
  obtain ⟨i, cls, q, hfit, -, hget, hmove⟩ := get_moves h size
  obtain ⟨-, rfl⟩ := (hmove (.get size) rfl).eq_after h
  exact ⟨cls, Operation.address_of_requested rfl hfit, hget⟩

/-- Any buffer may come back without a fault, whatever its capacity is. -/
theorem put_eq (h : p.WellFormed) (b : Buffer) : p.put b = .ok (p.after (.put b)) := by
  obtain ⟨q, hput, hmove⟩ := put_moves h b
  obtain ⟨-, rfl⟩ := (hmove (.put b) rfl).eq_after h
  exact hput

/-! ### The free lists and the outcome -/

/-- The free list of the class addressed is the one that the operation settles. -/
theorem freeList_after_of_address (h : p.WellFormed) (ho : o.address p.classes = some cls) :
    (p.after o).freeList cls = (p.settle o (p.freeList cls)).2 := by
  have hcls := Operation.mem_of_address h.valid ho
  rw [after_of_address ho, freeList_tally, freeList_withFree h hcls]

/-- An operation leaves all free lists but that of the class it is addressed to. -/
theorem freeList_after_of_ne (h : p.WellFormed) (ho : o.address p.classes ≠ some cls) :
    (p.after o).freeList cls = p.freeList cls := by
  cases haddress : o.address p.classes with
  | none => rw [after_of_stray haddress, freeList_tally]
  | some cls' =>
    have hne : cls ≠ cls' := fun heq => ho (heq ▸ haddress)
    rw [after_of_address haddress, freeList_tally,
      freeList_withFree_of_ne (Operation.mem_of_address h.valid haddress) hne]

/-- The counters tell what the operation came to at the free list of its class. -/
theorem outcome_after_of_address (ho : o.address p.classes = some cls) :
    p.outcome (p.after o) = (p.settle o (p.freeList cls)).1 := by
  rw [after_of_address ho, ← withFree_tally, outcome_withFree, outcome_tally]

/-- Of an operation without an address the counters tell no more than that a buffer was given up. -/
theorem outcome_after_of_stray (ho : o.address p.classes = none) :
    p.outcome (p.after o) = o.stray := by
  rw [after_of_stray ho, outcome_tally]

end WireBytes.Pool
