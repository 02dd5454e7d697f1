import Mathlib
import WireBytes.Proofs.Pool.Address

/-!
# Idle memory

A pool with a limit keeps only so much memory: no class has more idle buffers than the limit, and
the classes, being powers of two, are together less than twice the largest one.

* `ClassRange.sum_toList` — the sum of the classes;
* `Pool.WellFormed.idleCapacity_eq` — the idle memory, class by class, and
  `Pool.WellFormed.idleCapacity_le` the bound on it;
* `Pool.idleCapacity_of_run` — the bound after any run.
-/

namespace WireBytes

/-! ### The sum of the classes -/

/-- The powers of two from one exponent on, with the first of them once more, are the next one. -/
theorem sum_two_pow_range' (k n : Nat) :
    ((List.range' k n).map (2 ^ ·)).sum + 2 ^ k = 2 ^ (k + n) := by
  induction n generalizing k with
  | zero => simp
  | succ n ih =>
    rw [List.range'_succ, List.map_cons, List.sum_cons]
    -- The first power twice is the second one, with which the others add up.
    calc 2 ^ k + ((List.range' (k + 1) n).map (2 ^ ·)).sum + 2 ^ k
        = ((List.range' (k + 1) n).map (2 ^ ·)).sum + 2 ^ (k + 1) := by rw [pow_succ]; omega
      _ = 2 ^ (k + 1 + n) := ih (k + 1)
      _ = 2 ^ (k + (n + 1)) := by rw [Nat.add_assoc, Nat.add_comm 1 n]

/-- The classes are together twice the largest one less the smallest one. -/
theorem ClassRange.sum_toList {r : ClassRange} (h : r.Valid) :
    r.toList.sum + 2 ^ r.minExp = 2 * 2 ^ r.maxExp := by
  have hle := h.ordered
  have hpow : r.toList = (List.range' r.minExp (r.maxExp + 1 - r.minExp)).map (2 ^ ·) := by
    simp [toList, exponents, Nat.one_shiftLeft]
  have hlast : r.minExp + (r.maxExp + 1 - r.minExp) = r.maxExp + 1 := by omega
  rw [hpow, sum_two_pow_range', hlast, pow_succ, Nat.mul_comm]

namespace Pool

variable {p : Pool} {cls : Nat}

/-- The capacity of all idle buffers together. -/
def idleCapacity (p : Pool) : Nat :=
  (p.idle.flatten.map Buffer.capacity).sum

/-! ### The idle memory of a pool -/

namespace WellFormed

/-- An idle buffer has the capacity of the class under which it is filed. -/
theorem capacity_of_mem (h : p.WellFormed) (hcls : cls ∈ p.classes.toList) {b : Buffer}
    (hb : b ∈ p.freeList cls) : b.capacity = cls := by
  obtain ⟨i, hi⟩ := List.mem_iff_getElem?.1 hcls
  obtain ⟨free, hfree⟩ := h.exists_free hi
  rw [freeList_of_class hi hfree] at hb
  rw [h.filed hi hfree b hb]
  rfl

theorem sum_capacity_freeList (h : p.WellFormed) (hcls : cls ∈ p.classes.toList) :
    ((p.freeList cls).map Buffer.capacity).sum = (p.freeList cls).length * cls := by
  have hsame : (p.freeList cls).map Buffer.capacity =
      List.replicate (p.freeList cls).length cls := by
    apply List.eq_replicate_iff.2
    refine ⟨List.length_map _, ?_⟩
    intro capacity hmem
    obtain ⟨b, hb, rfl⟩ := List.mem_map.1 hmem
    exact h.capacity_of_mem hcls hb
  rw [hsame, List.sum_replicate, smul_eq_mul]

/-- The idle memory is the memory of the idle buffers of each class. -/
theorem idleCapacity_eq (h : p.WellFormed) :
    p.idleCapacity = (p.classes.toList.map fun cls => (p.freeList cls).length * cls).sum := by
  have hclass : p.classes.toList.map (fun cls => ((p.freeList cls).map Buffer.capacity).sum) =
      p.classes.toList.map fun cls => (p.freeList cls).length * cls := by
    apply List.map_congr_left
    intro cls hcls
    exact h.sum_capacity_freeList hcls
  rw [idleCapacity, h.idle_eq, List.map_flatten, List.sum_flatten, List.map_map, List.map_map,
    ← hclass]
  rfl

/-- No class has more idle buffers than the limit. -/
theorem length_freeList_le (h : p.WellFormed) {n : UInt64} (hlimit : p.limit = some n)
    (cls : Nat) : (p.freeList cls).length ≤ n.toNat := by
  unfold freeList
  cases hfree : p.idle[p.classes.toList.idxOf cls]? with
  | none => exact Nat.zero_le _
  | some free => exact h.within n hlimit free (List.mem_of_getElem? hfree)

/-- The idle memory is at most the limit times the sum of the classes. -/
theorem idleCapacity_le (h : p.WellFormed) {n : UInt64} (hlimit : p.limit = some n) :
    p.idleCapacity ≤ n.toNat * p.classes.toList.sum := by
  calc p.idleCapacity
      = (p.classes.toList.map fun cls => (p.freeList cls).length * cls).sum := h.idleCapacity_eq
    _ ≤ (p.classes.toList.map fun cls => n.toNat * cls).sum := by
        apply List.sum_le_sum
        intro cls _
        exact Nat.mul_le_mul_right cls (h.length_freeList_le hlimit cls)
    _ = n.toNat * p.classes.toList.sum := by rw [List.sum_map_mul_left, List.map_id']

end WellFormed

/-- **Idle memory is bounded.** After any run of a pool with a limit, whatever buffers came back in
    it, the classes are still those of the configured bounds, no free list has more buffers than the
    limit, and all idle buffers together have at most the capacity of so many buffers of each class.
    What is reported of a class is the length of its free list. -/
theorem idleCapacity_of_run {c : Config} {n : UInt64} (hlimit : c.limit = some n)
    (h : ofConfig c = .ok (.ok p)) (ops : List Operation) :
    ∃ moments q smallest largest, p.run ops = .ok (moments, q) ∧
      ClassRange.ofBounds? c.lower c.upper = some q.classes ∧
      q.classes.smallest = .ok smallest ∧ q.classes.largest = .ok largest ∧
      smallest ≤ largest ∧
      (∀ free ∈ q.idle, free.length ≤ n.toNat) ∧
      (∀ cls, q.retained cls = .ok (q.freeList cls).length ∧
        (q.freeList cls).length ≤ n.toNat) ∧
      q.idleCapacity ≤ n.toNat * (2 * largest - smallest) := by
  obtain ⟨moments, q, hrun, hq, -⟩ := run_continues (wellFormed_of_ofConfig h) ops
  have hwf : q.WellFormed := hq.wellFormed
  -- The run has changed neither the classes nor the limit that the configuration gave.
  obtain ⟨-, r, hr, rfl⟩ := ofConfig_eq_ok_iff.1 h
  have hrange : ClassRange.ofBounds? c.lower c.upper = some q.classes := by rw [hq.classes, hr]; rfl
  have hlimit' : q.limit = some n := hq.limit.trans hlimit
  refine ⟨moments, q, _, _, hrun, hrange, ClassRange.smallest_eq hwf.valid,
    ClassRange.largest_eq hwf.valid, ?_, hwf.within n hlimit', ?_, ?_⟩
  · exact Nat.pow_le_pow_right (by decide) hwf.valid.ordered
  · intro cls
    exact ⟨hwf.retained_eq cls, hwf.length_freeList_le hlimit' cls⟩
  · rw [← ClassRange.sum_toList hwf.valid, Nat.add_sub_cancel]
    exact hwf.idleCapacity_le hlimit'

/-- A pool that keeps one buffer of each class has reached its bound of 28 bytes, with a guard that
    came back as another class and two buffers that were given up. -/
theorem idleCapacity_of_full_pool :
    (Config.mk 3 20 (some 1)).limit = some 1 ∧
      ofConfig ⟨3, 20, some 1⟩ = .ok (.ok (unused ⟨2, 4⟩ (some 1))) ∧
      ∃ moments q smallest largest, (unused ⟨2, 4⟩ (some 1)).run
          [.take 5, .put (.ofBytes 4 [1]), .release ⟨8, .empty 16⟩, .put (.empty 16),
            .put (.empty 24), .release ⟨8, .ofBytes 8 [2, 3]⟩] = .ok (moments, q) ∧
        q.classes.smallest = .ok smallest ∧ q.classes.largest = .ok largest ∧
        q.idle = [[Buffer.empty 4], [Buffer.empty 8], [Buffer.empty 16]] ∧
        (∀ free ∈ q.idle, free.length ≤ 1) ∧
        (∀ cls, q.retained cls = .ok (q.freeList cls).length ∧ (q.freeList cls).length ≤ 1) ∧
        q.idleCapacity ≤ 1 * (2 * largest - smallest) ∧ q.idleCapacity = 28 := by
  have h : ofConfig ⟨3, 20, some 1⟩ = .ok (.ok (unused ⟨2, 4⟩ (some 1))) := by decide
  have hidle : ((unused ⟨2, 4⟩ (some 1)).run
      [.take 5, .put (.ofBytes 4 [1]), .release ⟨8, .empty 16⟩, .put (.empty 16),
        .put (.empty 24), .release ⟨8, .ofBytes 8 [2, 3]⟩]).map (·.2.idle) =
      .ok [[Buffer.empty 4], [Buffer.empty 8], [Buffer.empty 16]] := by
    decide
  obtain ⟨moments, q, smallest, largest, hrun, -, hsmallest, hlargest, -, hlists, hclass, hbound⟩ :=
    idleCapacity_of_run rfl h [.take 5, .put (.ofBytes 4 [1]), .release ⟨8, .empty 16⟩,
      .put (.empty 16), .put (.empty 24), .release ⟨8, .ofBytes 8 [2, 3]⟩]
  rw [hrun] at hidle
  have hidle : q.idle = _ := Except.ok.inj hidle
  have hfull : q.idleCapacity = 28 := by
    rw [idleCapacity, hidle]
    rfl
  exact ⟨rfl, h, moments, q, smallest, largest, hrun, hsmallest, hlargest, hidle, hlists, hclass,
    hbound, hfull⟩

end Pool

end WireBytes
