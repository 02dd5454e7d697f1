import Mathlib
import WireBytes.Proofs.Pool.WellFormed

/-!
# Which bounds make a pool

Bounds are checked in two places, by the configuration and by the range of classes that is made of
them. Both checks mean the same: a power of two that is a word lies between the bounds.

* `Pool.Config.validate_of_admits` and `Pool.Config.validate_of_not_admits` — this is what the first
  check means;
* `Pool.Spans` — a pool whose classes are all powers of two between the bounds;
* `Pool.accepted_or_refused` — the checks on all bounds, and the pool that is made of them.
-/

namespace WireBytes.Pool

open ClassRange (Admits admits_iff)

variable {lower upper : UInt64}

/-! ### The check of the configuration -/

/-- Bounds that admit a class pass the check. -/
theorem Config.validate_of_admits {c : Config} (h : Admits c.lower c.upper) :
    c.validate = .ok () := by
  obtain ⟨hfloor, hceiling, hle⟩ := h.rounded
  have hne : c.upper ≠ 0 := by
    intro hzero
    exact (admits_iff.1 h).1 (by rw [hzero]; rfl)
  rw [validate, if_neg hne, hfloor, hceiling]
  exact if_pos hle

/-- An upper bound of zero is named as the flaw also if the lower bound cannot be rounded up. -/
theorem Config.validate_of_not_admits {c : Config} (h : ¬ Admits c.lower c.upper) :
    c.validate = .error (.config (if c.upper = 0 then .zeroCeiling else .floorAboveCeiling)) := by
  unfold validate
  by_cases hzero : c.upper = 0
  · rw [if_pos hzero, if_pos hzero]
  · rw [if_neg hzero, if_neg hzero]
    have hne := Word.toNat_ne_zero hzero
    cases hfloor : Word.roundUp? (max c.lower.toNat 1) with
    | none => rfl
    | some floor =>
      have hlt := ClassRange.rounded_of_not_admits h hne hfloor
      exact if_neg (Nat.not_le_of_lt hlt)

/-! ### The classes of a pool -/

/-- The classes of a pool are all powers of two between two bounds, and what the pool says of them
    is right. -/
structure Spans (p : Pool) (lower upper : UInt64) : Prop where
  ascending : p.classes.toList.Pairwise (· < ·)
  mem : ∀ cls, cls ∈ p.classes.toList ↔
    (∃ k, cls = 2 ^ k) ∧ lower.toNat ≤ cls ∧ cls ≤ upper.toNat
  count : p.classes.count = .ok p.classes.toList.length
  /-- There is one free list for each class. -/
  paired : p.idle.length = p.classes.toList.length
  smallest : ∃ cls, p.classes.toList.head? = some cls ∧ p.classes.smallest = .ok cls
  largest : ∃ cls, p.classes.toList.getLast? = some cls ∧ p.classes.largest = .ok cls

/-- The classes of a new pool between such bounds are all the powers of two between them. -/
theorem spans_of_admits {r : ClassRange} (h : Admits lower upper)
    (hr : ClassRange.ofBounds? lower upper = some r) (limit : Option UInt64) :
    (unused r limit).Spans lower upper := by
  have hvalid := ClassRange.valid_of_ofBounds? hr
  have hlist := ClassRange.mem_toList_of_admits h
  rw [ClassRange.ofBounds?_of_admits h] at hr
  obtain rfl := Option.some.inj hr
  exact {
    ascending := ClassRange.pairwise_toList _
    mem := hlist
    count := ClassRange.count_eq hvalid
    paired := (wellFormed_unused hvalid limit).paired
    smallest := ⟨_, ClassRange.head?_toList hvalid, ClassRange.smallest_eq hvalid⟩
    largest := ⟨_, ClassRange.getLast?_toList hvalid, ClassRange.largest_eq hvalid⟩ }

/-! ### All checks -/

/-- The configuration that the builders make of two bounds and a limit. -/
def Config.built (lower upper : UInt64) (limit : Option UInt64) : Config :=
  match limit with
  | none => (default.withLower lower).withUpper upper
  | some n => ((default.withLower lower).withUpper upper).withLimit n

@[simp] theorem Config.built_eq (lower upper : UInt64) (limit : Option UInt64) :
    built lower upper limit = ⟨lower, upper, limit⟩ := by
  cases limit <;> rfl

/-- **All checks agree.** Whatever the bounds and the limit are, nothing faults, and one of two
    things is the case. A power of two that is a word lies between the bounds: then the
    configuration can be made, the builders' one passes its check, and there are a range and a pool
    of all powers of two between the bounds. Or none does: then all of them are refused, and the
    pool is refused for the reason that the check of the configuration gives. -/
theorem accepted_or_refused (lower upper : UInt64) (limit : Option UInt64) :
    (Admits lower upper ∧
      Config.ofBounds lower upper = .ok ⟨lower, upper, none⟩ ∧
      (Config.built lower upper limit).validate = .ok () ∧
      ∃ r p, ClassRange.ofBounds? lower upper = some r ∧
        ofConfig (Config.built lower upper limit) = .ok (.ok p) ∧
        p.classes = r ∧ p.Spans lower upper) ∨
    (¬ Admits lower upper ∧ ∃ e,
      Config.ofBounds lower upper = .error e ∧
      (Config.built lower upper limit).validate = .error e ∧
      ClassRange.ofBounds? lower upper = none ∧
      ofConfig (Config.built lower upper limit) = .ok (.error e)) := by
  rw [Config.built_eq]
  by_cases h : Admits lower upper
  · left
    -- The limit has no part in any of the checks.
    have hvalid (limit : Option UInt64) : (Config.mk lower upper limit).validate = .ok () :=
      Config.validate_of_admits h
    have hrange := ClassRange.ofBounds?_of_admits h
    have hpool := ofConfig_eq_ok_iff.2 ⟨hvalid limit, _, hrange, rfl⟩
    refine ⟨h, ?_, hvalid limit, _, _, hrange, hpool, rfl, spans_of_admits h hrange limit⟩
    rw [Config.ofBounds, hvalid none]
    rfl
  · right
    have hrefused (limit : Option UInt64) :=
      Config.validate_of_not_admits (c := ⟨lower, upper, limit⟩) h
    refine ⟨h, _, ?_, hrefused limit, ClassRange.ofBounds?_of_not_admits h, ?_⟩
    · rw [Config.ofBounds, hrefused none]
      rfl
    · rw [ofConfig, hrefused limit]
      rfl

/-- Above the largest power of two that is a word there is none left. -/
example : ¬ Admits 9223372036854775809 18446744073709551615 := by decide

end WireBytes.Pool
