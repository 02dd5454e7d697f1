import Mathlib
import WireBytes.Proofs.SizeClass

/-!
# The best class of a size

The list of the classes says what the two lookups have to find. A size goes to the least class that
holds it, or to the largest one if none does, and a capacity has an index exactly if it is a class.

* `ClassRange.BestFit` — which class that is, in terms of the list alone;
  `ClassRange.bestFit_fitExponent` — rounding and moving into the range finds it;
* `ClassRange.lookups_of_ofBounds?` — the two lookups on a range that was built from bounds.
-/

namespace WireBytes.ClassRange

variable {r : ClassRange} {lower upper : UInt64}

/-- The class that fits a size best: the least one that is not smaller, and the largest of all if
    every class is smaller. -/
def BestFit (r : ClassRange) (size cls : Nat) : Prop :=
  IsLeast {c | c ∈ r.toList ∧ size ≤ c} cls ∨
    (∀ c ∈ r.toList, c < size) ∧ IsGreatest {c | c ∈ r.toList} cls

/-! ### Sizes -/

/-- The class that serves a size is a class of the list. -/
theorem two_pow_fitExponent_mem (h : r.Valid) (size : Nat) :
    2 ^ r.fitExponent size ∈ r.toList :=
  mem_toList_iff.2 ⟨_, minExp_le_fitExponent h size, fitExponent_le_maxExp r size, rfl⟩

/-- No class is larger than the one of the largest exponent. -/
theorem le_two_pow_maxExp {c : Nat} (hc : c ∈ r.toList) : c ≤ 2 ^ r.maxExp := by
  obtain ⟨k, -, hmax, rfl⟩ := mem_toList_iff.1 hc
  exact Nat.pow_le_pow_right (by decide) hmax

/-- A class that holds a size is at least the one that the size is served from. -/
theorem two_pow_fitExponent_le {size c : Nat} (hc : c ∈ r.toList) (hsize : size ≤ c) :
    2 ^ r.fitExponent size ≤ c := by
  obtain ⟨k, hmin, hmax, rfl⟩ := mem_toList_iff.1 hc
  -- The size does not round up past the exponent of a class that holds it.
  have hceil : Word.ceilExponent size ≤ k := (Word.le_two_pow_iff size k).1 hsize
  apply Nat.pow_le_pow_right (by decide)
  unfold fitExponent
  omega

/-- A size that is at most the largest class is held by the one that it is served from. -/
theorem le_two_pow_fitExponent {size : Nat} (hsize : size ≤ 2 ^ r.maxExp) :
    size ≤ 2 ^ r.fitExponent size := by
  have hceil : Word.ceilExponent size ≤ r.maxExp := (Word.le_two_pow_iff _ _).1 hsize
  rw [Word.le_two_pow_iff]
  unfold fitExponent
  omega

/-- It is the best fit for the size. -/
theorem bestFit_fitExponent (h : r.Valid) (size : Nat) :
    r.BestFit size (2 ^ r.fitExponent size) := by
  have hmem := two_pow_fitExponent_mem h size
  by_cases hsize : size ≤ 2 ^ r.maxExp
  · left
    refine ⟨⟨hmem, le_two_pow_fitExponent hsize⟩, ?_⟩
    rintro c ⟨hc, hle⟩
    exact two_pow_fitExponent_le hc hle
  · right
    have hlt : 2 ^ r.maxExp < size := Nat.lt_of_not_le hsize
    refine ⟨?_, hmem, ?_⟩
    · intro c hc
      exact Nat.lt_of_le_of_lt (le_two_pow_maxExp hc) hlt
    · intro c hc
      rw [fitExponent_of_largest_le (Nat.le_of_lt hlt)]
      exact le_two_pow_maxExp hc

/-! ### Both lookups -/

/-- The index of a capacity, if there is one, is the place where the list has it. -/
theorem idxOf?_toList_eq_some_iff {capacity j : Nat} :
    r.toList.idxOf? capacity = some j ↔ r.toList[j]? = some capacity := by
  constructor
  · intro h
    obtain ⟨hlt, hget, -⟩ := List.idxOf?_eq_some_iff.1 h
    rw [List.getElem?_eq_getElem hlt, hget]
  · exact idxOf?_toList

/-- **Both lookups agree with the list.** On a range that was built from bounds no lookup faults.
    Every size gets the class that fits it best with the place of this class in the list. A capacity
    has the index `j` exactly if it is the class at the place `j`, and so none if it is no class.
    The class that a size gets has the index that is reported beside it. -/
theorem lookups_of_ofBounds? (h : ofBounds? lower upper = some r) :
    ∃ n, r.count = .ok n ∧
      (∀ size, ∃ i cls, r.fit size = .ok (i, cls) ∧ r.BestFit size cls ∧
        r.toList[i]? = some cls ∧ r.idxOf? cls = .ok (some i)) ∧
      ∀ capacity, ∃ index, r.idxOf? capacity = .ok index ∧
        ∀ j, index = some j ↔ j < n ∧ r.toList[j]? = some capacity := by
  have hvalid := valid_of_ofBounds? h
  refine ⟨r.toList.length, count_eq hvalid, ?_, ?_⟩
  · intro size
    have hclass := getElem?_toList_sub (minExp_le_fitExponent hvalid size)
      (fitExponent_le_maxExp r size)
    refine ⟨_, _, fit_eq hvalid size, bestFit_fitExponent hvalid size, hclass, ?_⟩
    rw [idxOf?_eq, idxOf?_toList hclass]
  · intro capacity
    refine ⟨_, idxOf?_eq r capacity, ?_⟩
    intro j
    rw [idxOf?_toList_eq_some_iff]
    constructor
    · intro hj
      exact ⟨(List.getElem?_eq_some_iff.1 hj).1, hj⟩
    · exact fun hj => hj.2

/-- From four bytes to the largest power of two that is a word. The size after that is still served,
    from the largest class, and would be too large for a word if it was rounded up. -/
theorem lookups_of_widest_range :
    ofBounds? 3 18446744073709551615 = some ⟨2, 63⟩ ∧
      ∃ i cls, (mk 2 63).fit 9223372036854775809 = .ok (i, cls) ∧
        (mk 2 63).BestFit 9223372036854775809 cls ∧ (mk 2 63).toList[i]? = some cls ∧
        (mk 2 63).idxOf? cls = .ok (some i) := by
  have h : ofBounds? 3 18446744073709551615 = some ⟨2, 63⟩ := by decide
  obtain ⟨n, -, hsizes, -⟩ := lookups_of_ofBounds? h
  exact ⟨h, hsizes 9223372036854775809⟩

/-- The neighbours of a class, and both ends of the range. -/
example : [0, 31, 32, 33, 64, 65].map (mk 2 6).fit =
    [.ok (0, 4), .ok (3, 32), .ok (3, 32), .ok (4, 64), .ok (4, 64), .ok (4, 64)] := by
  decide

end WireBytes.ClassRange
