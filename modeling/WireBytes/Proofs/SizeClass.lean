import Mathlib
import WireBytes.SizeClass
import WireBytes.Word.Lemmas

/-!
# Looking up size classes

On a valid range every checked step of a lookup succeeds, and what it finds can be read off the
list of the classes:

* `ClassRange.Admits` — a power of two lies between two bounds; `ClassRange.ofBounds?_of_admits` and
  `ClassRange.ofBounds?_of_not_admits` — from these bounds, and no others, a range is built;
* `ClassRange.valid_of_ofBounds?` — a range that was built from bounds is valid;
  `ClassRange.mem_toList_of_admits` — its classes are the powers of two between the bounds;
* `ClassRange.fit_eq` — a size is served from the class whose exponent is the one the size rounds
  up to, moved into the range; `ClassRange.exists_fit` says the same of the list;
* `ClassRange.idxOf?_eq` — the index of a capacity is its place in the list.
-/

namespace WireBytes.ClassRange

variable {r : ClassRange} {lower upper : UInt64}

/-- The exponents are in order, and every class is a word. -/
structure Valid (r : ClassRange) : Prop where
  ordered : r.minExp ≤ r.maxExp
  bounded : r.maxExp < Word.width

/-! ### Bounds -/

/-- A power of two that is a word lies between the bounds. -/
def Admits (lower upper : UInt64) : Prop :=
  ∃ k < Word.width, lower.toNat ≤ 2 ^ k ∧ 2 ^ k ≤ upper.toNat

instance (lower upper : UInt64) : Decidable (Admits lower upper) :=
  inferInstanceAs (Decidable (∃ k < Word.width, lower.toNat ≤ 2 ^ k ∧ 2 ^ k ≤ upper.toNat))

/-- A power of two lies between the bounds exactly if the upper one is not zero and the rounded
    bounds are in order. -/
theorem admits_iff :
    Admits lower upper ↔
      upper.toNat ≠ 0 ∧ Word.ceilExponent lower.toNat ≤ upper.toNat.log2 := by
  constructor
  · rintro ⟨k, -, hlower, hupper⟩
    have hne : upper.toNat ≠ 0 := Nat.ne_of_gt (Nat.lt_of_lt_of_le (Nat.two_pow_pos k) hupper)
    refine ⟨hne, ?_⟩
    calc Word.ceilExponent lower.toNat
        ≤ k := (Word.le_two_pow_iff _ _).1 hlower
      _ ≤ upper.toNat.log2 := (Word.two_pow_le_iff hne k).1 hupper
  · rintro ⟨hne, hle⟩
    -- The upper bound rounded down is such a power, and it is a word since the bound is one.
    refine ⟨upper.toNat.log2, Word.log2_lt_width hne, ?_, ?_⟩
    · exact (Word.le_two_pow_iff _ _).2 hle
    · exact (Word.two_pow_le_iff hne _).2 (Nat.le_refl _)

/-- If the bounds admit a power of two, the lower one can be rounded up, and the result is at most
    the upper one rounded down. -/
theorem Admits.rounded (h : Admits lower upper) :
    Word.roundUp? (max lower.toNat 1) = some (2 ^ Word.ceilExponent lower.toNat) ∧
      Word.roundDown upper.toNat = 2 ^ upper.toNat.log2 ∧
      2 ^ Word.ceilExponent lower.toNat ≤ 2 ^ upper.toNat.log2 := by
  obtain ⟨hne, hle⟩ := admits_iff.1 h
  refine ⟨?_, Word.roundDown_of_ne_zero hne, Nat.pow_le_pow_right (by decide) hle⟩
  rw [Word.roundUp?_eq_some_iff, Word.ceilExponent_max_one]
  exact ⟨Nat.lt_of_le_of_lt hle (Word.log2_lt_width hne), rfl⟩

/-- If they do not, and the upper bound is not zero, a lower bound that can be rounded up is above
    the upper one rounded down. -/
theorem rounded_of_not_admits (h : ¬ Admits lower upper) (hne : upper.toNat ≠ 0) {floor : Nat}
    (hfloor : Word.roundUp? (max lower.toNat 1) = some floor) :
    Word.roundDown upper.toNat < floor := by
  obtain ⟨-, rfl⟩ := Word.roundUp?_eq_some_iff.1 hfloor
  rw [Word.ceilExponent_max_one, Word.roundDown_of_ne_zero hne]
  apply Nat.pow_lt_pow_right (by decide)
  by_contra hle
  exact h (admits_iff.2 ⟨hne, Nat.le_of_not_lt hle⟩)

/-- From bounds that admit a class a range is built: from the exponent that the lower one rounds up
    to, to the exponent that the upper one rounds down to. -/
theorem ofBounds?_of_admits (h : Admits lower upper) :
    ofBounds? lower upper = some ⟨Word.ceilExponent lower.toNat, upper.toNat.log2⟩ := by
  obtain ⟨hfloor, hceiling, hle⟩ := h.rounded
  have hpos : 2 ^ upper.toNat.log2 ≠ 0 := Nat.ne_of_gt (Nat.two_pow_pos _)
  simp only [ofBounds?, hfloor, hceiling, Nat.log2_two_pow]
  exact if_neg fun hor => hor.elim hpos (Nat.not_lt_of_le hle)

/-- From other bounds no range is built, also where rounding the lower one leaves the word. -/
theorem ofBounds?_of_not_admits (h : ¬ Admits lower upper) :
    ofBounds? lower upper = none := by
  unfold ofBounds?
  cases hfloor : Word.roundUp? (max lower.toNat 1) with
  | none => rfl
  | some floor =>
    apply if_pos
    -- An upper bound of zero is rounded down to zero, which is no class.
    by_cases hzero : upper.toNat = 0
    · left
      rw [hzero]
      rfl
    · right
      exact rounded_of_not_admits h hzero hfloor

/-- A range is built only from bounds that admit a class. -/
theorem admits_of_ofBounds? (h : ofBounds? lower upper = some r) : Admits lower upper := by
  by_contra hadmits
  rw [ofBounds?_of_not_admits hadmits] at h
  cases h

/-- A range that was built from bounds is in order, and its classes are words. -/
theorem valid_of_ofBounds? (h : ofBounds? lower upper = some r) : r.Valid := by
  have hadmits := admits_of_ofBounds? h
  rw [ofBounds?_of_admits hadmits] at h
  obtain rfl := Option.some.inj h
  obtain ⟨hne, hle⟩ := admits_iff.1 hadmits
  exact ⟨hle, Word.log2_lt_width hne⟩

/-! ### The list of the classes -/

/-- One can be shifted by every exponent of a valid range. -/
theorem lt_width_of_mem_exponents (h : r.Valid) {k : Nat} (hk : k ∈ r.exponents) :
    k < Word.width := by
  have hordered := h.ordered
  have hbounded := h.bounded
  obtain ⟨-, hlt⟩ := List.mem_range'_1.1 hk
  omega

/-- There is one class for each exponent of the range. -/
@[simp] theorem length_toList (r : ClassRange) : r.toList.length = r.maxExp + 1 - r.minExp := by
  simp [toList, exponents]

/-- The classes stand in the order of their exponents, without gaps. -/
theorem getElem?_toList {i : Nat} (h : i < r.maxExp + 1 - r.minExp) :
    r.toList[i]? = some (2 ^ (r.minExp + i)) := by
  rw [toList, exponents, List.getElem?_map, List.getElem?_range' h]
  simp [Nat.one_shiftLeft]

/-- The class with exponent `k` stands where its exponent has its place. -/
theorem getElem?_toList_sub {k : Nat} (hmin : r.minExp ≤ k) (hmax : k ≤ r.maxExp) :
    r.toList[k - r.minExp]? = some (2 ^ k) := by
  rw [getElem?_toList (by omega), Nat.add_sub_cancel' hmin]

/-- What stands at a place of the list, and which places there are. -/
theorem getElem?_toList_eq_some_iff {i c : Nat} :
    r.toList[i]? = some c ↔ r.minExp + i ≤ r.maxExp ∧ c = 2 ^ (r.minExp + i) := by
  by_cases h : i < r.maxExp + 1 - r.minExp
  · rw [getElem?_toList h, Option.some.injEq, eq_comm]
    exact ⟨fun hc => ⟨by omega, hc⟩, fun hc => hc.2⟩
  · rw [List.getElem?_eq_none (by rw [length_toList]; omega)]
    simp only [reduceCtorEq, false_iff, not_and]
    omega

/-- The classes are the powers of two with exponents in the range. -/
theorem mem_toList_iff {c : Nat} :
    c ∈ r.toList ↔ ∃ k, r.minExp ≤ k ∧ k ≤ r.maxExp ∧ c = 2 ^ k := by
  rw [List.mem_iff_getElem?]
  constructor
  · rintro ⟨i, hi⟩
    obtain ⟨hle, rfl⟩ := getElem?_toList_eq_some_iff.1 hi
    exact ⟨r.minExp + i, by omega, hle, rfl⟩
  · rintro ⟨k, hmin, hmax, rfl⟩
    exact ⟨k - r.minExp, getElem?_toList_sub hmin hmax⟩

/-- The list of the classes is strictly ascending. -/
theorem pairwise_toList (r : ClassRange) : r.toList.Pairwise (· < ·) := by
  rw [toList, exponents, List.pairwise_map]
  refine (List.pairwise_lt_range' 1).imp ?_
  intro j k hlt
  rw [Nat.one_shiftLeft, Nat.one_shiftLeft]
  exact Nat.pow_lt_pow_right (by decide) hlt

/-- The smallest class comes first. -/
theorem head?_toList (h : r.Valid) : r.toList.head? = some (2 ^ r.minExp) := by
  have hle := h.ordered
  rw [List.head?_eq_getElem?, getElem?_toList (by omega), Nat.add_zero]

/-- The largest class comes last. -/
theorem getLast?_toList (h : r.Valid) : r.toList.getLast? = some (2 ^ r.maxExp) := by
  have hle := h.ordered
  have hlast : r.maxExp + 1 - r.minExp - 1 = r.maxExp - r.minExp := by omega
  rw [List.getLast?_eq_getElem?, length_toList, hlast, getElem?_toList_sub hle (Nat.le_refl _)]

/-- The classes of the range between two bounds are the powers of two between them. -/
theorem mem_toList_of_admits (h : Admits lower upper) (cls : Nat) :
    cls ∈ (mk (Word.ceilExponent lower.toNat) upper.toNat.log2).toList ↔
      (∃ k, cls = 2 ^ k) ∧ lower.toNat ≤ cls ∧ cls ≤ upper.toNat := by
  have hne := (admits_iff.1 h).1
  rw [mem_toList_iff]
  constructor
  · rintro ⟨k, hmin, hmax, rfl⟩
    exact ⟨⟨k, rfl⟩, (Word.le_two_pow_iff _ _).2 hmin, (Word.two_pow_le_iff hne k).2 hmax⟩
  · rintro ⟨⟨k, rfl⟩, hlower, hupper⟩
    exact ⟨k, (Word.le_two_pow_iff _ _).1 hlower, (Word.two_pow_le_iff hne k).1 hupper, rfl⟩

/-- No class stands at two places. -/
theorem getElem?_toList_inj {i j c : Nat} (hi : r.toList[i]? = some c)
    (hj : r.toList[j]? = some c) : i = j := by
  obtain ⟨-, rfl⟩ := getElem?_toList_eq_some_iff.1 hi
  obtain ⟨-, h⟩ := getElem?_toList_eq_some_iff.1 hj
  have := Nat.pow_right_injective (Nat.le_refl 2) h
  omega

/-- The count of a valid range does not fault, and it is the length of the list. -/
theorem count_eq (h : r.Valid) : r.count = .ok r.toList.length := by
  have hle := h.ordered
  rw [length_toList, count, Word.sub, if_pos hle]
  show Except.ok (r.maxExp - r.minExp + 1) = _
  rw [Nat.sub_add_comm hle]

/-! ### The class of a size -/

/-- The exponent of the class that serves a size. -/
def fitExponent (r : ClassRange) (size : Nat) : Nat :=
  min (max (Word.ceilExponent size) r.minExp) r.maxExp

/-- The largest class of a valid range is computed without a fault. -/
theorem largest_eq (h : r.Valid) : r.largest = .ok (2 ^ r.maxExp) := by
  rw [largest, Word.shiftOne, if_pos h.bounded, Nat.one_shiftLeft]

/-- So is the smallest one. -/
theorem smallest_eq (h : r.Valid) : r.smallest = .ok (2 ^ r.minExp) := by
  have hlt : r.minExp < Word.width := Nat.lt_of_le_of_lt h.ordered h.bounded
  rw [smallest, Word.shiftOne, if_pos hlt, Nat.one_shiftLeft]

/-- A size that reaches the largest class is served from it. -/
theorem fitExponent_of_largest_le {size : Nat} (hs : 2 ^ r.maxExp ≤ size) :
    r.fitExponent size = r.maxExp := by
  have hpow : 2 ^ r.maxExp ≤ 2 ^ Word.ceilExponent size :=
    Nat.le_trans hs (Word.le_two_pow_ceilExponent size)
  have hle : r.maxExp ≤ Word.ceilExponent size := (Nat.pow_le_pow_iff_right (by decide)).1 hpow
  unfold fitExponent
  omega

/-- A smaller size is rounded up, and served from the smallest class if it is below it. -/
theorem fitExponent_of_lt_largest (h : r.Valid) {size : Nat} (hs : size < 2 ^ r.maxExp) :
    r.fitExponent size = max (Word.ceilExponent size) r.minExp := by
  have hc : Word.ceilExponent size ≤ r.maxExp := (Word.le_two_pow_iff _ _).1 (Nat.le_of_lt hs)
  have hle := h.ordered
  unfold fitExponent
  omega

/-- No size is served from below the range. -/
theorem minExp_le_fitExponent (h : r.Valid) (size : Nat) : r.minExp ≤ r.fitExponent size := by
  have hle := h.ordered
  unfold fitExponent
  omega

/-- No size is served from above the range, not even a larger one. -/
theorem fitExponent_le_maxExp (r : ClassRange) (size : Nat) : r.fitExponent size ≤ r.maxExp :=
  Nat.min_le_right _ _

theorem fitExponent_lt_width (h : r.Valid) (size : Nat) : r.fitExponent size < Word.width :=
  Nat.lt_of_le_of_lt (fitExponent_le_maxExp r size) h.bounded

/-- A size below the largest class can be rounded up, also from the smallest class on. -/
theorem roundUp_of_lt_largest (h : r.Valid) {size : Nat} (hs : size < 2 ^ r.maxExp) :
    Word.roundUp (max size (2 ^ r.minExp)) = .ok (2 ^ r.fitExponent size) := by
  have hexp : Word.ceilExponent (max size (2 ^ r.minExp)) = r.fitExponent size := by
    rw [Word.ceilExponent_max, Word.ceilExponent_two_pow, fitExponent_of_lt_largest h hs]
  have hlt := fitExponent_lt_width h size
  rw [Word.roundUp, Word.roundUp?_eq_some_iff.2 ⟨hexp ▸ hlt, rfl⟩, hexp]

/-- **The class of a size.** The lookup does not fault, and it gives the class of the exponent that
    serves the size, with the place of that class. -/
theorem fit_eq (h : r.Valid) (size : Nat) :
    r.fit size = .ok (r.fitExponent size - r.minExp, 2 ^ r.fitExponent size) := by
  have hindex : Word.sub (2 ^ r.fitExponent size).log2 r.minExp =
      .ok (r.fitExponent size - r.minExp) := by
    rw [Nat.log2_two_pow, Word.sub, if_pos (minExp_le_fitExponent h size)]
  unfold fit
  rw [largest_eq h, smallest_eq h]
  -- A size above the largest class is never rounded up: the result could be too large for a word.
  by_cases hs : 2 ^ r.maxExp ≤ size
  · rw [fitExponent_of_largest_le hs] at hindex ⊢
    simp only [bind, Except.bind, if_pos hs, pure, Except.pure, hindex]
  · have hup := roundUp_of_lt_largest h (Nat.lt_of_not_le hs)
    simp only [bind, Except.bind, if_neg hs, pure, Except.pure, hup, hindex]

/-- Every size is served from a class of the list, at its place. -/
theorem exists_fit (h : r.Valid) (size : Nat) :
    ∃ i c, r.fit size = .ok (i, c) ∧ r.toList[i]? = some c := by
  have hclass := getElem?_toList_sub (minExp_le_fitExponent h size) (fitExponent_le_maxExp r size)
  exact ⟨_, _, fit_eq h size, hclass⟩

/-! ### The index of a capacity -/

/-- Searching the list for a class leads to the place where it stands. -/
theorem idxOf?_toList {i c : Nat} (h : r.toList[i]? = some c) : r.toList.idxOf? c = some i := by
  have hmem : c ∈ r.toList := List.mem_of_getElem? h
  obtain ⟨j, hj⟩ := Option.isSome_iff_exists.1 (List.isSome_idxOf?.2 hmem)
  obtain ⟨hlt, hget, -⟩ := List.idxOf?_eq_some_iff.1 hj
  have hj' : r.toList[j]? = some c := by rw [List.getElem?_eq_getElem hlt, hget]
  rw [hj, getElem?_toList_inj hj' h]

/-- The index of a capacity is its place in the list of the classes. -/
theorem idxOf?_eq (r : ClassRange) (capacity : Nat) :
    r.idxOf? capacity = .ok (r.toList.idxOf? capacity) := by
  unfold idxOf?
  by_cases hc : capacity ∈ r.toList
  · obtain ⟨k, hmin, hmax, rfl⟩ := mem_toList_iff.1 hc
    rw [Nat.log2_two_pow, if_pos ⟨Word.isPowerOfTwo_two_pow k, hmin, hmax⟩, Word.sub, if_pos hmin,
      idxOf?_toList (getElem?_toList_sub hmin hmax)]
    rfl
  · rw [List.idxOf?_eq_none_iff.2 hc, if_neg]
    · rfl
    · -- A power of two with its exponent in the range would be a class.
      rintro ⟨hp, hmin, hmax⟩
      obtain ⟨k, rfl⟩ := (Word.isPowerOfTwo_iff capacity).1 hp
      rw [Nat.log2_two_pow] at hmin hmax
      exact hc (mem_toList_iff.2 ⟨k, hmin, hmax, rfl⟩)

end WireBytes.ClassRange
