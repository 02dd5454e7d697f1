import Mathlib
import WireBytes.Proofs.Pool.Address
import WireBytes.Proofs.Pool.FreeLists

/-!
# No fault in a pool

The arithmetic of a pool is checked, and each check could fail on numbers of its own: a shift by too
much, a power of two that is no word, a difference below zero, an index past the end. On a pool that
was made from a configuration none of them fails, whatever is asked for and whatever comes back.

* `Pool.Faultless` — the checks of a pool, and that none of them fails;
* `Pool.WellFormed.faultless` — this follows from the invariant;
* `Pool.faultless_of_run` — so it holds after every run of every pool that can be made.
-/

namespace WireBytes.Pool

variable {p q : Pool}

/-- No check of a pool fails. -/
structure Faultless (p : Pool) : Prop where
  /-- Every class is one shifted by less than the width of a word. -/
  shifts : ∀ k ∈ p.classes.exponents, k < Word.width
  smallest : ∃ cls, p.classes.smallest = .ok cls
  largest : ∃ cls, p.classes.largest = .ok cls
  /-- The difference of the exponents is not negative, and there are as many free lists. -/
  count : p.classes.count = .ok p.idle.length
  /-- Only what is below the largest class is rounded up, and the result is a word. -/
  rounding : ∀ {size least top : Nat}, p.classes.smallest = .ok least →
    p.classes.largest = .ok top → size < top →
    ∃ cls, Word.roundUp (max size least) = .ok cls ∧ cls < UInt64.size
  /-- Whatever size is asked for, the index of its class is that of a free list. -/
  fit : ∀ size, ∃ i cls, p.classes.fit size = .ok (i, cls) ∧ i < p.idle.length
  /-- Whatever capacity comes back, the index that it has, if any, is that of a free list. -/
  idxOf? : ∀ capacity, ∃ index, p.classes.idxOf? capacity = .ok index ∧
    ∀ i, index = some i → i < p.idle.length
  perform : ∀ o : Operation, ∃ served next, p.perform o = .ok (served, next)
  retained : ∀ capacity, ∃ idle, p.retained capacity = .ok idle

namespace WellFormed

/-- A place in the list of the classes is the place of a free list. -/
theorem lt_length_idle (h : p.WellFormed) {i cls : Nat} (hcls : p.classes.toList[i]? = some cls) :
    i < p.idle.length :=
  h.paired ▸ (List.getElem?_eq_some_iff.1 hcls).1

/-- **The invariant rules faults out.** -/
theorem faultless (h : p.WellFormed) : p.Faultless where
  shifts _ hk := ClassRange.lt_width_of_mem_exponents h.valid hk
  smallest := ⟨_, ClassRange.smallest_eq h.valid⟩
  largest := ⟨_, ClassRange.largest_eq h.valid⟩
  count := by rw [ClassRange.count_eq h.valid, h.paired]
  rounding {size least top} hleast htop hsize := by
    obtain rfl := Except.ok.inj ((ClassRange.smallest_eq h.valid).symm.trans hleast)
    obtain rfl := Except.ok.inj ((ClassRange.largest_eq h.valid).symm.trans htop)
    exact ⟨_, ClassRange.roundUp_of_lt_largest h.valid hsize,
      Word.two_pow_lt_size (ClassRange.fitExponent_lt_width h.valid size)⟩
  fit size := by
    obtain ⟨i, cls, hfit, hcls⟩ := ClassRange.exists_fit h.valid size
    exact ⟨i, cls, hfit, h.lt_length_idle hcls⟩
  idxOf? capacity := by
    refine ⟨_, ClassRange.idxOf?_eq p.classes capacity, ?_⟩
    intro i hi
    obtain ⟨hlt, -⟩ := List.idxOf?_eq_some_iff.1 hi
    exact h.paired ▸ hlt
  perform o := by
    obtain ⟨served, next, ho, -⟩ := perform_moves h o
    exact ⟨served, next, ho⟩
  retained capacity := ⟨_, h.retained_eq capacity⟩

end WellFormed

/-- Making a pool does not fault, also if the configuration is refused. -/
theorem exists_ofConfig (c : Config) : ∃ made, ofConfig c = .ok made := by
  cases hvalid : c.validate with
  | error e => exact ⟨.error e, by rw [ofConfig, hvalid]; rfl⟩
  | ok _ =>
    cases hrange : ClassRange.ofBounds? c.lower c.upper with
    | none => exact ⟨_, by rw [ofConfig, hvalid, hrange]; rfl⟩
    | some r => exact ⟨_, ofConfig_eq_ok_iff.2 ⟨hvalid, r, hrange, rfl⟩⟩

/-- **No pool faults.** Making a pool does not fault, whatever the configuration is. If a pool was
    made, the shift that rounds its upper bound down stays within the word, no operation of any run
    faults, and after the run, whatever buffers came back in it, no check of the pool fails. -/
theorem faultless_of_run (c : Config) :
    ∃ made, ofConfig c = .ok made ∧ ∀ p, made = .ok p →
      c.upper.toNat.log2 < Word.width ∧
      ∀ ops : List Operation, ∃ moments q, p.run ops = .ok (moments, q) ∧
        q.classes = p.classes ∧ q.Faultless := by
  obtain ⟨made, hmade⟩ := exists_ofConfig c
  refine ⟨made, hmade, ?_⟩
  rintro p rfl
  constructor
  · -- A pool is made only if a power of two lies below the upper bound, which is then not zero.
    obtain ⟨-, r, hr, -⟩ := ofConfig_eq_ok_iff.1 hmade
    exact Word.log2_lt_width (ClassRange.admits_iff.1 (ClassRange.admits_of_ofBounds? hr)).1
  · intro ops
    obtain ⟨moments, q, hrun, hq, -⟩ := run_continues (wellFormed_of_ofConfig hmade) ops
    exact ⟨moments, q, hrun, hq.classes, hq.wellFormed.faultless⟩

/-- The widest range that there is, and sizes and capacities at both ends of the words. -/
theorem faultless_of_widest_range :
    ofConfig ⟨0, 18446744073709551615, some 1⟩ = .ok (.ok (unused ⟨0, 63⟩ (some 1))) ∧
      ∃ moments q, (unused ⟨0, 63⟩ (some 1)).run
          [.get 18446744073709551615, .put (.empty 9223372036854775808), .take 0,
            .release ⟨1, .empty 0⟩, .put (.empty 18446744073709551615)] = .ok (moments, q) ∧
        q.Faultless := by
  obtain ⟨made, hmade, hruns⟩ := faultless_of_run ⟨0, 18446744073709551615, some 1⟩
  have h : ofConfig ⟨0, 18446744073709551615, some 1⟩ =
      .ok (.ok (unused ⟨0, 63⟩ (some 1))) := by decide
  obtain ⟨-, hrun⟩ := hruns _ (Except.ok.inj (hmade.symm.trans h))
  obtain ⟨moments, q, hmoments, -, hq⟩ := hrun
    [.get 18446744073709551615, .put (.empty 9223372036854775808), .take 0,
      .release ⟨1, .empty 0⟩, .put (.empty 18446744073709551615)]
  exact ⟨h, moments, q, hmoments, hq⟩

end WireBytes.Pool
