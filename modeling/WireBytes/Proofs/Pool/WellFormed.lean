import Mathlib
import WireBytes.Pool.Basic
import WireBytes.Proofs.SizeClass

/-!
# Well-formed pools

The invariant of a pool: there is one free list for each class, and the buffers in it cannot be
told from new ones of that class.

* `Pool.WellFormed` — the invariant; `Pool.Continues` — the invariant of a later state of a pool;
* `Pool.ofConfig_eq_ok_iff` — which configurations make a pool, and that it is an `unused` one;
  `Pool.wellFormed_of_ofConfig` — such a pool is well-formed;
* `Pool.WellFormed.refile` — replacing one free list keeps the invariant.
-/

namespace WireBytes.Pool

variable {p q : Pool}

/-- The invariant of a pool. -/
structure WellFormed (p : Pool) : Prop where
  valid : p.classes.Valid
  /-- There is one free list for each class. -/
  paired : p.idle.length = p.classes.toList.length
  /-- An idle buffer is as good as a new one of the class under which it is filed. -/
  filed : ∀ {i cls : Nat} {free : List Buffer}, p.classes.toList[i]? = some cls →
    p.idle[i]? = some free → ∀ b ∈ free, b = Buffer.empty cls
  /-- No free list is longer than the limit. -/
  within : ∀ n, p.limit = some n → ∀ free ∈ p.idle, free.length ≤ n.toNat

/-- A later state of the same pool: it has the invariant, and the classes and the limit are those
    of the earlier state. -/
structure Continues (p q : Pool) : Prop where
  wellFormed : q.WellFormed
  classes : q.classes = p.classes
  limit : q.limit = p.limit

theorem Continues.refl (h : p.WellFormed) : Continues p p :=
  ⟨h, rfl, rfl⟩

theorem Continues.trans {p₁ p₂ p₃ : Pool} (h₁ : Continues p₁ p₂) (h₂ : Continues p₂ p₃) :
    Continues p₁ p₃ :=
  ⟨h₂.wellFormed, h₂.classes.trans h₁.classes, h₂.limit.trans h₁.limit⟩

/-! ### New pools -/

/-- A pool of given classes that was never used. -/
def unused (r : ClassRange) (limit : Option UInt64) : Pool :=
  ⟨r, List.replicate r.toList.length [], limit, 0, 0, 0, 0⟩

/-- A configuration makes a pool exactly if it can be used, and the pool is a new one of the classes
    between the bounds. -/
theorem ofConfig_eq_ok_iff {c : Config} :
    ofConfig c = .ok (.ok p) ↔ c.validate = .ok () ∧
      ∃ r, ClassRange.ofBounds? c.lower c.upper = some r ∧ p = unused r c.limit := by
  unfold ofConfig
  cases hv : c.validate with
  | error e => simp [pure, Except.pure]
  | ok u =>
    cases hb : ClassRange.ofBounds? c.lower c.upper with
    | none => simp [pure, Except.pure]
    | some r =>
      -- The classes can be counted without a fault, so the pool is made.
      have hcount := ClassRange.count_eq (ClassRange.valid_of_ofBounds? hb)
      simp [hcount, unused, bind, Except.bind, pure, Except.pure, eq_comm]

/-- The invariant holds of a pool that was never used. -/
theorem wellFormed_unused {r : ClassRange} (h : r.Valid) (limit : Option UInt64) :
    (unused r limit).WellFormed := by
  have hempty : ∀ free ∈ (unused r limit).idle, free = [] :=
    fun free hfree => List.eq_of_mem_replicate hfree
  refine ⟨h, List.length_replicate, ?_, ?_⟩
  · intro i cls free _ hfree b hb
    rw [hempty free (List.mem_of_getElem? hfree)] at hb
    exact absurd hb List.not_mem_nil
  · intro n _ free hfree
    rw [hempty free hfree]
    exact Nat.zero_le _

/-- The invariant holds of every pool that a configuration makes. -/
theorem wellFormed_of_ofConfig {c : Config} (h : ofConfig c = .ok (.ok p)) : p.WellFormed := by
  obtain ⟨-, r, hr, rfl⟩ := ofConfig_eq_ok_iff.1 h
  exact wellFormed_unused (ClassRange.valid_of_ofBounds? hr) c.limit

/-! ### Consequences and changes -/

namespace WellFormed

/-- Every class has its free list. -/
theorem exists_free (h : p.WellFormed) {i cls : Nat} (hcls : p.classes.toList[i]? = some cls) :
    ∃ free, p.idle[i]? = some free := by
  obtain ⟨hlt, -⟩ := List.getElem?_eq_some_iff.1 hcls
  exact ⟨_, List.getElem?_eq_getElem (h.paired ▸ hlt)⟩

/-- Replacing a free list by another one of empty buffers, not longer than the limit. -/
theorem refile (h : p.WellFormed) {i cls : Nat} {free : List Buffer}
    (hcls : p.classes.toList[i]? = some cls) (hfree : ∀ b ∈ free, b = Buffer.empty cls)
    (hlimit : ∀ n, p.limit = some n → free.length ≤ n.toNat)
    (hc : q.classes = p.classes) (hi : q.idle = p.idle.set i free) (hl : q.limit = p.limit) :
    Continues p q := by
  refine ⟨⟨hc ▸ h.valid, ?_, ?_, ?_⟩, hc, hl⟩
  · rw [hi, hc, List.length_set]
    exact h.paired
  · rw [hc, hi]
    intro j cls' free' hcls' hfree'
    rw [List.getElem?_set] at hfree'
    -- The new free list is at its place, and all others are the old ones.
    by_cases hij : i = j
    · subst hij
      obtain rfl : cls = cls' := Option.some.inj (hcls.symm.trans hcls')
      rw [if_pos rfl] at hfree'
      split at hfree'
      · exact Option.some.inj hfree' ▸ hfree
      · exact absurd hfree' (by simp)
    · rw [if_neg hij] at hfree'
      exact h.filed hcls' hfree'
  · rw [hl, hi]
    intro n hn free' hmem
    rcases List.mem_or_eq_of_mem_set hmem with hold | rfl
    · exact h.within n hn free' hold
    · exact hlimit n hn

end WellFormed

/-! ### Reports -/

/-- The report of a class is the length of its free list. -/
theorem retained_of_class {i cls : Nat} {free : List Buffer}
    (hcls : p.classes.toList[i]? = some cls) (hfree : p.idle[i]? = some free) :
    p.retained cls = .ok free.length := by
  unfold retained
  rw [ClassRange.idxOf?_eq, ClassRange.idxOf?_toList hcls]
  simp only [bind, Except.bind, Word.fetch, hfree]
  rfl

/-- A capacity that is no class has no idle buffers. -/
theorem retained_of_notMem {capacity : Nat} (h : capacity ∉ p.classes.toList) :
    p.retained capacity = .ok 0 := by
  unfold retained
  rw [ClassRange.idxOf?_eq, List.idxOf?_eq_none_iff.2 h]
  rfl

end WireBytes.Pool
