import Mathlib
import WireBytes.Proofs.Pool.FreeLists

/-!
# The ledger of a pool

The counters of a pool account for every request and for every buffer that comes back. They wrap
around, so the accounts are exact for fewer than `2 ^ 64` operations.

* `Pool.Ledger` — the accounts; `Pool.Ledger.move` — a move enters one operation in them, and
  `Pool.Ledger.run` a whole run;
* `Pool.WellFormed.mapM_retained` — the reports of all classes are the lengths of the free lists;
* `Pool.stats_of_run` — what a snapshot says after a run.
-/

namespace WireBytes.Pool

variable {p q : Pool}

/-! ### Counting -/

/-- Replacing one list of several changes the length of all by the difference. -/
private theorem length_flatten_set {α : Type} {lists : List (List α)} {i : Nat} {old : List α}
    (h : lists[i]? = some old) (new : List α) :
    (lists.set i new).flatten.length + old.length = lists.flatten.length + new.length := by
  induction lists generalizing i with
  | nil => simp at h
  | cons list lists ih =>
    cases i with
    | zero =>
      obtain rfl : list = old := by simpa using h
      simp only [List.set_cons_zero, List.flatten_cons, List.length_append]
      omega
    | succ i =>
      have := ih (i := i) (by simpa using h)
      simp only [List.set_cons_succ, List.flatten_cons, List.length_append]
      omega

/-! ### The accounts -/

/-- The counters of a pool account for so many requests, so many buffers that came back, and so
    many of these that were refused. -/
structure Ledger (p : Pool) (requests returned refused : Nat) : Prop where
  requests : p.hits.toNat + p.misses.toNat = requests
  returned : p.returns.toNat + p.drops.toNat = returned
  /-- What was kept is still idle or was handed out again. -/
  kept : p.hits.toNat + p.retainedTotal = p.returns.toNat
  refused : p.drops.toNat = refused

theorem ledger_unused (r : ClassRange) (limit : Option UInt64) : Ledger (unused r limit) 0 0 0 := by
  have : (unused r limit).retainedTotal = 0 := by
    simp [unused, retainedTotal]
  exact ⟨rfl, rfl, by rw [this]; rfl, rfl⟩

/-- **One entry.** A move enters a request as a request, and a buffer that comes back as returned
    and, if it is refused, as refused. -/
theorem Ledger.move {o : Operation} {served : Option (Buffer × Nat)} {a b d : Nat}
    (hl : Ledger p a b d) (hm : Moves p o served q) (hroom : a + b + 1 < 2 ^ 64) :
    Ledger q (a + if o.requested?.isSome then 1 else 0) (b + if o.returned?.isSome then 1 else 0)
      (d + if (Moment.mk p o served).isRefusal then 1 else 0) := by
  obtain ⟨hrequests, hreturned, hkept, hrefused⟩ := hl
  cases hm with
  | @hit _ size i cls rest ho hfit hcls hfree =>
    rw [ho, Operation.returned?_of_requested? ho, Moment.isRefusal_of_requested? ho]
    have hidle := length_flatten_set hfree rest
    have hhits := Word.toNat_add_one (n := p.hits) (by omega)
    rw [List.length_cons] at hidle
    -- The buffer handed out is one idle buffer less and one hit more.
    refine ⟨?_, hreturned, ?_, hrefused⟩
    · show (p.hits + 1).toNat + p.misses.toNat = a + 1
      omega
    · show (p.hits + 1).toNat + (p.idle.set i rest).flatten.length = p.returns.toNat
      unfold retainedTotal at hkept
      omega
  | @miss _ size i cls ho hfit hcls hfree =>
    rw [ho, Operation.returned?_of_requested? ho, Moment.isRefusal_of_requested? ho]
    have hmisses := Word.toNat_add_one (n := p.misses) (by omega)
    refine ⟨?_, hreturned, hkept, hrefused⟩
    show p.hits.toNat + (p.misses + 1).toNat = a + 1
    omega
  | @keep _ buf i free ho hcls hfree hroom hkeep =>
    rw [ho, Operation.requested?_of_returned? ho, Moment.isRefusal_of_returned? ho, hkeep]
    have hidle := length_flatten_set hfree (Buffer.empty buf.capacity :: free)
    have hreturns := Word.toNat_add_one (n := p.returns) (by omega)
    rw [List.length_cons] at hidle
    -- The buffer kept is one idle buffer more and one return more.
    refine ⟨hrequests, ?_, ?_, hrefused⟩
    · show (p.returns + 1).toNat + p.drops.toNat = b + 1
      omega
    · show p.hits.toNat + (p.idle.set i (Buffer.empty buf.capacity :: free)).flatten.length =
        (p.returns + 1).toNat
      unfold retainedTotal at hkept
      omega
  | @refuse _ buf ho hrefuse =>
    rw [ho, Operation.requested?_of_returned? ho, Moment.isRefusal_of_returned? ho, hrefuse]
    have hdrops := Word.toNat_add_one (n := p.drops) (by omega)
    refine ⟨hrequests, ?_, hkept, ?_⟩
    · show p.returns.toNat + (p.drops + 1).toNat = b + 1
      omega
    · show (p.drops + 1).toNat = d + 1
      omega
  | detach g => exact ⟨hrequests, hreturned, hkept, hrefused⟩

/-- **The accounts of a run.** They hold of every run that is short enough for the counters. -/
theorem Ledger.run {a b d : Nat} (hl : Ledger p a b d) (h : p.WellFormed) (ops : List Operation)
    (hroom : a + b + ops.length < 2 ^ 64) :
    ∃ moments q, p.run ops = .ok (moments, q) ∧ Continues p q ∧
      Ledger q (a + ops.countP (·.requested?.isSome)) (b + ops.countP (·.returned?.isSome))
        (d + moments.countP Moment.isRefusal) := by
  -- The accounts at the beginning are arbitrary, so that those after the first operation are too.
  induction ops generalizing p a b d with
  | nil => exact ⟨[], p, rfl, .refl h, hl⟩
  | cons o rest ih =>
    rw [List.length_cons] at hroom
    obtain ⟨served, next, ho, hmove⟩ := perform_moves h o
    have hnext : Continues p next := hmove.continues h
    have hentry := hl.move hmove (by omega)
    -- An operation is entered once at most, as a request or as a buffer that comes back.
    have honce :
        (if o.requested?.isSome then 1 else 0) + (if o.returned?.isSome then 1 else 0) ≤ 1 := by
      cases o <;> simp [Operation.requested?, Operation.returned?]
    obtain ⟨moments, q, hrun, hq, hledger⟩ := ih hentry hnext.wellFormed (by omega)
    refine ⟨_, q, run_cons ho hrun, hnext.trans hq, ?_⟩
    rw [List.countP_cons, List.countP_cons, List.countP_cons]
    convert hledger using 1 <;> omega

/-! ### The reports -/

/-- A list of checked steps succeeds if each of them does. -/
private theorem mapM_eq_ok {α β γ : Type} {f : α → Checked γ} {g : β → γ} {xs : List α}
    {ys : List β} (hlen : ys.length = xs.length)
    (h : ∀ (i : Nat) (x : α) (y : β), xs[i]? = some x → ys[i]? = some y → f x = .ok (g y)) :
    xs.mapM f = .ok (ys.map g) := by
  induction xs generalizing ys with
  | nil =>
    obtain rfl : ys = [] := List.length_eq_zero_iff.1 hlen
    rfl
  | cons x xs ih =>
    cases ys with
    | nil => simp at hlen
    | cons y ys =>
      have hx : f x = .ok (g y) := h 0 x y rfl rfl
      have hxs : xs.mapM f = .ok (ys.map g) :=
        ih (by simpa using hlen) fun i => h (i + 1)
      rw [List.mapM_cons, hx, hxs]
      rfl

/-- The reports of all classes are the lengths of the free lists. -/
theorem WellFormed.mapM_retained (h : p.WellFormed) :
    p.classes.toList.mapM p.retained = .ok (p.idle.map List.length) :=
  mapM_eq_ok h.paired fun _ _ _ => retained_of_class

/-- **The statistics of a run.** After fewer than `2 ^ 64` operations every request was a hit or a
    miss, every buffer that came back was kept or given up, what was kept is idle or was handed out
    again, the idle buffers are those that the classes report, and exactly the refused buffers were
    given up. -/
theorem stats_of_run {c : Config} (h : ofConfig c = .ok (.ok p)) (ops : List Operation)
    (hlen : ops.length < 2 ^ 64) :
    ∃ moments q, p.run ops = .ok (moments, q) ∧
      q.stats.hits.toNat + q.stats.misses.toNat = ops.countP (·.requested?.isSome) ∧
      q.stats.returns.toNat + q.stats.drops.toNat = ops.countP (·.returned?.isSome) ∧
      q.stats.hits.toNat + q.stats.retained.toNat = q.stats.returns.toNat ∧
      (∃ counts, q.classes.toList.mapM q.retained = .ok counts ∧
        q.stats.retained.toNat = counts.sum) ∧
      (∀ capacity, capacity ∉ q.classes.toList → q.retained capacity = .ok 0) ∧
      q.stats.drops.toNat = moments.countP Moment.isRefusal := by
  obtain ⟨-, r, hr, rfl⟩ := ofConfig_eq_ok_iff.1 h
  have hwf : (unused r c.limit).WellFormed := wellFormed_of_ofConfig h
  obtain ⟨moments, q, hrun, hq, hledger⟩ :=
    (ledger_unused r c.limit).run hwf ops (by omega)
  simp only [Nat.zero_add] at hledger
  -- The idle buffers are fewer than the returned ones, so their number is a word.
  have hretained : q.stats.retained.toNat = q.retainedTotal := by
    show q.retainedTotal.toUInt64.toNat = q.retainedTotal
    have := hledger.kept
    have := q.returns.toNat_lt
    exact Nat.mod_eq_of_lt (by omega)
  refine ⟨moments, q, hrun, hledger.requests, hledger.returned, ?_, ?_, ?_, hledger.refused⟩
  · rw [hretained]
    exact hledger.kept
  · refine ⟨_, hq.wellFormed.mapM_retained, ?_⟩
    rw [hretained, retainedTotal, List.length_flatten]
  · exact fun capacity hc => retained_of_notMem hc

/-- A full class, a buffer of no class and a hit in one run of a pool that keeps one buffer. -/
theorem stats_of_mixed_run :
    ofConfig ⟨3, 100, some 1⟩ = .ok (.ok (unused ⟨2, 6⟩ (some 1))) ∧
      ∃ moments q, (unused ⟨2, 6⟩ (some 1)).run
          [.put (.ofBytes 16 [1]), .release ⟨4, .empty 16⟩, .put (.empty 24), .take 9, .get 9] =
            .ok (moments, q) ∧
        q.stats.hits.toNat + q.stats.misses.toNat = 2 ∧
        q.stats.returns.toNat + q.stats.drops.toNat = 3 ∧
        q.stats.drops.toNat = moments.countP Moment.isRefusal := by
  have h : ofConfig ⟨3, 100, some 1⟩ = .ok (.ok (unused ⟨2, 6⟩ (some 1))) := by decide
  obtain ⟨moments, q, hrun, hrequests, hreturned, -, -, -, hrefused⟩ := stats_of_run h
    [.put (.ofBytes 16 [1]), .release ⟨4, .empty 16⟩, .put (.empty 24), .take 9, .get 9] (by decide)
  exact ⟨h, moments, q, hrun, hrequests, hreturned, hrefused⟩

end WireBytes.Pool
