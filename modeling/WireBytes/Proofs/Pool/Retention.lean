import Mathlib
import WireBytes.Proofs.Pool.Address
import WireBytes.Proofs.Pool.Ledger

/-!
# Keeping more buffers

A pool that keeps more idle buffers of each class does not serve worse. In the runs of the same
operations at the pools of two limits, the pool of the higher limit always has at least as many
buffers of each class idle, and so it serves from them whenever the other pool does.

* `Pool.cap` — a limit as a number; `Pool.settle_of_cap_le` — what one operation comes to at a free
  list, with two limits;
* `Pool.Room` — so many operations fit the words in which a pool counts;
* `Pool.Trails` — a pool that is behind another one; `Pool.Trails.after` — one operation at both,
  and `Pool.Trails.run` a run;
* `Pool.Trails.counters` — the other counters do not follow operation by operation, since a pool
  that has kept more may be full sooner; they follow from the accounts of both runs;
* `Pool.run_of_higher_limit` — the consequence for the pools of two limits.
-/

namespace WireBytes.Pool

variable {p q : Pool} {o : Operation} {cls : Nat}

/-! ### Two limits at one free list -/

/-- A limit as a number. To have none counts as the largest word. -/
def cap : Option UInt64 → Nat
  | none => UInt64.size - 1
  | some n => n.toNat

/-- A free list is full if it has reached the limit. Without a limit it would have to be as long as
    the largest word, which is more than a run can lead to. -/
theorem isFull_eq_decide {free : List Buffer} (hroom : free.length + 1 < 2 ^ 64) :
    p.isFull free = decide (cap p.limit ≤ free.length) := by
  unfold isFull
  cases p.limit with
  | some n => rfl
  | none =>
    have hlt : ¬ UInt64.size - 1 ≤ free.length := by
      show ¬ 2 ^ 64 - 1 ≤ free.length
      omega
    exact (decide_eq_false hlt).symm

/-- An operation at two free lists: the one that was no longer before is no longer afterwards, and a
    hit at it is a hit at the other one. -/
theorem settle_of_cap_le (hle : cap p.limit ≤ cap q.limit) (o : Operation)
    {free free' : List Buffer} (hlen : free.length ≤ free'.length)
    (hroom : free'.length + 1 < 2 ^ 64) :
    (p.settle o free).2.length ≤ (q.settle o free').2.length ∧
      ((p.settle o free).1 = some .hit → (q.settle o free').1 = some .hit) := by
  unfold settle
  cases o.returned? with
  | none =>
    -- A request takes one buffer away, or none where there is none.
    cases free with
    | nil => exact ⟨Nat.zero_le _, by simp⟩
    | cons b rest =>
      cases free' with
      | nil => simp at hlen
      | cons b' rest' => exact ⟨Nat.le_of_succ_le_succ hlen, fun _ => rfl⟩
  | some b =>
    rw [isFull_eq_decide (p := p) (by omega), isFull_eq_decide (p := q) hroom]
    -- A buffer that comes back may be kept at one of the two free lists only.
    by_cases hp : cap p.limit ≤ free.length <;> by_cases hq : cap q.limit ≤ free'.length
    · simpa [hp, hq] using hlen
    · simpa [hp, hq] using Nat.le_succ_of_le hlen
    · have hlt : free.length < free'.length := by omega
      simpa [hp, hq] using hlt
    · simpa [hp, hq] using hlen

/-- One operation makes a free list longer by one buffer at most. -/
theorem length_settle_le (p : Pool) (o : Operation) (free : List Buffer) :
    (p.settle o free).2.length ≤ free.length + 1 := by
  unfold settle
  cases o.returned? with
  | none =>
    cases free with
    | nil => exact Nat.zero_le _
    | cons b rest => exact Nat.le_trans (Nat.le_succ _) (Nat.le_succ _)
  | some b => cases p.isFull free <;> simp

/-! ### Hits -/

theorem hits_tally (p : Pool) (x : Option Outcome) :
    (p.tally x).hits = p.hits + if x = some .hit then 1 else 0 := by
  rcases x with _ | _ | _ | _ | _ <;> simp [tally]

/-- An operation is a hit if the counters tell so. -/
theorem hits_after (p : Pool) (o : Operation) :
    (p.after o).hits = p.hits + if p.outcome (p.after o) = some .hit then 1 else 0 := by
  cases ho : o.address p.classes with
  | none => rw [outcome_after_of_stray ho, after_of_stray ho, hits_tally]
  | some cls =>
    rw [outcome_after_of_address ho, after_of_address ho, hits_tally]
    rfl

/-- As long as the counter has room it counts without wrapping around. -/
theorem toNat_hits_after (p : Pool) (o : Operation) (hroom : p.hits.toNat + 1 < 2 ^ 64) :
    (p.after o).hits.toNat =
      p.hits.toNat + if p.outcome (p.after o) = some .hit then 1 else 0 := by
  rw [hits_after]
  split
  · exact Word.toNat_add_one hroom
  · rw [UInt64.add_zero, Nat.add_zero]

/-- So many operations more fit the words in which a pool counts hits and idle buffers. -/
structure Room (p : Pool) (n : Nat) : Prop where
  hits : p.hits.toNat + n < 2 ^ 64
  free : ∀ cls, (p.freeList cls).length + n < 2 ^ 64

/-- A pool that was never used has room for as many operations as a word can count. -/
theorem room_unused (r : ClassRange) (limit : Option UInt64) {n : Nat} (hn : n < 2 ^ 64) :
    Room (unused r limit) n where
  hits := by simpa [unused] using hn
  free cls := by simpa using hn

/-- Every operation uses up the room for one. -/
theorem Room.after {n : Nat} (h : Room p (n + 1)) (hp : p.WellFormed) (o : Operation) :
    Room (p.after o) n := by
  have hhits := h.hits
  refine ⟨?_, fun cls => ?_⟩
  · rw [toNat_hits_after p o (by omega)]
    split <;> omega
  · have hfree := h.free cls
    by_cases ho : o.address p.classes = some cls
    · have hgrown := length_settle_le p o (p.freeList cls)
      rw [freeList_after_of_address hp ho]
      omega
    · rw [freeList_after_of_ne hp ho]
      omega

/-! ### A pool behind another one -/

/-- A pool is behind another one of the same classes: it keeps no more buffers of a class, has none
    more idle, and was not hit more often. -/
structure Trails (p q : Pool) : Prop where
  classes : q.classes = p.classes
  cap : cap p.limit ≤ cap q.limit
  free : ∀ cls, (p.freeList cls).length ≤ (q.freeList cls).length
  hits : p.hits.toNat ≤ q.hits.toNat

/-- Of two pools that were never used, the one with the lower limit is behind. -/
theorem trails_unused (r : ClassRange) {limit limit' : Option UInt64}
    (hle : cap limit ≤ cap limit') : Trails (unused r limit) (unused r limit') where
  classes := rfl
  cap := hle
  free cls := by rw [freeList_unused, freeList_unused]
  hits := Nat.le_refl _

namespace Trails

/-- A hit at the pool behind is a hit at the other one. -/
theorem outcome_eq_hit {n : Nat} (h : Trails p q) (hroom : Room q (n + 1))
    (hhit : p.outcome (p.after o) = some .hit) : q.outcome (q.after o) = some .hit := by
  cases ho : o.address p.classes with
  | none =>
    -- What is addressed to no class is refused at most.
    rw [outcome_after_of_stray ho, Operation.stray] at hhit
    split at hhit <;> simp at hhit
  | some cls =>
    have hfree := hroom.free cls
    rw [outcome_after_of_address ho] at hhit
    rw [outcome_after_of_address (by rwa [h.classes])]
    exact (settle_of_cap_le h.cap o (h.free cls) (by omega)).2 hhit

/-- **One operation.** It leaves the pool behind where it is. -/
theorem after {n : Nat} (h : Trails p q) (hp : p.WellFormed) (hq : q.WellFormed)
    (hroom : Room q (n + 1)) (o : Operation) : Trails (p.after o) (q.after o) := by
  refine ⟨?_, ?_, ?_, ?_⟩
  · rw [classes_after, classes_after, h.classes]
  · rw [limit_after, limit_after]
    exact h.cap
  · intro cls
    have hfree := hroom.free cls
    -- Both pools have the same classes, and so the operation has the same address at both.
    by_cases ho : o.address p.classes = some cls
    · rw [freeList_after_of_address hp ho, freeList_after_of_address hq (by rwa [h.classes])]
      exact (settle_of_cap_le h.cap o (h.free cls) (by omega)).1
    · rw [freeList_after_of_ne hp ho, freeList_after_of_ne hq (by rwa [h.classes])]
      exact h.free cls
  · have hle := h.hits
    have hhits := hroom.hits
    rw [toNat_hits_after p o (by omega), toNat_hits_after q o (by omega)]
    -- The pool behind could only catch up by a hit of its own.
    by_cases hhit : p.outcome (p.after o) = some .hit
    · rw [if_pos hhit, if_pos (h.outcome_eq_hit hroom hhit)]
      omega
    · rw [if_neg hhit]
      omega

/-- **A run.** It leaves the pool behind where it is at every point. -/
theorem run (h : Trails p q) (hp : p.WellFormed) (hq : q.WellFormed) (ops : List Operation)
    (hroom : Room q ops.length) :
    ∃ moments p' moments' q', p.run ops = .ok (moments, p') ∧ q.run ops = .ok (moments', q') ∧
      p'.WellFormed ∧ q'.WellFormed ∧ Trails p' q' := by
  induction ops generalizing p q with
  | nil => exact ⟨[], p, [], q, rfl, rfl, hp, hq, h⟩
  | cons o rest ih =>
    obtain ⟨moments, p', moments', q', hrun, hrun', hlast⟩ :=
      ih (h.after hp hq hroom o) (hp.after o) (hq.after o) (hroom.after hq o)
    exact ⟨_, p', _, q', run_cons (perform_eq hp o) hrun, run_cons (perform_eq hq o) hrun', hlast⟩

/-- Fewer buffers are idle in all. -/
theorem retainedTotal_le (h : Trails p q) (hp : p.WellFormed) (hq : q.WellFormed) :
    p.retainedTotal ≤ q.retainedTotal := by
  rw [retainedTotal, retainedTotal, hp.idle_eq, hq.idle_eq, List.length_flatten,
    List.length_flatten, List.map_map, List.map_map, h.classes]
  apply List.sum_le_sum
  intro cls _
  exact h.free cls

/-- **The counters.** Both pools have accounts of the same requests and of as many buffers that came
    back. Fewer hits are more misses, and with fewer buffers idle fewer were kept. -/
theorem counters (h : Trails p q) (hp : p.WellFormed) (hq : q.WellFormed)
    {requests returned refused refused' : Nat} (hl : Ledger p requests returned refused)
    (hl' : Ledger q requests returned refused') :
    p.hits ≤ q.hits ∧ q.misses ≤ p.misses ∧ p.returns ≤ q.returns ∧ q.drops ≤ p.drops := by
  have hhits := h.hits
  have hidle := h.retainedTotal_le hp hq
  obtain ⟨hrequests, hreturned, hkept, -⟩ := hl
  obtain ⟨hrequests', hreturned', hkept', -⟩ := hl'
  simp only [UInt64.le_iff_toNat_le]
  omega

end Trails

/-! ### The pools of two limits -/

/-- **A higher limit does not hurt.** A pair of bounds is accepted with every limit or with none. In
    the runs of fewer than `2 ^ 64` operations at the pools of two limits, at every point, the pool
    of the higher limit has at least as many idle buffers of every class and was hit at least as
    often, it has missed at most as often, it has kept at least as many buffers that came back, and
    given up at most as many. -/
theorem run_of_higher_limit {lower upper : UInt64} {limit limit' : Option UInt64}
    (hle : cap limit ≤ cap limit') (h : ofConfig ⟨lower, upper, limit⟩ = .ok (.ok p))
    {ops : List Operation} (hlen : ops.length < 2 ^ 64) :
    ∃ q, ofConfig ⟨lower, upper, limit'⟩ = .ok (.ok q) ∧ ∀ pre, pre <+: ops →
      ∃ moments p' moments' q',
        p.run pre = .ok (moments, p') ∧ q.run pre = .ok (moments', q') ∧
        (∀ cls, ∃ idle idle', p'.retained cls = .ok idle ∧ q'.retained cls = .ok idle' ∧
          idle ≤ idle') ∧
        p'.stats.hits ≤ q'.stats.hits ∧ q'.stats.misses ≤ p'.stats.misses ∧
        p'.stats.returns ≤ q'.stats.returns ∧ q'.stats.drops ≤ p'.stats.drops := by
  obtain ⟨hvalid, r, hr, rfl⟩ := ofConfig_eq_ok_iff.1 h
  have h' : ofConfig ⟨lower, upper, limit'⟩ = .ok (.ok (unused r limit')) :=
    ofConfig_eq_ok_iff.2 ⟨hvalid, r, hr, rfl⟩
  refine ⟨unused r limit', h', ?_⟩
  intro pre hpre
  have hpre' : pre.length < 2 ^ 64 := Nat.lt_of_le_of_lt hpre.length_le hlen
  have hp : (unused r limit).WellFormed := wellFormed_of_ofConfig h
  have hq : (unused r limit').WellFormed := wellFormed_of_ofConfig h'
  obtain ⟨moments, p', moments', q', hrun, hrun', hp', hq', htrails⟩ :=
    (trails_unused r hle).run hp hq pre (room_unused r limit' hpre')
  -- The same runs, with the accounts of each.
  obtain ⟨_, _, hrun₁, -, hl⟩ := (ledger_unused r limit).run hp pre (by omega)
  obtain ⟨_, _, hrun₂, -, hl'⟩ := (ledger_unused r limit').run hq pre (by omega)
  obtain ⟨rfl, rfl⟩ := Prod.mk.inj (Except.ok.inj (hrun.symm.trans hrun₁))
  obtain ⟨rfl, rfl⟩ := Prod.mk.inj (Except.ok.inj (hrun'.symm.trans hrun₂))
  refine ⟨moments, p', moments', q', hrun, hrun', ?_, htrails.counters hp' hq' hl hl'⟩
  intro cls
  exact ⟨_, _, hp'.retained_eq cls, hq'.retained_eq cls, htrails.free cls⟩

/-- Two buffers of one class come back to a pool that keeps one and to a pool without a limit, and
    two are asked for: the higher limit saves one miss and one drop. -/
theorem run_of_higher_limit_none :
    let ops : List Operation := [.put (.ofBytes 8 [1]), .put (.empty 8), .put (.empty 24), .get 5,
      .get 8]
    let p := unused ⟨2, 4⟩ (some 1)
    let q := unused ⟨2, 4⟩ none
    cap (some 1) ≤ cap none ∧ ofConfig ⟨3, 20, some 1⟩ = .ok (.ok p) ∧ ops.length < 2 ^ 64 ∧
      ops <+: ops ∧ ofConfig ⟨3, 20, none⟩ = .ok (.ok q) ∧
      ∃ moments p' moments' q', p.run ops = .ok (moments, p') ∧ q.run ops = .ok (moments', q') ∧
        p'.stats = ⟨0, 1, 1, 1, 2⟩ ∧ q'.stats = ⟨0, 2, 0, 2, 1⟩ ∧
        p'.stats.hits ≤ q'.stats.hits ∧ q'.stats.misses ≤ p'.stats.misses ∧
        p'.stats.returns ≤ q'.stats.returns ∧ q'.stats.drops ≤ p'.stats.drops := by
  intro ops p q
  have hle : cap (some 1) ≤ cap none := by decide
  have hp : ofConfig ⟨3, 20, some 1⟩ = .ok (.ok p) := by decide
  have hq : ofConfig ⟨3, 20, none⟩ = .ok (.ok q) := by decide
  have hlen : ops.length < 2 ^ 64 := by decide
  obtain ⟨q₁, hq₁, hpoints⟩ := run_of_higher_limit hle hp hlen
  obtain rfl : q = q₁ := by simpa [hq] using hq₁
  obtain ⟨moments, p', moments', q', hrun, hrun', -, hcounters⟩ := hpoints ops List.prefix_rfl
  have hstats : (p.run ops).map (·.2.stats) = .ok ⟨0, 1, 1, 1, 2⟩ := by decide
  have hstats' : (q.run ops).map (·.2.stats) = .ok ⟨0, 2, 0, 2, 1⟩ := by decide
  rw [hrun] at hstats
  rw [hrun'] at hstats'
  exact ⟨hle, hp, hlen, List.prefix_rfl, hq, moments, p', moments', q', hrun, hrun',
    Except.ok.inj hstats, Except.ok.inj hstats', hcounters⟩

end WireBytes.Pool
