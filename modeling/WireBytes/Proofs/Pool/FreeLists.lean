import Mathlib
import WireBytes.Proofs.Pool.Moves

/-!
# The free lists after a run

* `Pool.Moves.continues` — a move keeps the invariant, the classes and the limit;
* `Pool.run_continues` — so does a run, and each of its operations was a move of the pool before it;
* `Pool.freeLists_of_run` — what this says of the free lists of a pool that was made from a
  configuration, and of the buffers that it serves.
-/

namespace WireBytes.Pool

variable {p q : Pool}

/-- A move keeps the invariant, the classes and the limit. -/
theorem Moves.continues {o : Operation} {served : Option (Buffer × Nat)} (hm : Moves p o served q)
    (h : p.WellFormed) : Continues p q := by
  cases hm with
  | @hit _ size i cls rest ho hfit hcls hfree =>
    have hrest : ∀ b ∈ rest, b = Buffer.empty cls :=
      fun b hb => h.filed hcls hfree b (List.mem_cons_of_mem _ hb)
    refine h.refile hcls hrest (fun n hn => ?_) rfl rfl rfl
    have := h.within n hn _ (List.mem_of_getElem? hfree)
    exact Nat.le_trans (Nat.le_succ _) this
  -- Only counters change where no free list does, and the invariant says nothing of them.
  | miss => exact ⟨⟨h.valid, h.paired, h.filed, h.within⟩, rfl, rfl⟩
  | @keep _ b i free ho hcls hfree hroom hkeep =>
    refine h.refile hcls ?_ (fun n hn => ?_) rfl rfl rfl
    · intro b' hb'
      rcases List.mem_cons.1 hb' with rfl | hb'
      · rfl
      · exact h.filed hcls hfree b' hb'
    · -- The free list is kept below the limit before the buffer is added, not after.
      have : free.length < n.toNat := by simpa [isFull, hn] using hroom
      exact this
  | refuse => exact ⟨⟨h.valid, h.paired, h.filed, h.within⟩, rfl, rfl⟩
  | detach => exact .refl h

/-- **A run keeps the invariant.** It does not fault, and each of its operations was a move of the
    well-formed pool before it. -/
theorem run_continues (h : p.WellFormed) (ops : List Operation) :
    ∃ moments q, p.run ops = .ok (moments, q) ∧ Continues p q ∧
      ∀ m ∈ moments, Continues p m.before ∧ ∃ next, Moves m.before m.operation m.served next := by
  induction ops generalizing p with
  | nil => exact ⟨[], p, rfl, .refl h, by simp⟩
  | cons o rest ih =>
    obtain ⟨served, next, ho, hmove⟩ := perform_moves h o
    have hnext : Continues p next := hmove.continues h
    obtain ⟨moments, q, hrun, hq, hmoments⟩ := ih hnext.wellFormed
    refine ⟨_, q, run_cons ho hrun, hnext.trans hq, ?_⟩
    intro m hm
    rcases List.mem_cons.1 hm with rfl | hm
    · exact ⟨.refl h, next, hmove⟩
    · obtain ⟨hbefore, hmoved⟩ := hmoments m hm
      exact ⟨hnext.trans hbefore, hmoved⟩

/-- **Free lists after a run.** A run with any buffers coming back leads to one free list for each
    class, which holds empty buffers of exactly that class. All that was served during the run, and
    all that is served after it, are empty buffers of the class reported beside them. -/
theorem freeLists_of_run {c : Config} (h : ofConfig c = .ok (.ok p)) (ops : List Operation) :
    ∃ moments q, p.run ops = .ok (moments, q) ∧ q.classes = p.classes ∧
      q.classes.count = .ok q.idle.length ∧ q.idle.length = q.classes.toList.length ∧
      (∀ (i cls : Nat) (free : List Buffer), q.classes.toList[i]? = some cls →
        q.idle[i]? = some free → ∀ b ∈ free, b.bytes = [] ∧ b.capacity = cls) ∧
      (∀ m ∈ moments, ∀ b cls, m.served = some (b, cls) → b.bytes = [] ∧ b.capacity = cls) ∧
      ∀ size, ∃ b cls next, q.get size = .ok ((b, cls), next) ∧ cls ∈ q.classes.toList ∧
        b.bytes = [] ∧ b.capacity = cls := by
  obtain ⟨moments, q, hrun, hq, hmoments⟩ := run_continues (wellFormed_of_ofConfig h) ops
  have hwf : q.WellFormed := hq.wellFormed
  refine ⟨moments, q, hrun, hq.classes, ?_, hwf.paired, ?_, ?_, ?_⟩
  · rw [ClassRange.count_eq hwf.valid, hwf.paired]
  · intro i cls free hcls hfree b hb
    rw [hwf.filed hcls hfree b hb]
    exact ⟨rfl, rfl⟩
  · intro m hm b cls hserved
    obtain ⟨-, next, hmove⟩ := hmoments m hm
    -- What was idle before the move cannot be told from a new buffer.
    rw [hserved] at hmove
    rw [hmove.eq_empty]
    exact ⟨rfl, rfl⟩
  · intro size
    obtain ⟨i, cls, next, -, hcls, hget, -⟩ := get_moves hwf size
    exact ⟨_, cls, next, hget, List.mem_of_getElem? hcls, rfl, rfl⟩

/-- Of two buffers of a class that keeps one, one is kept, and a buffer of no class is not. The one
    kept is handed out again, and a guard of that class comes back as a buffer of another. -/
theorem freeLists_of_mixed_returns :
    ofConfig ⟨3, 100, some 1⟩ = .ok (.ok (unused ⟨2, 6⟩ (some 1))) ∧
      ∃ moments q, (unused ⟨2, 6⟩ (some 1)).run
          [.put (.ofBytes 16 [1, 2]), .release ⟨4, .ofBytes 16 [3]⟩, .put (.empty 24), .take 9,
            .release ⟨16, .ofBytes 8 [4]⟩] = .ok (moments, q) ∧
        q.idle.length = q.classes.toList.length ∧ q.classes.toList = [4, 8, 16, 32, 64] ∧
        q.idle = [[], [Buffer.empty 8], [], [], []] ∧
        moments.map (·.served) = [none, none, none, some (Buffer.empty 16, 16), none] ∧
        (∀ (i cls : Nat) (free : List Buffer), q.classes.toList[i]? = some cls →
          q.idle[i]? = some free → ∀ b ∈ free, b.bytes = [] ∧ b.capacity = cls) ∧
        (∀ m ∈ moments, ∀ b cls, m.served = some (b, cls) → b.bytes = [] ∧ b.capacity = cls) ∧
        ∀ size, ∃ b cls next, q.get size = .ok ((b, cls), next) ∧ cls ∈ q.classes.toList ∧
          b.bytes = [] ∧ b.capacity = cls := by
  have h : ofConfig ⟨3, 100, some 1⟩ = .ok (.ok (unused ⟨2, 6⟩ (some 1))) := by decide
  have hlists : ((unused ⟨2, 6⟩ (some 1)).run
      [.put (.ofBytes 16 [1, 2]), .release ⟨4, .ofBytes 16 [3]⟩, .put (.empty 24), .take 9,
        .release ⟨16, .ofBytes 8 [4]⟩]).map (fun r =>
          (r.2.classes.toList, r.2.idle, r.1.map (·.served))) =
      .ok ([4, 8, 16, 32, 64], [[], [Buffer.empty 8], [], [], []],
        [none, none, none, some (Buffer.empty 16, 16), none]) := by
    decide
  obtain ⟨moments, q, hrun, -, -, hlen, hfiled, hserved, hget⟩ := freeLists_of_run h
    [.put (.ofBytes 16 [1, 2]), .release ⟨4, .ofBytes 16 [3]⟩, .put (.empty 24), .take 9,
      .release ⟨16, .ofBytes 8 [4]⟩]
  rw [hrun] at hlists
  have hlists := Except.ok.inj hlists
  simp only [Prod.mk.injEq] at hlists
  obtain ⟨hclasses, hidle, hhanded⟩ := hlists
  exact ⟨h, moments, q, hrun, hlen, hclasses, hidle, hhanded, hfiled, hserved, hget⟩

end WireBytes.Pool
