import Mathlib
import WireBytes.Pool.Client
import WireBytes.Proofs.Pool.FreeLists

/-!
# Reuse cannot be observed

A client cannot tell how many idle buffers a pool keeps. Two clients that take the same steps on two
pools of the same classes get the same answers and hold the same, although the free lists of the
pools differ: whatever has happened, both pools serve a request with a buffer as good as a new one.

* `Client.withPool` — the same client at another pool;
* `Client.step_withPool` and `Client.run_withPool` — a step, and a run, at two pools;
* `Client.run_of_limits` — the runs of one script at the pools of one pair of bounds and two limits.
-/

namespace WireBytes.Pool

variable {p q : Pool}

/-! ### Two pools of the same classes -/

/-- Two pools of the same classes serve a request alike. -/
theorem get_alike (hp : p.WellFormed) (hq : q.WellFormed) (hclasses : q.classes = p.classes)
    (size : Nat) :
    ∃ cls p' q', p.get size = .ok ((Buffer.empty cls, cls), p') ∧
      q.get size = .ok ((Buffer.empty cls, cls), q') ∧ Continues p p' ∧ Continues q q' := by
  obtain ⟨i, cls, p', hfit, -, hget, hmove⟩ := get_moves hp size
  obtain ⟨j, cls', q', hfit', -, hget', hmove'⟩ := get_moves hq size
  rw [hclasses, hfit] at hfit'
  obtain ⟨rfl, rfl⟩ : i = j ∧ cls = cls' := by simpa using hfit'
  exact ⟨cls, p', q', hget, hget', (hmove (.get size) rfl).continues hp,
    (hmove' (.get size) rfl).continues hq⟩

/-- Putting back any buffer keeps the invariant. -/
theorem put_continues (h : p.WellFormed) (b : Buffer) :
    ∃ q, p.put b = .ok q ∧ Continues p q := by
  obtain ⟨q, hput, hmove⟩ := put_moves h b
  exact ⟨q, hput, (hmove (.put b) rfl).continues h⟩

/-- A pool that keeps nothing has nothing to hand out, and a request is a miss. -/
theorem get_of_limit_zero (h : p.WellFormed) (hlimit : p.limit = some 0) (size : Nat) :
    ∃ cls, p.get size = .ok ((Buffer.empty cls, cls), { p with misses := p.misses + 1 }) := by
  obtain ⟨i, cls, hfit, hcls⟩ := ClassRange.exists_fit h.valid size
  obtain ⟨free, hfree⟩ := h.exists_free hcls
  -- No free list is longer than the limit, so this one is empty.
  have hlen : free.length ≤ 0 := h.within 0 hlimit free (List.mem_of_getElem? hfree)
  obtain rfl : free = [] := List.length_eq_zero_iff.1 (Nat.le_zero.1 hlen)
  exact ⟨cls, get_of_none_idle hfit hfree⟩

namespace Client

variable {c : Client}

/-- The same client at another pool. -/
def withPool (c : Client) (q : Pool) : Client :=
  { c with pool := q }

/-- So does letting go of what is held, under a guard or not. -/
theorem letGo_continues (h : p.WellFormed) (x : Holding) :
    ∃ q, letGo p x = .ok q ∧ Continues p q := by
  cases x with
  | plain b => exact ⟨p, rfl, .refl h⟩
  | guarded g => exact put_continues h g.buffer

/-- An edit does not concern the pool. -/
theorem edit_withPool (c : Client) (q : Pool) (slot : Nat) (x : Holding) (e : Edit) :
    (c.withPool q).edit slot x e = ((c.edit slot x e).1, (c.edit slot x e).2.withPool q) ∧
      (c.edit slot x e).2.pool = c.pool := by
  have hdivided : (c.withPool q).divided = c.divided := rfl
  unfold edit
  rw [hdivided]
  by_cases hg : (c.divided && e.grows x.buffer) = true
  · rw [if_pos hg, if_pos hg]
    exact ⟨rfl, rfl⟩
  · rw [if_neg hg, if_neg hg]
    cases x.buffer.edit? e with
    | none => exact ⟨rfl, rfl⟩
    | some result =>
      obtain ⟨b, part⟩ := result
      cases part <;> exact ⟨rfl, rfl⟩

/-- Two results that a client cannot tell apart, at later states of two pools: the answers are the
    same, and so is the client but for its pool. -/
def Alike {α : Type} (p q : Pool) (r r' : Checked (α × Client)) : Prop :=
  ∃ answer next q', r = .ok (answer, next) ∧ r' = .ok (answer, next.withPool q') ∧
    Continues p next.pool ∧ Continues q q'

/-- An answer that leaves both pools as they are. -/
theorem Alike.same_pools {α : Type} {next : Client} (hp : next.pool.WellFormed) (hq : q.WellFormed)
    (answer : α) :
    Alike next.pool q (.ok (answer, next)) (.ok (answer, next.withPool q)) :=
  ⟨answer, next, q, rfl, rfl, .refl hp, .refl hq⟩

/-- An empty slot is refused at both pools. -/
theorem Alike.stepAt {act act' : Holding → Checked (Answer × Client)} (hp : c.pool.WellFormed)
    (hq : q.WellFormed) (h : ∀ x, Alike c.pool q (act x) (act' x)) (slot : Nat) :
    Alike c.pool q (c.stepAt slot act) ((c.withPool q).stepAt slot act') := by
  have hslot : (c.withPool q).holding? slot = c.holding? slot := rfl
  unfold Client.stepAt
  rw [hslot]
  cases c.holding? slot with
  | none => exact .same_pools hp hq _
  | some x => exact h x

/-- What a slot holds goes back to both pools, whatever becomes of it there. -/
theorem Alike.returning {f : Pool → Checked Pool}
    (hp : ∃ p', f c.pool = .ok p' ∧ Continues c.pool p')
    (hq : ∃ q', f q = .ok q' ∧ Continues q q') (slot : Nat) :
    Alike c.pool q (do return (Answer.done, { c with pool := ← f c.pool }.replace slot none))
      (do return (Answer.done, { c.withPool q with pool := ← f q }.replace slot none)) := by
  obtain ⟨p', hf, hp'⟩ := hp
  obtain ⟨q', hf', hq'⟩ := hq
  rw [hf, hf']
  exact ⟨.done, (c.withPool p').replace slot none, q', rfl, rfl, hp', hq'⟩

/-- **One step at two pools.** The answer and what the client holds do not depend on the pool. -/
theorem step_withPool (hp : c.pool.WellFormed) (hq : q.WellFormed)
    (hclasses : q.classes = c.pool.classes) (s : Step) :
    Alike c.pool q (c.step s) ((c.withPool q).step s) := by
  -- A request gets a buffer of the same class at both pools, and no other step looks at the pool.
  cases s with
  | get size =>
    obtain ⟨cls, p', q', hget, hget', hp', hq'⟩ := get_alike hp hq hclasses size
    refine ⟨.served c.held.length cls cls 0, (c.withPool p').hold (.plain (Buffer.empty cls)), q',
      ?_, ?_, hp', hq'⟩
    · rw [step, hget]
      rfl
    · show (q.get size >>= _) = _
      rw [hget']
      rfl
  | take size =>
    obtain ⟨cls, p', q', hget, hget', hp', hq'⟩ := get_alike hp hq hclasses size
    refine ⟨.served c.held.length cls cls 0,
      (c.withPool p').hold (.guarded ⟨cls, Buffer.empty cls⟩), q', ?_, ?_, hp', hq'⟩
    · rw [step, take, hget]
      rfl
    · show (q.take size >>= _) = _
      rw [take, hget']
      rfl
  | alloc capacity => exact ⟨_, _, q, rfl, rfl, .refl hp, .refl hq⟩
  | put slot =>
    refine .stepAt hp hq (fun x => ?_) slot
    cases x with
    | guarded g => exact .same_pools hp hq _
    | plain b =>
      exact .returning (f := (Pool.put · b)) (put_continues hp b) (put_continues hq b) slot
  | drop slot =>
    refine .stepAt hp hq (fun x => ?_) slot
    exact .returning (f := (letGo · x)) (letGo_continues hp x) (letGo_continues hq x) slot
  | detach slot =>
    refine .stepAt hp hq (fun x => ?_) slot
    cases x with
    | guarded g => exact ⟨_, _, q, rfl, rfl, .refl hp, .refl hq⟩
    | plain b => exact .same_pools hp hq _
  | edit slot e =>
    refine .stepAt hp hq (fun x => ?_) slot
    obtain ⟨hedit, hsame⟩ := edit_withPool c q slot x e
    refine ⟨(c.edit slot x e).1, (c.edit slot x e).2, q, rfl, ?_, ?_, .refl hq⟩
    · rw [hedit]
      rfl
    · rw [hsame]
      exact .refl hp

/-- A run begins with its first step, and goes on from the client that it leads to. -/
theorem run_cons {s : Step} {a : Answer} {next last : Client} {steps : List Step}
    {answers : List Answer} (hstep : c.step s = .ok (a, next))
    (hrest : next.run steps = .ok (answers, last)) :
    c.run (s :: steps) = .ok (a :: answers, last) := by
  rw [run, hstep]
  show (next.run steps >>= _) = _
  rw [hrest]
  rfl

/-- **A run at two pools.** All answers and what the client holds do not depend on the pool. -/
theorem run_withPool (hp : c.pool.WellFormed) (hq : q.WellFormed)
    (hclasses : q.classes = c.pool.classes) (steps : List Step) :
    Alike c.pool q (c.run steps) ((c.withPool q).run steps) := by
  -- Both pools change with every step; that they have the same classes is what carries over.
  induction steps generalizing c q with
  | nil => exact .same_pools hp hq []
  | cons s rest ih =>
    obtain ⟨answer, next, q₁, hstep, hstep', hp₁, hq₁⟩ := step_withPool hp hq hclasses s
    have hclasses₁ : q₁.classes = next.pool.classes := by
      rw [hq₁.classes, hp₁.classes, hclasses]
    obtain ⟨answers, last, q₂, hrun, hrun', hp₂, hq₂⟩ :=
      ih hp₁.wellFormed hq₁.wellFormed hclasses₁
    exact ⟨answer :: answers, last, q₂, run_cons hstep hrun, run_cons hstep' hrun',
      hp₁.trans hp₂, hq₁.trans hq₂⟩

/-- **The limit cannot be observed.** A pair of bounds is accepted with every limit or with none.
    The runs of a script at the pools of two limits give the same answers, and the client holds the
    same after them; since every part of a script from its beginning is a script, this is so after
    every step. The next request is then served by both pools with the same buffer, which is as good
    as a new one: at a pool that keeps nothing it is in fact allocated. -/
theorem run_of_limits {lower upper : UInt64} {limit : Option UInt64}
    (h : ofConfig ⟨lower, upper, limit⟩ = .ok (.ok p)) (limit' : Option UInt64) :
    ∃ q, ofConfig ⟨lower, upper, limit'⟩ = .ok (.ok q) ∧
      ∀ steps, ∃ answers c d,
        (ofPool p).run steps = .ok (answers, c) ∧ (ofPool q).run steps = .ok (answers, d) ∧
        c.held = d.held ∧ c.divided = d.divided ∧
        ∀ size, ∃ cls p' q',
          c.pool.get size = .ok ((Buffer.empty cls, cls), p') ∧
          d.pool.get size = .ok ((Buffer.empty cls, cls), q') ∧
          (limit' = some 0 → q' = { d.pool with misses := d.pool.misses + 1 }) := by
  obtain ⟨hvalid, r, hr, rfl⟩ := ofConfig_eq_ok_iff.1 h
  have h' : ofConfig ⟨lower, upper, limit'⟩ = .ok (.ok (unused r limit')) :=
    ofConfig_eq_ok_iff.2 ⟨hvalid, r, hr, rfl⟩
  refine ⟨unused r limit', h', fun steps => ?_⟩
  obtain ⟨answers, c, q, hrun, hrun', hp, hq⟩ :=
    run_withPool (c := ofPool (unused r limit)) (wellFormed_of_ofConfig h)
      (wellFormed_of_ofConfig h') rfl steps
  refine ⟨answers, c, c.withPool q, hrun, hrun', rfl, rfl, fun size => ?_⟩
  have hclasses : q.classes = c.pool.classes := hq.classes.trans hp.classes.symm
  obtain ⟨cls, p', q', hget, hget', -, -⟩ :=
    get_alike hp.wellFormed hq.wellFormed hclasses size
  refine ⟨cls, p', q', hget, hget', fun hzero => ?_⟩
  obtain ⟨cls', hmiss⟩ := get_of_limit_zero hq.wellFormed (hq.limit.trans hzero) size
  rw [hget'] at hmiss
  exact (Prod.mk.inj (Except.ok.inj hmiss)).2

/-- A buffer that was written to, returned and taken again under a guard, without a limit and at a
    pool that keeps nothing. -/
theorem run_of_limits_none_zero :
    let steps : List Step :=
      [.get 9, .edit 0 (.extend [1, 2]), .put 0, .take 9, .edit 1 (.splitOff 4), .drop 1, .get 3]
    let p := unused ⟨2, 6⟩ none
    let q := unused ⟨2, 6⟩ (some 0)
    ofConfig ⟨3, 100, none⟩ = .ok (.ok p) ∧ ofConfig ⟨3, 100, some 0⟩ = .ok (.ok q) ∧
      ∃ answers c d, (ofPool p).run steps = .ok (answers, c) ∧
        (ofPool q).run steps = .ok (answers, d) ∧ c.held = d.held ∧
        c.pool.hits = 2 ∧ d.pool.hits = 0 := by
  intro steps p q
  have hp : ofConfig ⟨3, 100, none⟩ = .ok (.ok p) := by decide
  obtain ⟨q', hq', hruns⟩ := run_of_limits hp (some 0)
  have hq : ofConfig ⟨3, 100, some 0⟩ = .ok (.ok q) := by decide
  obtain rfl : q = q' := by simpa [hq] using hq'
  obtain ⟨answers, c, d, hrun, hrun', hheld, -, -⟩ := hruns steps
  refine ⟨hp, hq, answers, c, d, hrun, hrun', hheld, ?_, ?_⟩
  · have hhits : ((ofPool p).run steps).map (fun r => r.2.pool.hits) = .ok 2 := by decide
    rw [hrun] at hhits
    exact Except.ok.inj hhits
  · have hhits : ((ofPool q).run steps).map (fun r => r.2.pool.hits) = .ok 0 := by decide
    rw [hrun'] at hhits
    exact Except.ok.inj hhits

end Client

end WireBytes.Pool
