import Mathlib
import WireBytes.Proofs.Pool.Operation
import WireBytes.Proofs.Pool.WellFormed

/-!
# What an operation does to a pool

* `Pool.Moves` — all that an operation can do to a well-formed pool, one case for each branch;
* `Pool.get_moves` and `Pool.put_moves` say so of a request and of a buffer that comes back;
* `Pool.perform_moves` — every operation is a move, and none faults.
-/

namespace WireBytes.Pool

variable {p q : Pool}

/-- What an operation can do to a pool. -/
inductive Moves (p : Pool) : Operation → Option (Buffer × Nat) → Pool → Prop
  /-- An idle buffer is handed out. -/
  | hit {o : Operation} {size i cls : Nat} {rest : List Buffer} (ho : o.requested? = some size)
      (hfit : p.classes.fit size = .ok (i, cls)) (hcls : p.classes.toList[i]? = some cls)
      (hfree : p.idle[i]? = some (Buffer.empty cls :: rest)) :
      Moves p o (some (Buffer.empty cls, cls))
        { p with idle := p.idle.set i rest, hits := p.hits + 1 }
  /-- A new buffer is handed out. -/
  | miss {o : Operation} {size i cls : Nat} (ho : o.requested? = some size)
      (hfit : p.classes.fit size = .ok (i, cls)) (hcls : p.classes.toList[i]? = some cls)
      (hfree : p.idle[i]? = some []) :
      Moves p o (some (Buffer.empty cls, cls)) { p with misses := p.misses + 1 }
  /-- A buffer is emptied and kept. -/
  | keep {o : Operation} {b : Buffer} {i : Nat} {free : List Buffer}
      (ho : o.returned? = some b) (hcls : p.classes.toList[i]? = some b.capacity)
      (hfree : p.idle[i]? = some free) (hroom : p.isFull free = false)
      (hkeep : p.refuses b = false) :
      Moves p o none
        { p with idle := p.idle.set i (Buffer.empty b.capacity :: free), returns := p.returns + 1 }
  /-- A buffer is given up. -/
  | refuse {o : Operation} {b : Buffer} (ho : o.returned? = some b) (hrefuse : p.refuses b = true) :
      Moves p o none { p with drops := p.drops + 1 }
  /-- The pool has no part in it. -/
  | detach (g : Guard) : Moves p (.detach g) none p

/-- What is served is as good as a new buffer of the class reported beside it. -/
theorem Moves.eq_empty {o : Operation} {b : Buffer} {cls : Nat} (hm : Moves p o (some (b, cls)) q) :
    b = Buffer.empty cls := by
  cases hm <;> rfl

/-! ### Requests -/

/-- A request takes the first buffer of the free list of its class. -/
theorem get_of_idle {size i cls : Nat} {b : Buffer} {rest : List Buffer}
    (hfit : p.classes.fit size = .ok (i, cls)) (hfree : p.idle[i]? = some (b :: rest)) :
    p.get size = .ok ((b, cls), { p with idle := p.idle.set i rest, hits := p.hits + 1 }) := by
  simp only [get, hfit, Word.fetch, hfree, bind, Except.bind]
  rfl

/-- A request makes a buffer where the free list of its class is empty. -/
theorem get_of_none_idle {size i cls : Nat} (hfit : p.classes.fit size = .ok (i, cls))
    (hfree : p.idle[i]? = some []) :
    p.get size = .ok ((Buffer.empty cls, cls), { p with misses := p.misses + 1 }) := by
  simp only [get, hfit, Word.fetch, hfree, bind, Except.bind]
  rfl

/-- A request is served with a buffer that is as good as a new one of the class that fits. -/
theorem get_moves (h : p.WellFormed) (size : Nat) :
    ∃ i cls q, p.classes.fit size = .ok (i, cls) ∧ p.classes.toList[i]? = some cls ∧
      p.get size = .ok ((Buffer.empty cls, cls), q) ∧
      ∀ o : Operation, o.requested? = some size → Moves p o (some (Buffer.empty cls, cls)) q := by
  obtain ⟨i, cls, hfit, hcls⟩ := ClassRange.exists_fit h.valid size
  obtain ⟨free, hfree⟩ := h.exists_free hcls
  cases free with
  | nil =>
    exact ⟨i, cls, _, hfit, hcls, get_of_none_idle hfit hfree,
      fun o ho => .miss ho hfit hcls hfree⟩
  | cons b rest =>
    obtain rfl : b = Buffer.empty cls := h.filed hcls hfree b List.mem_cons_self
    exact ⟨i, cls, _, hfit, hcls, get_of_idle hfit hfree, fun o ho => .hit ho hfit hcls hfree⟩

/-! ### Buffers that come back -/

/-- A buffer of no class is refused. -/
theorem refuses_of_notMem {b : Buffer} (hb : b.capacity ∉ p.classes.toList) :
    p.refuses b = true := by
  simp [refuses, hb]

/-- A buffer of a class is refused exactly if the free list of the class is full. -/
theorem refuses_of_class {b : Buffer} {i : Nat} {free : List Buffer}
    (hcls : p.classes.toList[i]? = some b.capacity) (hfree : p.idle[i]? = some free) :
    p.refuses b = p.isFull free := by
  have hmem : b.capacity ∈ p.classes.toList := List.mem_of_getElem? hcls
  unfold refuses isFull
  rw [retained_of_class hcls hfree]
  cases p.limit <;> simp [hmem, Except.toOption]

/-- A buffer with a class is kept in front of the free list, unless that is full. -/
theorem put_of_class {b : Buffer} {i : Nat} {free : List Buffer}
    (hcls : p.classes.toList[i]? = some b.capacity) (hfree : p.idle[i]? = some free) :
    p.put b = .ok (if p.isFull free then { p with drops := p.drops + 1 }
      else { p with
        idle := p.idle.set i (Buffer.empty b.capacity :: free), returns := p.returns + 1 }) := by
  simp only [put, ClassRange.idxOf?_eq, ClassRange.idxOf?_toList hcls, Word.fetch, hfree, bind,
    Except.bind]
  split <;> rfl

/-- A buffer without a class is counted and given up. -/
theorem put_of_notMem {b : Buffer} (hb : b.capacity ∉ p.classes.toList) :
    p.put b = .ok { p with drops := p.drops + 1 } := by
  simp only [put, ClassRange.idxOf?_eq, List.idxOf?_eq_none_iff.2 hb, bind, Except.bind]
  rfl

/-- A buffer that comes back is kept or given up. -/
theorem put_moves (h : p.WellFormed) (b : Buffer) :
    ∃ q, p.put b = .ok q ∧
      ∀ o : Operation, o.returned? = some b → Moves p o none q := by
  by_cases hb : b.capacity ∈ p.classes.toList
  · obtain ⟨i, hcls⟩ := List.mem_iff_getElem?.1 hb
    obtain ⟨free, hfree⟩ := h.exists_free hcls
    have hput := put_of_class hcls hfree
    have hrefuses := refuses_of_class hcls hfree
    cases hfull : p.isFull free with
    | true =>
      rw [hfull, if_pos rfl] at hput
      exact ⟨_, hput, fun o ho => .refuse ho (hrefuses.trans hfull)⟩
    | false =>
      rw [hfull, if_neg Bool.false_ne_true] at hput
      exact ⟨_, hput, fun o ho => .keep ho hcls hfree hfull (hrefuses.trans hfull)⟩
  · exact ⟨_, put_of_notMem hb, fun o ho => .refuse ho (refuses_of_notMem hb)⟩

/-! ### Operations -/

/-- **No operation faults.** Whatever buffer comes back, a well-formed pool takes the operation, and
    it is one of the moves. -/
theorem perform_moves (h : p.WellFormed) (o : Operation) :
    ∃ served q, p.perform o = .ok (served, q) ∧ Moves p o served q := by
  cases o with
  | get size =>
    obtain ⟨i, cls, q, -, -, hget, hmove⟩ := get_moves h size
    exact ⟨_, q, by rw [perform, hget]; rfl, hmove _ rfl⟩
  | take size =>
    obtain ⟨i, cls, q, -, -, hget, hmove⟩ := get_moves h size
    exact ⟨_, q, by rw [perform, take, hget]; rfl, hmove _ rfl⟩
  | put b =>
    obtain ⟨q, hput, hmove⟩ := put_moves h b
    exact ⟨none, q, by rw [perform, hput]; rfl, hmove _ rfl⟩
  | release g =>
    obtain ⟨q, hput, hmove⟩ := put_moves h g.buffer
    exact ⟨none, q, by rw [perform, release, hput]; rfl, hmove _ rfl⟩
  | detach g => exact ⟨none, p, rfl, .detach g⟩

end WireBytes.Pool
