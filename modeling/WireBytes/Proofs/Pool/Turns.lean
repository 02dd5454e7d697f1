import Mathlib
import WireBytes.Proofs.Pool.Transparency

/-!
# The turns of a client

What a step can do to a client, said once, and the runs of a client as the list of their turns.

* `Client.refusal?` — why a step is refused, which depends on what is held and not on the pool;
* `Client.Does` — all that a step can do, one case for each branch;
* `Client.does_of_step` and `Client.exists_step` — every step does one of these, and none faults;
* `Client.turns` — a run with the client before and after each step; `Client.Leads` — turns that
  follow one another.
-/

namespace WireBytes.Pool

/-- A chain of two checked steps succeeds if both of them do. -/
theorem bind_eq_ok {α β : Type} {x : Checked α} {f : α → Checked β} {b : β} :
    (x >>= f) = .ok b ↔ ∃ a, x = .ok a ∧ f a = .ok b := by
  cases x <;> simp [bind, Except.bind]

namespace Client

variable {c d : Client} {slot : Nat} {s : Step} {a : Answer}

/-! ### What slots hold -/

/-- Only the slots that were given out hold something. -/
theorem lt_length_of_holding? {x : Holding} (h : c.holding? slot = some x) :
    slot < c.held.length := by
  unfold holding? at h
  by_contra hge
  rw [List.getElem?_eq_none (Nat.le_of_not_lt hge)] at h
  cases h

/-- A new holding gets a slot behind all others. -/
theorem holding?_hold (c : Client) (x : Holding) (slot : Nat) :
    (c.hold x).holding? slot = if slot = c.held.length then some x else c.holding? slot := by
  unfold holding? hold
  rcases Nat.lt_trichotomy slot c.held.length with hlt | rfl | hgt
  · rw [List.getElem?_append_left hlt, if_neg (Nat.ne_of_lt hlt)]
  · rw [List.getElem?_concat_length, if_pos rfl]
    rfl
  · have hnew : (c.held ++ [some x])[slot]? = none := by
      rw [List.getElem?_eq_none_iff, List.length_append, List.length_singleton]
      exact hgt
    rw [if_neg (Nat.ne_of_gt hgt), hnew, List.getElem?_eq_none hgt.le]

/-- Only the slot in question holds something else. -/
theorem holding?_replace {i : Nat} (hi : i < c.held.length) (x : Option Holding) (slot : Nat) :
    (c.replace i x).holding? slot = if slot = i then x else c.holding? slot := by
  unfold holding? replace
  by_cases heq : slot = i
  · subst heq
    simp [hi]
  · rw [if_neg heq, List.getElem?_set_ne (Ne.symm heq)]

/-! ### What a step does -/

/-- Why a step is refused, if it is. -/
def refusal? (c : Client) : Step → Option Refusal
  | .get _ | .take _ | .alloc _ => none
  | .put slot =>
    match c.holding? slot with
    | none => some .noBuffer
    | some (.guarded _) => some .isGuard
    | some (.plain _) => none
  | .drop slot =>
    match c.holding? slot with
    | none => some .noBuffer
    | some _ => none
  | .detach slot =>
    match c.holding? slot with
    | none => some .noBuffer
    | some (.guarded _) => none
    | some (.plain _) => some .notGuard
  | .edit slot e =>
    match c.holding? slot with
    | none => some .noBuffer
    | some x =>
      if c.divided && e.grows x.buffer then some .growthAfterSplit
      else
        match x.buffer.edit? e with
        | none => some .outOfRange
        | some _ => none

/-- The client after an edit of what a slot holds, apart from a buffer that is split off. -/
def revise (c : Client) (slot : Nat) (x : Holding) (e : Edit) (b : Buffer) : Client :=
  { c.replace slot (some (x.withBuffer b)) with divided := c.divided || e.divides }

/-- What a step can do to a client. -/
inductive Does (c : Client) : Step → Answer → Client → Prop
  | refused {s : Step} {r : Refusal} (h : c.refusal? s = some r) : Does c s (.refused r) c
  | got {size cls : Nat} {b : Buffer} {q : Pool} (h : c.pool.get size = .ok ((b, cls), q)) :
      Does c (.get size) (.served c.held.length cls b.capacity b.length)
        ((c.withPool q).hold (.plain b))
  | took {size cls : Nat} {b : Buffer} {q : Pool} (h : c.pool.get size = .ok ((b, cls), q)) :
      Does c (.take size) (.served c.held.length cls b.capacity b.length)
        ((c.withPool q).hold (.guarded ⟨cls, b⟩))
  | allocated (capacity : Nat) :
      Does c (.alloc capacity) (.allocated c.held.length capacity 0)
        (c.hold (.plain (Buffer.empty capacity)))
  /-- A plain buffer is returned by hand. -/
  | returned {slot : Nat} {b : Buffer} {q : Pool} (hslot : c.holding? slot = some (.plain b))
      (h : c.pool.put b = .ok q) : Does c (.put slot) .done ((c.withPool q).replace slot none)
  /-- A plain buffer is let go of, which does not concern the pool. -/
  | dropped {slot : Nat} {b : Buffer} (hslot : c.holding? slot = some (.plain b)) :
      Does c (.drop slot) .done (c.replace slot none)
  /-- A guard is let go of and returns its buffer. -/
  | released {slot : Nat} {g : Guard} {q : Pool} (hslot : c.holding? slot = some (.guarded g))
      (h : c.pool.put g.buffer = .ok q) :
      Does c (.drop slot) .done ((c.withPool q).replace slot none)
  | detached {slot : Nat} {g : Guard} (hslot : c.holding? slot = some (.guarded g)) :
      Does c (.detach slot) .done (c.replace slot (some (.plain g.buffer)))
  | edited {slot : Nat} {x : Holding} {e : Edit} {b : Buffer} (hslot : c.holding? slot = some x)
      (hgrows : (c.divided && e.grows x.buffer) = false)
      (h : x.buffer.edit? e = some (b, none)) :
      Does c (.edit slot e) (.edited b) (c.revise slot x e b)
  | divided {slot : Nat} {x : Holding} {e : Edit} {b part : Buffer}
      (hslot : c.holding? slot = some x) (hgrows : (c.divided && e.grows x.buffer) = false)
      (h : x.buffer.edit? e = some (b, some part)) :
      Does c (.edit slot e) (.divided b c.held.length part)
        ((c.revise slot x e b).hold (.plain part))

/-- What is done on what a slot holds, or the refusal where it holds nothing. -/
theorem stepAt_eq_ok {act : Holding → Checked (Answer × Client)}
    (h : c.stepAt slot act = .ok (a, d)) :
    (c.holding? slot = none ∧ a = .refused .noBuffer ∧ d = c) ∨
      ∃ x, c.holding? slot = some x ∧ act x = .ok (a, d) := by
  unfold stepAt at h
  cases hslot : c.holding? slot with
  | none =>
    rw [hslot] at h
    obtain ⟨rfl, rfl⟩ : Answer.refused .noBuffer = a ∧ c = d := by simpa [pure, Except.pure] using h
    exact .inl ⟨rfl, rfl, rfl⟩
  | some x =>
    rw [hslot] at h
    exact .inr ⟨x, rfl, h⟩

/-- An edit is refused, or it changes the buffer, or it divides it as well. -/
theorem does_of_edit {x : Holding} {e : Edit} (hslot : c.holding? slot = some x)
    (h : c.edit slot x e = (a, d)) : Does c (.edit slot e) a d := by
  -- Growth after a division is refused before the offsets are looked at.
  unfold edit at h
  cases hgrows : c.divided && e.grows x.buffer with
  | true =>
    rw [hgrows, if_pos rfl] at h
    obtain ⟨rfl, rfl⟩ := Prod.mk.inj h
    exact .refused (by simp [refusal?, hslot, hgrows])
  | false =>
    rw [hgrows, if_neg Bool.false_ne_true] at h
    cases hresult : x.buffer.edit? e with
    | none =>
      rw [hresult] at h
      obtain ⟨rfl, rfl⟩ := Prod.mk.inj h
      exact .refused (by simp [refusal?, hslot, hgrows, hresult])
    | some result =>
      obtain ⟨b, part⟩ := result
      rw [hresult] at h
      cases part with
      | none =>
        obtain ⟨rfl, rfl⟩ := Prod.mk.inj h
        exact .edited hslot hgrows hresult
      | some part =>
        obtain ⟨rfl, rfl⟩ := Prod.mk.inj h
        exact .divided hslot hgrows hresult

/-- **What a step does.** -/
theorem does_of_step (h : c.step s = .ok (a, d)) : Does c s a d := by
  -- A step that faults has no answer, so that each bind below has a first result.
  cases s with
  | get size =>
    obtain ⟨⟨⟨b, cls⟩, q⟩, hget, hdone⟩ := bind_eq_ok.1 h
    obtain ⟨rfl, rfl⟩ := Prod.mk.inj (Except.ok.inj hdone)
    exact .got hget
  | take size =>
    obtain ⟨⟨g, q⟩, htake, hdone⟩ := bind_eq_ok.1 h
    obtain ⟨⟨⟨b, cls⟩, q'⟩, hget, hwrap⟩ := bind_eq_ok.1 htake
    obtain ⟨rfl, rfl⟩ := Prod.mk.inj (Except.ok.inj hwrap)
    obtain ⟨rfl, rfl⟩ := Prod.mk.inj (Except.ok.inj hdone)
    exact .took hget
  | alloc capacity =>
    obtain ⟨rfl, rfl⟩ := Prod.mk.inj (Except.ok.inj h)
    exact .allocated capacity
  | put slot =>
    obtain ⟨hslot, rfl, rfl⟩ | ⟨x, hslot, hact⟩ := stepAt_eq_ok h
    · exact .refused (by simp [refusal?, hslot])
    · cases x with
      | guarded g =>
        obtain ⟨rfl, rfl⟩ := Prod.mk.inj (Except.ok.inj hact)
        exact .refused (by simp [refusal?, hslot])
      | plain b =>
        obtain ⟨q, hput, hdone⟩ := bind_eq_ok.1 hact
        obtain ⟨rfl, rfl⟩ := Prod.mk.inj (Except.ok.inj hdone)
        exact .returned hslot hput
  | drop slot =>
    obtain ⟨hslot, rfl, rfl⟩ | ⟨x, hslot, hact⟩ := stepAt_eq_ok h
    · exact .refused (by simp [refusal?, hslot])
    · obtain ⟨q, hletGo, hdone⟩ := bind_eq_ok.1 hact
      obtain ⟨rfl, rfl⟩ := Prod.mk.inj (Except.ok.inj hdone)
      cases x with
      | guarded g => exact .released hslot hletGo
      | plain b =>
        obtain rfl : c.pool = q := Except.ok.inj hletGo
        exact .dropped hslot
  | detach slot =>
    obtain ⟨hslot, rfl, rfl⟩ | ⟨x, hslot, hact⟩ := stepAt_eq_ok h
    · exact .refused (by simp [refusal?, hslot])
    · cases x with
      | guarded g =>
        obtain ⟨rfl, rfl⟩ := Prod.mk.inj (Except.ok.inj hact)
        exact .detached hslot
      | plain b =>
        obtain ⟨rfl, rfl⟩ := Prod.mk.inj (Except.ok.inj hact)
        exact .refused (by simp [refusal?, hslot])
  | edit slot e =>
    obtain ⟨hslot, rfl, rfl⟩ | ⟨x, hslot, hact⟩ := stepAt_eq_ok h
    · exact .refused (by simp [refusal?, hslot])
    · exact does_of_edit hslot (Except.ok.inj hact)

/-- A step with a reason for refusal is refused, and nothing changes. -/
theorem step_of_refusal {r : Refusal} (h : c.refusal? s = some r) :
    c.step s = .ok (.refused r, c) := by
  cases s with
  | get size | take size | alloc capacity => cases h
  | put slot | drop slot | detach slot =>
    rcases hslot : c.holding? slot with _ | _ | _ <;>
      simp_all [refusal?, step, stepAt, pure, Except.pure]
  | edit slot e =>
    cases hslot : c.holding? slot with
    | none => simp_all [refusal?, step, stepAt, pure, Except.pure]
    | some x =>
      cases hgrows : c.divided && e.grows x.buffer with
      | true => simp_all [refusal?, step, stepAt, edit, pure, Except.pure]
      | false =>
        cases hresult : x.buffer.edit? e <;>
          simp_all [refusal?, step, stepAt, edit, pure, Except.pure]

/-- What a step can do is what it does. -/
theorem Does.step_eq (h : Does c s a d) : c.step s = .ok (a, d) := by
  cases h with
  | refused h => exact step_of_refusal h
  | got h => rw [step, h]; rfl
  | took h => rw [step, take, h]; rfl
  | allocated capacity => rfl
  | returned hslot h => rw [step, stepAt, hslot]; simp only [h]; rfl
  | dropped hslot => rw [step, stepAt, hslot]; rfl
  | released hslot h =>
    rw [step, stepAt, hslot]
    simp only [letGo, release, h]
    rfl
  | detached hslot => rw [step, stepAt, hslot]; rfl
  | edited hslot hgrows h =>
    rw [step, stepAt, hslot]
    simp only [edit, hgrows, h]
    rfl
  | divided hslot hgrows h =>
    rw [step, stepAt, hslot]
    simp only [edit, hgrows, h]
    rfl

/-- No step faults at a well-formed pool. -/
theorem exists_step (h : c.pool.WellFormed) (s : Step) :
    ∃ a d, c.step s = .ok (a, d) ∧ Continues c.pool d.pool := by
  obtain ⟨a, d, q, hstep, -, hd, -⟩ := step_withPool h h rfl s
  exact ⟨a, d, hstep, hd⟩

/-- What a step can do keeps the invariant of the pool. -/
theorem Does.continues (h : Does c s a d) (hwf : c.pool.WellFormed) : Continues c.pool d.pool := by
  obtain ⟨a', d', hstep, hd⟩ := exists_step hwf s
  rw [h.step_eq] at hstep
  obtain ⟨rfl, rfl⟩ := Prod.mk.inj (Except.ok.inj hstep)
  exact hd

/-! ### Turns -/

/-- One step of a run, with the client before and after it. -/
structure Turn where
  before : Client
  step : Step
  answer : Answer
  after : Client
  deriving DecidableEq

/-- Performs steps in order: the turns of the run, and the client at its end. -/
def turns (c : Client) : List Step → Checked (List Turn × Client)
  | [] => return ([], c)
  | s :: rest => do
    let (a, next) ← c.step s
    let (turns, last) ← next.turns rest
    return (⟨c, s, a, next⟩ :: turns, last)

/-- Turns that follow one another, from one client to another. -/
inductive Leads : Client → List Turn → Client → Prop
  | nil (c : Client) : Leads c [] c
  | cons {c next last : Client} {s : Step} {a : Answer} {ts : List Turn}
      (hturn : Does c s a next) (hrest : Leads next ts last) :
      Leads c (⟨c, s, a, next⟩ :: ts) last

theorem turns_cons {next last : Client} {steps : List Step} {ts : List Turn}
    (hstep : c.step s = .ok (a, next)) (hrest : next.turns steps = .ok (ts, last)) :
    c.turns (s :: steps) = .ok (⟨c, s, a, next⟩ :: ts, last) := by
  rw [turns, hstep]
  show (next.turns steps >>= _) = _
  rw [hrest]
  rfl

/-- A run without a fault has a first step without one, and a run behind it. -/
theorem exists_of_run_cons {last : Client} {steps : List Step} {answers : List Answer}
    (h : c.run (s :: steps) = .ok (answers, last)) :
    ∃ a next as, c.step s = .ok (a, next) ∧ next.run steps = .ok (as, last) ∧ answers = a :: as := by
  obtain ⟨⟨a, next⟩, hstep, hrest⟩ := bind_eq_ok.1 h
  obtain ⟨⟨as, last'⟩, hrun, hdone⟩ := bind_eq_ok.1 hrest
  obtain ⟨rfl, rfl⟩ := Prod.mk.inj (Except.ok.inj hdone)
  exact ⟨a, next, as, hstep, hrun, rfl⟩

/-- A run after another is one run. -/
theorem run_append {mid last : Client} {xs ys : List Step} {as bs : List Answer}
    (hfirst : c.run xs = .ok (as, mid)) (hthen : mid.run ys = .ok (bs, last)) :
    c.run (xs ++ ys) = .ok (as ++ bs, last) := by
  induction xs generalizing c as with
  | nil =>
    obtain ⟨rfl, rfl⟩ := Prod.mk.inj (Except.ok.inj hfirst)
    exact hthen
  | cons s xs ih =>
    obtain ⟨a, next, as', hstep, hrun, rfl⟩ := exists_of_run_cons hfirst
    exact run_cons hstep (ih hrun)

/-- **A run has its turns.** No step of it faults, the turns follow one another, and the run itself
    gives their answers. -/
theorem exists_turns (h : c.pool.WellFormed) (steps : List Step) :
    ∃ ts last, c.turns steps = .ok (ts, last) ∧ Leads c ts last ∧
      c.run steps = .ok (ts.map Turn.answer, last) ∧ last.pool.WellFormed := by
  -- Every step leaves the pool well-formed, so that the next one does not fault either.
  induction steps generalizing c with
  | nil => exact ⟨[], c, rfl, .nil c, rfl, h⟩
  | cons s steps ih =>
    obtain ⟨a, next, hstep, hnext⟩ := exists_step h s
    obtain ⟨ts, last, hturns, hleads, hrun, hlast⟩ := ih hnext.wellFormed
    exact ⟨_, last, turns_cons hstep hturns, .cons (does_of_step hstep) hleads,
      run_cons hstep hrun, hlast⟩

namespace Leads

variable {last : Client} {ts : List Turn}

/-- At each of the turns, those before it lead to it, and those behind it lead on from it. -/
theorem split {before after : List Turn} {t : Turn} (h : Leads c (before ++ t :: after) last) :
    Leads c before t.before ∧ Does t.before t.step t.answer t.after ∧ Leads t.after after last := by
  induction before generalizing c with
  | nil =>
    cases h with
    | cons hturn hrest => exact ⟨.nil _, hturn, hrest⟩
  | cons u before ih =>
    cases h with
    | cons hfirst hrest =>
      obtain ⟨hbefore, hturn, hafter⟩ := ih hrest
      exact ⟨.cons hfirst hbefore, hturn, hafter⟩

/-- Turns can be continued by one more. -/
theorem concat {mid next : Client} (h : Leads c ts mid) (hturn : Does mid s a next) :
    Leads c (ts ++ [⟨mid, s, a, next⟩]) next := by
  induction h with
  | nil c => exact .cons hturn (.nil next)
  | cons hfirst hrest ih => exact .cons hfirst (ih hturn)

/-- Turns that follow one another keep the invariant of the pool. -/
theorem wellFormed (h : Leads c ts last) (hwf : c.pool.WellFormed) : last.pool.WellFormed := by
  induction h with
  | nil c => exact hwf
  | cons hturn hrest ih => exact ih (hturn.continues hwf).wellFormed

end Leads

end Client

end WireBytes.Pool
