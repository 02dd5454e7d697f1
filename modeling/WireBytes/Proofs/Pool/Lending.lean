import Mathlib
import WireBytes.Proofs.Pool.Address

/-!
# Buffers on loan

Clients that give back only what a pool has lent them, and give it back with the capacity it had.
A pool without a limit loses none of these buffers, and makes no more of them than the clients ever
held at the same time.

* `Pool.Lending` — a pool with what clients hold of it; `Pool.Lending.step` and `Pool.Lending.run`
  perform a `Pool.Loan` and a list of them;
* `Pool.Lending.Balanced` — the invariant: an idle buffer or one on loan for every miss;
* `Pool.Lending.step_balanced` — a step keeps it, and a miss happens only if nothing is idle;
* `Pool.Lending.run_of_unlimited` — the account of a whole run.
-/

namespace WireBytes

/-- Other bytes in the same room. What does not fit is left out. -/
def Buffer.overwrite (b : Buffer) (bytes : Bytes) : Buffer :=
  ⟨b.capacity, bytes.take b.capacity, List.length_take_le b.capacity bytes⟩

namespace Pool

/-! ### Pools without a limit -/

section Unlimited

variable {p : Pool} {o : Operation} {cls : Nat}

/-- Without a limit no free list is full. -/
theorem isFull_of_unlimited (hlimit : p.limit = none) (free : List Buffer) :
    p.isFull free = false := by
  rw [isFull, hlimit]

/-- A pool without a limit gives up nothing that is addressed to one of its classes. -/
theorem settle_ne_refused (hlimit : p.limit = none) (o : Operation) (free : List Buffer) :
    (p.settle o free).1 ≠ some .refused := by
  unfold settle
  rw [isFull_of_unlimited hlimit]
  cases o.returned? with
  | some b => simp
  | none => cases free <;> simp

theorem outcome_ne_refused (hlimit : p.limit = none) (ho : o.address p.classes = some cls) :
    p.outcome (p.after o) ≠ some .refused := by
  rw [outcome_after_of_address ho]
  exact settle_ne_refused hlimit o (p.freeList cls)

/-- Only a refusal is counted among the drops. -/
theorem drops_tally {x : Option Outcome} (hx : x ≠ some .refused) :
    (p.tally x).drops = p.drops := by
  match x, hx with
  | none, _ | some .hit, _ | some .miss, _ | some .kept, _ => rfl

/-- A pool without a limit counts no drop for an operation addressed to a class. -/
theorem drops_after (hlimit : p.limit = none) (ho : o.address p.classes = some cls) :
    (p.after o).drops = p.drops := by
  rw [after_of_address ho, drops_tally (settle_ne_refused hlimit o (p.freeList cls))]
  rfl

end Unlimited

/-! ### Loans -/

/-- A pool with the buffers that its clients hold, and what became of each request and of each
    buffer that was given back, with the class. The last ones come first. -/
structure Lending where
  pool : Pool
  held : List Buffer
  log : List (Nat × Option Outcome)
  deriving DecidableEq

/-- What a client does. -/
inductive Loan where
  /-- Asks for a buffer of a size. -/
  | borrow (size : Nat)
  /-- Gives back the buffer held at a place, with other contents. -/
  | giveBack (place : Nat) (bytes : Bytes)
  deriving DecidableEq

namespace Lending

variable {p : Pool} {s t : Lending} {r : ClassRange} {cls : Nat}

/-- A pool of which nothing is held yet. -/
def start (p : Pool) : Lending :=
  ⟨p, [], []⟩

/-- Performs one step. There is nothing to give back at a place where nothing is held. -/
def step (s : Lending) : Loan → Checked Lending
  | .borrow size => do
    let ((b, cls), q) ← s.pool.get size
    return ⟨q, b :: s.held, (cls, s.pool.outcome q) :: s.log⟩
  | .giveBack place bytes =>
    match s.held[place]? with
    | none => return s
    | some b => do
      let q ← s.pool.put (b.overwrite bytes)
      return ⟨q, s.held.eraseIdx place, (b.capacity, s.pool.outcome q) :: s.log⟩

/-- Performs steps in order. -/
def run (s : Lending) (script : List Loan) : Checked Lending :=
  script.foldlM step s

/-- How many buffers of a class are held. -/
def lent (s : Lending) (cls : Nat) : Nat :=
  s.held.countP (·.capacity = cls)

/-- How many new buffers of a class were made. -/
def misses (s : Lending) (cls : Nat) : Nat :=
  s.log.count (cls, some .miss)

/-- How many buffers of a class are held at the points of a run, its end included. -/
def levels (p : Pool) (cls : Nat) (script : List Loan) : Set Nat :=
  {k | ∃ pre t, pre <+: script ∧ (start p).run pre = .ok t ∧ t.lent cls = k}

/-! ### The invariant -/

/-- Every buffer that was ever made is idle or on loan, and none was given up. -/
structure Balanced (r : ClassRange) (s : Lending) : Prop where
  wellFormed : s.pool.WellFormed
  classes : s.pool.classes = r
  unlimited : s.pool.limit = none
  /-- Only buffers of the pool are held. -/
  own : ∀ b ∈ s.held, b.capacity ∈ r.toList
  account : ∀ cls ∈ r.toList, (s.pool.freeList cls).length + s.lent cls = s.misses cls
  drops : s.pool.drops = 0
  none_refused : ∀ entry ∈ s.log, entry.2 ≠ some .refused

/-- The account begins in balance: nothing is idle, nothing is on loan and nothing was made. -/
theorem balanced_start (hr : r.Valid) : (start (unused r none)).Balanced r where
  wellFormed := wellFormed_unused hr none
  classes := rfl
  unlimited := rfl
  own := by simp [start]
  account cls _ := by simp [start, lent, misses, freeList_unused]
  drops := rfl
  none_refused := by simp [start]

/-! ### One class in one step -/

/-- The step that comes of an operation addressed to a class, with what is held afterwards. -/
def next (s : Lending) (o : Operation) (cls : Nat) (held : List Buffer) : Lending :=
  ⟨s.pool.after o, held, (cls, s.pool.outcome (s.pool.after o)) :: s.log⟩

section Next

variable {o : Operation} {free : List Buffer} {x : Option Outcome} (held : List Buffer)

theorem lent_next (c : Nat) : (s.next o c held).lent cls = held.countP (·.capacity = cls) := rfl

/-- The free list after the step is the one that the operation settles. -/
theorem freeList_next (h : s.pool.WellFormed) (ho : o.address s.pool.classes = some cls)
    (hsettle : s.pool.settle o (s.pool.freeList cls) = (x, free)) :
    (s.next o cls held).pool.freeList cls = free := by
  rw [next, freeList_after_of_address h ho, hsettle]

/-- The step adds one to the misses of its class if it is a miss. -/
theorem misses_next (ho : o.address s.pool.classes = some cls)
    (hsettle : s.pool.settle o (s.pool.freeList cls) = (x, free)) :
    (s.next o cls held).misses cls = s.misses cls + if x = some .miss then 1 else 0 := by
  rw [misses, next, outcome_after_of_address ho, hsettle, List.count_cons]
  simp [misses]

end Next

/-- One class before and after a step: what is idle and what is on loan become more together by the
    misses alone, and there is a new miss only if nothing is idle afterwards. -/
structure Settles (cls : Nat) (s t : Lending) : Prop where
  account : (t.pool.freeList cls).length + t.lent cls + s.misses cls =
    (s.pool.freeList cls).length + s.lent cls + t.misses cls
  misses : t.misses cls = s.misses cls ∨
    t.misses cls = s.misses cls + 1 ∧ t.pool.freeList cls = []

/-- A class that a step does not concern. -/
theorem settles_of_ne (h : s.pool.WellFormed) {o : Operation} {c : Nat} {held : List Buffer}
    (ho : o.address s.pool.classes = some c) (hne : c ≠ cls)
    (hheld : held.countP (·.capacity = cls) = s.lent cls) : Settles cls s (s.next o c held) := by
  have hfree : (s.next o c held).pool.freeList cls = s.pool.freeList cls :=
    freeList_after_of_ne h fun heq => hne (Option.some.inj (ho.symm.trans heq))
  have hmisses : (s.next o c held).misses cls = s.misses cls := by
    simp [misses, next, hne]
  exact ⟨by rw [lent_next, hmisses, hfree, hheld], .inl hmisses⟩

/-- The class of a request. -/
theorem settles_borrow (h : s.pool.WellFormed) {size : Nat}
    (ho : (Operation.get size).address s.pool.classes = some cls) :
    Settles cls s (s.next (.get size) cls (Buffer.empty cls :: s.held)) := by
  have hheld : (Buffer.empty cls :: s.held).countP (·.capacity = cls) = s.lent cls + 1 := by
    simp [lent, Buffer.empty]
  cases hidle : s.pool.freeList cls with
  | nil =>
    -- A buffer is made, and there is still nothing idle.
    have hsettle : s.pool.settle (.get size) (s.pool.freeList cls) = (some .miss, []) := by
      rw [hidle]
      exact settle_of_none_idle rfl
    have hfree := freeList_next (Buffer.empty cls :: s.held) h ho hsettle
    have hmisses := misses_next (Buffer.empty cls :: s.held) ho hsettle
    rw [if_pos rfl] at hmisses
    refine ⟨?_, .inr ⟨hmisses, hfree⟩⟩
    rw [hfree, hmisses, lent_next, hheld, hidle]
    omega
  | cons b rest =>
    -- One idle buffer less, and one more on loan.
    have hsettle : s.pool.settle (.get size) (s.pool.freeList cls) = (some .hit, rest) := by
      rw [hidle]
      exact settle_of_idle rfl b
    have hfree := freeList_next (Buffer.empty cls :: s.held) h ho hsettle
    have hmisses := misses_next (Buffer.empty cls :: s.held) ho hsettle
    rw [if_neg (by decide), Nat.add_zero] at hmisses
    refine ⟨?_, .inl hmisses⟩
    rw [hfree, hmisses, lent_next, hheld, hidle, List.length_cons]
    omega

/-- What is held is one buffer less after it was given back. -/
theorem countP_eraseIdx {held : List Buffer} {place : Nat} {b : Buffer}
    (hb : held[place]? = some b) (cls : Nat) :
    (held.eraseIdx place).countP (·.capacity = cls) + (if b.capacity = cls then 1 else 0) =
      held.countP (·.capacity = cls) := by
  obtain ⟨hlt, rfl⟩ := List.getElem?_eq_some_iff.1 hb
  rw [← (List.getElem_cons_eraseIdx_perm hlt).countP_eq, List.countP_cons]
  simp

/-- The class of a buffer that is given back. -/
theorem settles_giveBack (h : s.pool.WellFormed) (hlimit : s.pool.limit = none) {place : Nat}
    {b : Buffer} (hb : s.held[place]? = some b) (bytes : Bytes)
    (ho : (Operation.put (b.overwrite bytes)).address s.pool.classes = some b.capacity) :
    Settles b.capacity s
      (s.next (.put (b.overwrite bytes)) b.capacity (s.held.eraseIdx place)) := by
  have hlent : (s.held.eraseIdx place).countP (·.capacity = b.capacity) + 1 =
      s.lent b.capacity := by
    simpa [lent] using countP_eraseIdx hb b.capacity
  have hsettle := settle_of_room (p := s.pool) (o := .put (b.overwrite bytes)) rfl
    (isFull_of_unlimited hlimit (s.pool.freeList b.capacity))
  have hfree := freeList_next (s.held.eraseIdx place) h ho hsettle
  have hmisses := misses_next (s.held.eraseIdx place) ho hsettle
  rw [if_neg (by decide), Nat.add_zero] at hmisses
  -- One buffer less on loan, and one more idle.
  refine ⟨?_, .inl hmisses⟩
  rw [hfree, hmisses, lent_next, ← hlent, List.length_cons]
  omega

namespace Settles

variable (h : Settles cls s t)
  (haccount : (s.pool.freeList cls).length + s.lent cls = s.misses cls)

include h haccount

/-- The account is in balance after the step if it was before. -/
theorem account_next : (t.pool.freeList cls).length + t.lent cls = t.misses cls := by
  have := h.account
  omega

/-- A miss raises the misses to what is on loan, and without one no more is on loan than that. -/
theorem misses_eq_max : t.misses cls = max (s.misses cls) (t.lent cls) := by
  have hnext := h.account_next haccount
  rcases h.misses with hsame | ⟨hmade, hidle⟩
  · omega
  · rw [hidle, List.length_nil, Nat.zero_add] at hnext
    omega

end Settles

/-! ### Steps and runs -/

/-- What is left to show of a step: who holds what afterwards, and the account of each class. -/
theorem Balanced.next (hs : s.Balanced r) {o : Operation} {c : Nat} {held : List Buffer}
    (ho : o.address s.pool.classes = some c) (hown : ∀ b ∈ held, b.capacity ∈ r.toList)
    (hsettles : ∀ cls, Settles cls s (s.next o c held)) :
    (s.next o c held).Balanced r ∧ ∀ cls ∈ r.toList,
      (s.next o c held).misses cls = max (s.misses cls) ((s.next o c held).lent cls) := by
  refine ⟨?_, fun cls hcls => (hsettles cls).misses_eq_max (hs.account cls hcls)⟩
  exact {
    wellFormed := hs.wellFormed.after o
    classes := (classes_after s.pool o).trans hs.classes
    unlimited := (limit_after s.pool o).trans hs.unlimited
    own := hown
    account := fun cls hcls => (hsettles cls).account_next (hs.account cls hcls)
    drops := (drops_after hs.unlimited ho).trans hs.drops
    none_refused := List.forall_mem_cons.2 ⟨outcome_ne_refused hs.unlimited ho, hs.none_refused⟩ }

/-- **One step.** It does not fault, it keeps the account, and it raises the misses of a class to
    what is on loan of it, if that is more. -/
theorem step_balanced (hs : s.Balanced r) (l : Loan) :
    ∃ t, s.step l = .ok t ∧ t.Balanced r ∧
      ∀ cls ∈ r.toList, t.misses cls = max (s.misses cls) (t.lent cls) := by
  cases l with
  | borrow size =>
    obtain ⟨c, ho, hget⟩ := get_eq hs.wellFormed size
    have hc : c ∈ r.toList := hs.classes ▸ Operation.mem_of_address hs.wellFormed.valid ho
    refine ⟨s.next (.get size) c (Buffer.empty c :: s.held), by rw [step, hget]; rfl,
      hs.next ho (List.forall_mem_cons.2 ⟨hc, hs.own⟩) fun cls => ?_⟩
    by_cases hcls : c = cls
    · exact hcls ▸ settles_borrow hs.wellFormed ho
    · exact settles_of_ne hs.wellFormed ho hcls (by simp [lent, Buffer.empty, hcls])
  | giveBack place bytes =>
    cases hb : s.held[place]? with
    | none =>
      -- Nothing is done, and no more is on loan than the account allows.
      refine ⟨s, by rw [step, hb]; rfl, hs, fun cls hcls => ?_⟩
      have := hs.account cls hcls
      omega
    | some b =>
      have hc : b.capacity ∈ s.pool.classes.toList :=
        hs.classes ▸ hs.own b (List.mem_of_getElem? hb)
      have ho : (Operation.put (b.overwrite bytes)).address s.pool.classes = some b.capacity :=
        Operation.address_of_returned (b := b.overwrite bytes) rfl hc
      refine ⟨s.next (.put (b.overwrite bytes)) b.capacity (s.held.eraseIdx place), ?_,
        hs.next ho (fun b' hb' => hs.own b' (List.mem_of_mem_eraseIdx hb')) fun cls => ?_⟩
      · rw [step, hb]
        show (s.pool.put _ >>= _) = _
        rw [put_eq hs.wellFormed]
        rfl
      · by_cases hcls : b.capacity = cls
        · exact hcls ▸ settles_giveBack hs.wellFormed hs.unlimited hb bytes ho
        · refine settles_of_ne hs.wellFormed ho hcls ?_
          simpa [lent, hcls] using countP_eraseIdx hb cls

/-- A longer run is the shorter one with one more step at its end. -/
theorem run_concat (s : Lending) (script : List Loan) (l : Loan) :
    s.run (script ++ [l]) = s.run script >>= (step · l) := by
  simp [run]

/-- One more step leads to one more point of the run. -/
theorem levels_concat {script : List Loan} {l : Loan}
    (hrun : (start p).run (script ++ [l]) = .ok t) :
    levels p cls (script ++ [l]) = insert (t.lent cls) (levels p cls script) := by
  ext k
  rw [Set.mem_insert_iff]
  constructor
  · rintro ⟨pre, t', hpre, hrun', rfl⟩
    -- A point of the longer run is its end, or a point of the shorter one.
    rcases List.prefix_concat_iff.1 hpre with rfl | hpre
    · obtain rfl : t' = t := Except.ok.inj (hrun'.symm.trans hrun)
      exact .inl rfl
    · exact .inr ⟨pre, t', hpre, hrun', rfl⟩
  · rintro (rfl | ⟨pre, t', hpre, hrun', hk⟩)
    · exact ⟨_, t, List.prefix_rfl, hrun, rfl⟩
    · exact ⟨pre, t', hpre.trans (List.prefix_append script [l]), hrun', hk⟩

/-- **A whole run.** It does not fault, it keeps the account, and the misses of a class are the most
    buffers of it that were ever on loan. -/
theorem run_balanced (hs : (start p).Balanced r) (script : List Loan) :
    ∃ t, (start p).run script = .ok t ∧ t.Balanced r ∧
      ∀ cls ∈ r.toList, IsGreatest (levels p cls script) (t.misses cls) := by
  -- The last step of a script is the last one taken, so the induction takes it off at the end.
  induction script using List.reverseRecOn with
  | nil =>
    refine ⟨start p, rfl, hs, fun cls _ => ⟨⟨[], start p, List.prefix_rfl, rfl, rfl⟩, ?_⟩⟩
    rintro k ⟨pre, t, hpre, hrun, rfl⟩
    obtain rfl := List.prefix_nil.1 hpre
    obtain rfl : start p = t := Except.ok.inj hrun
    exact Nat.le_refl 0
  | append_singleton script l ih =>
    obtain ⟨s, hrun, hbalanced, hgreatest⟩ := ih
    obtain ⟨t, hstep, hnext, hmisses⟩ := step_balanced hbalanced l
    have hrun' : (start p).run (script ++ [l]) = .ok t := by
      rw [run_concat, hrun]
      exact hstep
    refine ⟨t, hrun', hnext, fun cls hcls => ?_⟩
    rw [levels_concat hrun', hmisses cls hcls, max_comm]
    exact (hgreatest cls hcls).insert (t.lent cls)

/-- **Reuse.** At every point of a run of a new pool without a limit, none of the buffers that were
    given back was given up, and every buffer of a class that was ever made is idle or on loan. As
    many were made as were on loan at the same time at the most, at that point or before it. -/
theorem run_of_unlimited {c : Config} (hlimit : c.limit = none) (h : ofConfig c = .ok (.ok p))
    (script : List Loan) :
    ∃ s, (start p).run script = .ok s ∧ s.pool.drops = 0 ∧
      (∀ entry ∈ s.log, entry.2 ≠ some .refused) ∧
      ∀ cls ∈ p.classes.toList, ∃ idle, s.pool.retained cls = .ok idle ∧
        idle + s.lent cls = s.misses cls ∧ IsGreatest (levels p cls script) (s.misses cls) := by
  obtain ⟨-, r, hr, rfl⟩ := ofConfig_eq_ok_iff.1 h
  rw [hlimit]
  obtain ⟨s, hrun, hbalanced, hgreatest⟩ :=
    run_balanced (balanced_start (ClassRange.valid_of_ofBounds? hr)) script
  exact ⟨s, hrun, hbalanced.drops, hbalanced.none_refused, fun cls hcls =>
    ⟨_, hbalanced.wellFormed.retained_eq cls, hbalanced.account cls hcls, hgreatest cls hcls⟩⟩

/-- Of three buffers of eight bytes that were lent, only two at the same time, two were made. -/
theorem run_of_unlimited_reused :
    ofConfig ⟨3, 20, none⟩ = .ok (.ok (unused ⟨2, 4⟩ none)) ∧ 8 ∈ (ClassRange.mk 2 4).toList ∧
      ∃ s, (start (unused ⟨2, 4⟩ none)).run
          [.borrow 5, .borrow 100, .borrow 8, .giveBack 2 [1, 2, 3], .borrow 6] = .ok s ∧
        s.pool.drops = 0 ∧ s.misses 8 = 2 ∧
        ∃ idle, s.pool.retained 8 = .ok idle ∧ idle + s.lent 8 = s.misses 8 ∧
          IsGreatest (levels (unused ⟨2, 4⟩ none) 8
            [.borrow 5, .borrow 100, .borrow 8, .giveBack 2 [1, 2, 3], .borrow 6])
            (s.misses 8) := by
  have h : ofConfig ⟨3, 20, none⟩ = .ok (.ok (unused ⟨2, 4⟩ none)) := by decide
  have hmem : 8 ∈ (ClassRange.mk 2 4).toList := by decide
  have hmisses : ((start (unused ⟨2, 4⟩ none)).run
      [.borrow 5, .borrow 100, .borrow 8, .giveBack 2 [1, 2, 3], .borrow 6]).map (·.misses 8) =
        .ok 2 := by
    decide
  obtain ⟨s, hrun, hdrops, -, hclass⟩ := run_of_unlimited rfl h
    [.borrow 5, .borrow 100, .borrow 8, .giveBack 2 [1, 2, 3], .borrow 6]
  rw [hrun] at hmisses
  exact ⟨h, hmem, s, hrun, hdrops, Except.ok.inj hmisses, hclass 8 hmem⟩

end Lending

end Pool

end WireBytes
