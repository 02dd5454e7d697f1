import Mathlib
import WireBytes.Proofs.Pool.Address

/-!
# Classes do not disturb one another

What happens to a class of a pool is decided by the operations that are addressed to it.

* `Pool.reported` — a run with what can be seen of each operation from outside;
* `Pool.AgreesAt` — two pools that cannot be told apart at one class; `Pool.AgreesAt.run` — a run at
  one of them and, at the other, the operations of the run that are addressed to the class;
* `Pool.after_comm` — operations that are not addressed to the same class commute;
* `Pool.run_isolated` — both for the runs of a new pool.
-/

namespace WireBytes.Pool

variable {p q : Pool} {o o₁ o₂ : Operation} {cls : Nat}

/-! ### Reports of a run -/

/-- What can be seen of an operation from outside. -/
structure Report where
  operation : Operation
  served : Option (Buffer × Nat)
  outcome : Option Outcome
  deriving DecidableEq

/-- The report of an operation of a run. Its outcome is what the counters of the pool tell. -/
def Moment.report (m : Moment) : Report where
  operation := m.operation
  served := m.served
  outcome :=
    match m.before.perform m.operation with
    | .ok (_, next) => m.before.outcome next
    | .error _ => none

/-- Performs operations in order: their reports, and the pool at the end. -/
def reported (p : Pool) (ops : List Operation) : Checked (List Report × Pool) := do
  let (moments, q) ← p.run ops
  return (moments.map Moment.report, q)

/-- The report of what an operation comes to. -/
def reportOf (p : Pool) (o : Operation) : Report :=
  ⟨o, o.served p.classes, p.outcome (p.after o)⟩

@[simp] theorem operation_reportOf (p : Pool) (o : Operation) : (p.reportOf o).operation = o := rfl

/-- The reports of operations that are performed in order. -/
def reports (p : Pool) : List Operation → List Report
  | [] => []
  | o :: rest => p.reportOf o :: (p.after o).reports rest

/-- **A run does not fault.** It leads to what the operations come to one after another. -/
theorem reported_eq (h : p.WellFormed) (ops : List Operation) :
    p.reported ops = .ok (p.reports ops, ops.foldl after p) := by
  obtain ⟨moments, hrun, hmoments⟩ : ∃ moments, p.run ops = .ok (moments, ops.foldl after p) ∧
      moments.map Moment.report = p.reports ops := by
    induction ops generalizing p with
    | nil => exact ⟨[], rfl, rfl⟩
    | cons o rest ih =>
      obtain ⟨moments, hrun, hmoments⟩ := ih (h.after o)
      refine ⟨_, run_cons (perform_eq h o) hrun, ?_⟩
      rw [List.map_cons, reports, hmoments, Moment.report, reportOf, perform_eq h o]
  rw [reported, hrun, ← hmoments]
  rfl

/-- The reports of a longer run begin with those of the shorter one. -/
theorem reports_append (p : Pool) (ops more : List Operation) :
    p.reports (ops ++ more) = p.reports ops ++ (ops.foldl after p).reports more := by
  induction ops generalizing p with
  | nil => rfl
  | cons o rest ih => rw [List.cons_append, reports, reports, ih, List.cons_append, List.foldl_cons]

/-- The invariant holds after any operations. -/
theorem wellFormed_foldl (h : p.WellFormed) (ops : List Operation) :
    (ops.foldl after p).WellFormed := by
  induction ops generalizing p with
  | nil => exact h
  | cons o rest ih => exact ih (h.after o)

/-- The classes are the same after any operations. -/
theorem classes_foldl (p : Pool) (ops : List Operation) :
    (ops.foldl after p).classes = p.classes := by
  induction ops generalizing p with
  | nil => rfl
  | cons o rest ih => rw [List.foldl_cons, ih, classes_after]

/-! ### One class of two pools -/

/-- Two pools that cannot be told apart by operations addressed to one class. -/
structure AgreesAt (cls : Nat) (p q : Pool) : Prop where
  classes : q.classes = p.classes
  limit : q.limit = p.limit
  free : q.freeList cls = p.freeList cls

namespace AgreesAt

theorem refl (cls : Nat) (p : Pool) : AgreesAt cls p p :=
  ⟨rfl, rfl, rfl⟩

/-- An operation addressed to the class comes to the same at both pools. -/
theorem after (hagree : AgreesAt cls p q) (hp : p.WellFormed) (hq : q.WellFormed)
    (ho : o.address p.classes = some cls) :
    AgreesAt cls (p.after o) (q.after o) ∧ q.reportOf o = p.reportOf o := by
  have ho' : o.address q.classes = some cls := hagree.classes ▸ ho
  have hsettle : q.settle o (q.freeList cls) = p.settle o (p.freeList cls) := by
    rw [settle_of_limit hagree.limit, hagree.free]
  refine ⟨⟨?_, ?_, ?_⟩, ?_⟩
  · rw [classes_after, classes_after, hagree.classes]
  · rw [limit_after, limit_after, hagree.limit]
  · rw [freeList_after_of_address hq ho', freeList_after_of_address hp ho, hsettle]
  · rw [reportOf, reportOf, outcome_after_of_address ho', outcome_after_of_address ho, hsettle,
      hagree.classes]

/-- An operation addressed elsewhere may be left out. -/
theorem after_left (hagree : AgreesAt cls p q) (hp : p.WellFormed)
    (ho : o.address p.classes ≠ some cls) : AgreesAt cls (p.after o) q :=
  ⟨by rw [classes_after, hagree.classes], by rw [limit_after, hagree.limit],
    by rw [freeList_after_of_ne hp ho, hagree.free]⟩

/-- **A run at one class.** Operations that are addressed elsewhere may be left out of it: the
    others are reported as they were, and the free list of the class is the same in the end. -/
theorem run (hagree : AgreesAt cls p q) (hp : p.WellFormed) (hq : q.WellFormed)
    (ops : List Operation) :
    AgreesAt cls (ops.foldl Pool.after p)
        ((ops.filter (·.address p.classes = some cls)).foldl Pool.after q) ∧
      (p.reports ops).filter (·.operation.address p.classes = some cls) =
        q.reports (ops.filter (·.address p.classes = some cls)) := by
  induction ops generalizing p q with
  | nil => exact ⟨hagree, rfl⟩
  | cons o rest ih =>
    by_cases ho : o.address p.classes = some cls
    · -- The operation belongs to both runs.
      obtain ⟨hnext, hreport⟩ := hagree.after hp hq ho
      obtain ⟨hlast, hreports⟩ := ih hnext (hp.after o) (hq.after o)
      rw [classes_after] at hlast hreports
      refine ⟨?_, ?_⟩
      · simpa [ho] using hlast
      · simp [reports, ho, hreport, hreports]
    · -- It belongs to the whole run only, and leaves the class as it is.
      obtain ⟨hlast, hreports⟩ := ih (hagree.after_left hp ho) (hp.after o) hq
      rw [classes_after] at hlast hreports
      refine ⟨?_, ?_⟩
      · simpa [ho] using hlast
      · simp [reports, ho, hreports]

end AgreesAt

/-! ### Two operations -/

/-- Two operations are apart if they are not addressed to the same class. -/
def Apart (r : ClassRange) (o₁ o₂ : Operation) : Prop :=
  ∀ cls, ¬ (o₁.address r = some cls ∧ o₂.address r = some cls)

theorem Apart.symm {r : ClassRange} (h : Apart r o₁ o₂) : Apart r o₂ o₁ :=
  fun cls hboth => h cls hboth.symm

/-- An operation comes to the same behind another one that is apart from it. -/
theorem settle_after (h : p.WellFormed) (hapart : Apart p.classes o₁ o₂)
    (ho : o₂.address p.classes = some cls) :
    (p.after o₁).settle o₂ ((p.after o₁).freeList cls) = p.settle o₂ (p.freeList cls) := by
  rw [settle_of_limit (limit_after p o₁),
    freeList_after_of_ne h fun ho₁ => hapart cls ⟨ho₁, ho⟩]

/-- An operation is reported alike behind another one that is apart from it. -/
theorem reportOf_after (h : p.WellFormed) (hapart : Apart p.classes o₁ o₂) :
    (p.after o₁).reportOf o₂ = p.reportOf o₂ := by
  rw [reportOf, reportOf, classes_after]
  congr 1
  cases ho : o₂.address p.classes with
  | none =>
    rw [outcome_after_of_stray ho, outcome_after_of_stray (by rwa [classes_after])]
  | some cls =>
    rw [outcome_after_of_address ho, outcome_after_of_address (by rwa [classes_after]),
      settle_after h hapart ho]

/-- An outcome that was counted before an operation might as well be counted after it. -/
theorem after_tally (p : Pool) (x : Option Outcome) (o : Operation) :
    (p.tally x).after o = (p.after o).tally x := by
  cases ho : o.address p.classes with
  | none =>
    rw [after_of_stray ho, after_of_stray (by rwa [classes_tally]), tally_comm]
  | some cls =>
    rw [after_of_address ho, after_of_address (by rwa [classes_tally]), freeList_tally,
      settle_of_limit (limit_tally p x), withFree_tally, tally_comm]

/-- An operation that is addressed to no class commutes with every other one. -/
theorem after_comm_of_stray (ho : o₁.address p.classes = none) :
    (p.after o₁).after o₂ = (p.after o₂).after o₁ := by
  have ho' : o₁.address (p.after o₂).classes = none := by rwa [classes_after]
  rw [after_of_stray ho, after_of_stray ho', after_tally]

/-- **Operations that are apart commute.** -/
theorem after_comm (h : p.WellFormed) (hapart : Apart p.classes o₁ o₂) :
    (p.after o₁).after o₂ = (p.after o₂).after o₁ := by
  cases h₁ : o₁.address p.classes with
  | none => exact after_comm_of_stray h₁
  | some a =>
    cases h₂ : o₂.address p.classes with
    | none => exact (after_comm_of_stray h₂).symm
    | some b =>
      -- Each files its own class anew, and the counters may be raised in either order.
      have hne : b ≠ a := fun heq => hapart a ⟨h₁, heq ▸ h₂⟩
      rw [after_of_address (p := p.after o₁) (by rwa [classes_after]), settle_after h hapart h₂,
        after_of_address (p := p.after o₂) (by rwa [classes_after]), settle_after h hapart.symm h₁,
        after_of_address h₁, after_of_address h₂, withFree_tally, withFree_tally,
        withFree_comm (Operation.mem_of_address h.valid h₁) hne, tally_comm]

/-- **Two neighbours change places.** Operations that are apart and follow one another are reported
    alike in either order, and so is all that follows them. -/
theorem reported_swap (h : p.WellFormed) (pre post : List Operation)
    (hapart : Apart p.classes o₁ o₂) :
    ∃ before mid a b after q, p.reported pre = .ok (before, mid) ∧ a.operation = o₁ ∧
      b.operation = o₂ ∧
      p.reported (pre ++ o₁ :: o₂ :: post) = .ok (before ++ a :: b :: after, q) ∧
      p.reported (pre ++ o₂ :: o₁ :: post) = .ok (before ++ b :: a :: after, q) := by
  have hmid := wellFormed_foldl h pre
  have hapart' : Apart (pre.foldl Pool.after p).classes o₁ o₂ := by rwa [classes_foldl]
  refine ⟨p.reports pre, _, (pre.foldl Pool.after p).reportOf o₁,
    (pre.foldl Pool.after p).reportOf o₂, _, _, reported_eq h pre, rfl, rfl,
    by rw [reported_eq h, reports_append, reports, reports, reportOf_after hmid hapart',
      List.foldl_append, List.foldl_cons, List.foldl_cons], ?_⟩
  rw [reported_eq h, reports_append, reports, reports, reportOf_after hmid hapart'.symm,
    List.foldl_append, List.foldl_cons, List.foldl_cons, after_comm hmid hapart']

/-! ### Runs of a new pool -/

/-- **Isolation.** In a run of a new pool, every class fares as if the operations that are addressed
    to it were all that happened: they are reported as they are without the others, and the same
    buffers are idle in the end. Two operations that follow one another and are apart may change
    places, which changes no report and leads to the same pool. -/
theorem run_isolated {c : Config} (h : ofConfig c = .ok (.ok p)) (ops : List Operation) :
    (∀ cls ∈ p.classes.toList, ∃ reports q reports' q',
      p.reported ops = .ok (reports, q) ∧
      p.reported (ops.filter (·.address p.classes = some cls)) = .ok (reports', q') ∧
      q.freeList cls = q'.freeList cls ∧
      reports.filter (·.operation.address p.classes = some cls) = reports') ∧
    ∀ pre o₁ o₂ post, ops = pre ++ o₁ :: o₂ :: post → Apart p.classes o₁ o₂ →
      ∃ before mid a b after q, p.reported pre = .ok (before, mid) ∧ a.operation = o₁ ∧
        b.operation = o₂ ∧ p.reported ops = .ok (before ++ a :: b :: after, q) ∧
        p.reported (pre ++ o₂ :: o₁ :: post) = .ok (before ++ b :: a :: after, q) := by
  have hwf : p.WellFormed := wellFormed_of_ofConfig h
  refine ⟨fun cls _ => ?_, ?_⟩
  · obtain ⟨hlast, hreports⟩ := (AgreesAt.refl cls p).run hwf hwf ops
    exact ⟨_, _, _, _, reported_eq hwf ops, reported_eq hwf _, hlast.free.symm, hreports⟩
  · rintro pre o₁ o₂ post rfl hapart
    exact reported_swap hwf pre post hapart

/-- Two classes that keep one buffer each, and a buffer of no class between two requests. Of the two
    buffers of eight bytes one is kept, and handed out, and a third one is kept in its place. -/
theorem run_isolated_of_mixed_run :
    ofConfig ⟨3, 20, some 1⟩ = .ok (.ok (unused ⟨2, 4⟩ (some 1))) ∧ 8 ∈ (ClassRange.mk 2 4).toList ∧
      (∃ reports q reports' q',
        (unused ⟨2, 4⟩ (some 1)).reported [.put (.ofBytes 8 [1]), .get 3, .put (.empty 8),
          .put (.empty 24), .get 7, .get 16, .put (.ofBytes 8 [2])] = .ok (reports, q) ∧
        (unused ⟨2, 4⟩ (some 1)).reported [.put (.ofBytes 8 [1]), .put (.empty 8), .get 7,
          .put (.ofBytes 8 [2])] = .ok (reports', q') ∧
        q.freeList 8 = q'.freeList 8 ∧ q.freeList 8 = [Buffer.empty 8] ∧
        reports.filter (·.operation.address ⟨2, 4⟩ = some 8) = reports' ∧
        reports'.map (·.outcome) = [some .kept, some .refused, some .hit, some .kept]) ∧
      ∃ before mid a b after q, (unused ⟨2, 4⟩ (some 1)).reported [.put (.ofBytes 8 [1]), .get 3,
          .put (.empty 8)] = .ok (before, mid) ∧
        a.operation = .put (.empty 24) ∧ b.operation = .get 7 ∧
        (unused ⟨2, 4⟩ (some 1)).reported [.put (.ofBytes 8 [1]), .get 3, .put (.empty 8),
          .put (.empty 24), .get 7, .get 16, .put (.ofBytes 8 [2])] =
            .ok (before ++ a :: b :: after, q) ∧
        (unused ⟨2, 4⟩ (some 1)).reported [.put (.ofBytes 8 [1]), .get 3, .put (.empty 8),
          .get 7, .put (.empty 24), .get 16, .put (.ofBytes 8 [2])] =
            .ok (before ++ b :: a :: after, q) := by
  have h : ofConfig ⟨3, 20, some 1⟩ = .ok (.ok (unused ⟨2, 4⟩ (some 1))) := by decide
  have hmem : 8 ∈ (ClassRange.mk 2 4).toList := by decide
  have hapart : Apart ⟨2, 4⟩ (.put (.empty 24)) (.get 7) := by
    rintro cls ⟨hput, -⟩
    exact absurd hput (by simp [show Operation.address (.put (.empty 24)) ⟨2, 4⟩ = none by decide])
  obtain ⟨hclass, hswap⟩ := run_isolated h [.put (.ofBytes 8 [1]), .get 3, .put (.empty 8),
    .put (.empty 24), .get 7, .get 16, .put (.ofBytes 8 [2])]
  obtain ⟨reports, q, reports', q', hrun, halone, hfree, hreports⟩ := hclass 8 hmem
  -- What the class comes to can be read off the run of its own operations.
  have hfacts : ((unused ⟨2, 4⟩ (some 1)).reported [.put (.ofBytes 8 [1]), .put (.empty 8), .get 7,
      .put (.ofBytes 8 [2])]).map (fun (reports, q) => (reports.map (·.outcome), q.freeList 8)) =
      .ok ([some .kept, some .refused, some .hit, some .kept], [Buffer.empty 8]) := by
    decide
  have halone' : (unused ⟨2, 4⟩ (some 1)).reported [.put (.ofBytes 8 [1]), .put (.empty 8), .get 7,
      .put (.ofBytes 8 [2])] = .ok (reports', q') := halone
  rw [halone'] at hfacts
  obtain ⟨houtcomes, hlist⟩ := Prod.mk.inj (Except.ok.inj hfacts)
  exact ⟨h, hmem, ⟨reports, q, reports', q', hrun, halone', hfree, hfree.trans hlist, hreports,
    houtcomes⟩, hswap [.put (.ofBytes 8 [1]), .get 3, .put (.empty 8)] _ _
    [.get 16, .put (.ofBytes 8 [2])] rfl hapart⟩

end WireBytes.Pool
