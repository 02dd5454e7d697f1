import Mathlib
import WireBytes.Proofs.Json.Characters
import WireBytes.Proofs.Transport.Spelling

/-!
# Loading part of the options

Options are loaded from an object that names some of their fields, or from an array of the first
ones. What is not given has its default.

* `Transport.Options.Legible` — which members can be read at all: their keys are texts, and no field
  is named twice;
* `Transport.Options.OverriddenBy` — what they are read as: the fields that they name are as they
  spell them, and the others are as they were;
* `Transport.Options.setMembers?_eq_some_iff` — these are all the conditions;
* `Transport.Options.load_object` — objects, and what does not matter in them;
* `Transport.Options.load_array` — arrays, which are as good as the objects with the same values.
-/

namespace WireBytes.Transport.Options

open Json (Value Units)

variable {base o : Options} {seen : List Field} {ms ms' : List (Units × Value)} {text : String}

/-! ### Members -/

/-- Members that can be read where some fields were named before. -/
structure Legible (seen : List Field) (ms : List (Units × Value)) : Prop where
  /-- Every key is a text of characters. -/
  texts : ∀ m ∈ ms, m.1.wellPaired = true
  /-- No field is named again. -/
  fresh : ∀ f ∈ seen, ∀ m ∈ ms, m.1 ≠ f.key
  /-- No field is named twice. -/
  once : ∀ f : Field, ms.countP (·.1 = f.key) ≤ 1

/-- The options with what members say about them instead of what was there. -/
structure OverriddenBy (base : Options) (ms : List (Units × Value)) (o : Options) : Prop where
  /-- A field that is named is as it is spelled. -/
  given : ∀ (f : Field) v, (f.key, v) ∈ ms → f.SpelledBy o v
  /-- A field that is not named is as it was. -/
  kept : ∀ f : Field, (∀ m ∈ ms, m.1 ≠ f.key) → f.get o = f.get base

/-- Whether a member names a field. -/
def isKnown (m : Units × Value) : Bool :=
  (Field.ofKey? m.1).isSome

theorem isKnown_key (f : Field) (v : Value) : isKnown (f.key, v) = true := by
  rw [isKnown, f.ofKey?_key]
  rfl

/-- A key that names no field differs from the keys of all fields. -/
theorem ne_key_of_unknown {k : Units} (hk : Field.ofKey? k = none) (f : Field) : k ≠ f.key := by
  rintro rfl
  rw [f.ofKey?_key] at hk
  cases hk

/-- A field that is counted nowhere is not named. -/
theorem countP_key_eq_zero_iff {f : Field} :
    ms.countP (·.1 = f.key) = 0 ↔ ∀ m ∈ ms, m.1 ≠ f.key := by
  simp [List.countP_eq_zero]

/-! ### One member -/

/-- A member that names no field can be read if its key is a text of characters. -/
theorem legible_cons_of_unknown {k : Units} {v : Value} (hk : Field.ofKey? k = none) :
    Legible seen ((k, v) :: ms) ↔ k.wellPaired = true ∧ Legible seen ms := by
  have hne := ne_key_of_unknown hk
  have hcount (f : Field) : ((k, v) :: ms).countP (·.1 = f.key) = ms.countP (·.1 = f.key) :=
    List.countP_cons_of_neg (by simpa using hne f)
  constructor
  · intro h
    refine ⟨h.texts _ List.mem_cons_self, fun m hm => h.texts m (List.mem_cons_of_mem _ hm),
      fun f hf m hm => h.fresh f hf m (List.mem_cons_of_mem _ hm), fun f => ?_⟩
    rw [← hcount]
    exact h.once f
  · rintro ⟨hwell, h⟩
    refine ⟨List.forall_mem_cons.2 ⟨hwell, h.texts⟩,
      fun f hf => List.forall_mem_cons.2 ⟨hne f, h.fresh f hf⟩, fun f => ?_⟩
    rw [hcount]
    exact h.once f

/-- A field that is named must not be named before or behind. -/
theorem legible_cons_key {f : Field} {v : Value} :
    Legible seen ((f.key, v) :: ms) ↔ f ∉ seen ∧ Legible (f :: seen) ms := by
  have hcount : ((f.key, v) :: ms).countP (·.1 = f.key) = ms.countP (·.1 = f.key) + 1 :=
    List.countP_cons_of_pos (by simp)
  constructor
  · intro h
    -- The member in front is the one that may name the field.
    have hne : ∀ m ∈ ms, m.1 ≠ f.key := by
      have honce := h.once f
      rw [hcount] at honce
      exact countP_key_eq_zero_iff.1 (by omega)
    refine ⟨fun hf => h.fresh f hf _ List.mem_cons_self rfl,
      fun m hm => h.texts m (List.mem_cons_of_mem _ hm), ?_, fun g => ?_⟩
    · rintro g hg m hm
      rcases List.mem_cons.1 hg with rfl | hg
      · exact hne m hm
      · exact h.fresh g hg m (List.mem_cons_of_mem _ hm)
    · have honce := h.once g
      rw [List.countP_cons] at honce
      omega
  · rintro ⟨hf, h⟩
    refine ⟨List.forall_mem_cons.2 ⟨f.wellPaired_key, h.texts⟩, fun g hg => ?_, fun g => ?_⟩
    · refine List.forall_mem_cons.2 ⟨fun heq => ?_, h.fresh g (List.mem_cons_of_mem _ hg)⟩
      obtain rfl := Field.key_inj heq
      exact hf hg
    · by_cases heq : f = g
      · subst heq
        have hnone := countP_key_eq_zero_iff.2 (h.fresh f List.mem_cons_self)
        omega
      · rw [List.countP_cons_of_neg (by simpa using fun hkey => heq (Field.key_inj hkey))]
        exact h.once g

/-- Without members all fields are as they were. -/
theorem overriddenBy_nil : OverriddenBy base [] o ↔ base = o := by
  constructor
  · intro h
    exact ext_get fun f => (h.kept f (by simp)).symm
  · rintro rfl
    exact ⟨by simp, fun f _ => rfl⟩

/-- A member that names no field does not matter. -/
theorem overriddenBy_cons_of_unknown {k : Units} {v : Value} (hk : Field.ofKey? k = none) :
    OverriddenBy base ((k, v) :: ms) o ↔ OverriddenBy base ms o := by
  have hne := ne_key_of_unknown hk
  constructor
  · intro h
    exact ⟨fun f w hm => h.given f w (List.mem_cons_of_mem _ hm),
      fun f hf => h.kept f (List.forall_mem_cons.2 ⟨hne f, hf⟩)⟩
  · intro h
    refine ⟨fun f w hm => ?_, fun f hf => h.kept f (List.forall_mem_cons.1 hf).2⟩
    rcases List.mem_cons.1 hm with heq | hm
    · exact absurd (Prod.mk.inj heq).1.symm (hne f)
    · exact h.given f w hm

/-- A member that names a field overrides it, if it is the only one that names it. -/
theorem overriddenBy_cons_key {f : Field} {v : Value} (hne : ∀ m ∈ ms, m.1 ≠ f.key) :
    OverriddenBy base ((f.key, v) :: ms) o ↔
      f.SpelledBy o v ∧ OverriddenBy (f.copy o base) ms o := by
  constructor
  · intro h
    refine ⟨h.given f v List.mem_cons_self,
      fun g w hm => h.given g w (List.mem_cons_of_mem _ hm), fun g hg => ?_⟩
    rw [Field.get_copy]
    split
    case isTrue => rfl
    case isFalse heq =>
      exact h.kept g (List.forall_mem_cons.2 ⟨fun hkey => heq (Field.key_inj hkey).symm, hg⟩)
  · rintro ⟨hv, h⟩
    refine ⟨fun g w hm => ?_, fun g hg => ?_⟩
    · rcases List.mem_cons.1 hm with heq | hm
      · obtain ⟨hkey, rfl⟩ := Prod.mk.inj heq
        obtain rfl := Field.key_inj hkey
        exact hv
      · exact h.given g w hm
    · obtain ⟨hkey, hg⟩ := List.forall_mem_cons.1 hg
      have hget := h.kept g hg
      rwa [Field.get_copy, if_neg fun heq => hkey (congrArg Field.key heq.symm)] at hget

/-! ### All members -/

/-- **What members are read as.** -/
theorem setMembers?_eq_some_iff :
    setMembers? base seen ms = some o ↔ Legible seen ms ∧ OverriddenBy base ms o := by
  -- What was named before is in `seen`, and what it was set to is in `base`.
  induction ms generalizing base seen with
  | nil =>
    rw [setMembers?, Option.some.injEq, overriddenBy_nil]
    exact (and_iff_right ⟨by simp, by simp, by simp⟩).symm
  | cons m ms ih =>
    obtain ⟨k, v⟩ := m
    rw [setMembers?]
    cases hk : Field.ofKey? k with
    | none =>
      rw [legible_cons_of_unknown hk, overriddenBy_cons_of_unknown hk]
      split
      case isTrue hwell => rw [ih, and_iff_right hwell]
      case isFalse hwell => simp [hwell]
    | some f =>
      obtain rfl := Field.ofKey?_eq_some_iff.1 hk
      rw [if_pos f.wellPaired_key, legible_cons_key]
      by_cases hf : f ∈ seen
      · simp [hf]
      · simp only [hf, if_false, Option.bind_eq_some_iff, ih, not_false_eq_true, true_and]
        constructor
        · rintro ⟨next, hset, hlegible, h⟩
          obtain ⟨hv, hnext⟩ := Field.set?_eq_some_iff.1 hset
          have hne := hlegible.fresh f List.mem_cons_self
          -- The field is not touched again.
          have hget : f.get next = f.get o := (h.kept f hne).symm
          refine ⟨hlegible, (overriddenBy_cons_key hne).2 ⟨Field.spelledBy_of_get_eq hget hv, ?_⟩⟩
          rwa [← Field.copy_of_get_eq hget, hnext]
        · rintro ⟨hlegible, h⟩
          have hne := hlegible.fresh f List.mem_cons_self
          obtain ⟨hv, hrest⟩ := (overriddenBy_cons_key hne).1 h
          exact ⟨_, Field.set?_of_spelledBy hv base, hlegible, hrest⟩

/-- Members that can be read override any options if each of them has the form of its field. -/
theorem exists_overriddenBy (hlegible : Legible seen ms)
    (hforms : ∀ (f : Field) v, (f.key, v) ∈ ms → ∃ source, f.SpelledBy source v) (base : Options) :
    ∃ o, OverriddenBy base ms o := by
  induction ms generalizing base seen with
  | nil => exact ⟨base, overriddenBy_nil.2 rfl⟩
  | cons m ms ih =>
    obtain ⟨k, v⟩ := m
    have hrest : ∀ (f : Field) w, (f.key, w) ∈ ms → ∃ source, f.SpelledBy source w :=
      fun f w hm => hforms f w (List.mem_cons_of_mem _ hm)
    cases hk : Field.ofKey? k with
    | none =>
      obtain ⟨o, h⟩ := ih ((legible_cons_of_unknown hk).1 hlegible).2 hrest base
      exact ⟨o, (overriddenBy_cons_of_unknown hk).2 h⟩
    | some f =>
      obtain rfl := Field.ofKey?_eq_some_iff.1 hk
      have hlegible := (legible_cons_key.1 hlegible).2
      have hne := hlegible.fresh f List.mem_cons_self
      obtain ⟨source, hv⟩ := hforms f v List.mem_cons_self
      obtain ⟨o, h⟩ := ih hlegible hrest (f.copy source base)
      -- The field comes from `source`, and no member behind this one names it.
      have hget : f.get source = f.get o := by
        rw [h.kept f hne, Field.get_copy, if_pos rfl]
      refine ⟨o, (overriddenBy_cons_key hne).2 ⟨Field.spelledBy_of_get_eq hget hv, ?_⟩⟩
      rwa [← Field.copy_of_get_eq hget]

/-- Only the members that name fields matter, and not in which order they stand. -/
theorem OverriddenBy.of_perm (h : OverriddenBy base ms o)
    (hperm : (ms.filter isKnown).Perm (ms'.filter isKnown)) : OverriddenBy base ms' o := by
  have hmem (f : Field) (v : Value) : (f.key, v) ∈ ms ↔ (f.key, v) ∈ ms' := by
    have hiff := hperm.mem_iff (a := (f.key, v))
    rwa [List.mem_filter, List.mem_filter, and_iff_left (isKnown_key f v),
      and_iff_left (isKnown_key f v)] at hiff
  refine ⟨fun f v hm => h.given f v ((hmem f v).2 hm), fun f hne => h.kept f ?_⟩
  rintro ⟨k, v⟩ hm rfl
  exact hne _ ((hmem f v).1 hm) rfl

/-- Whether members can be read depends neither on their order nor on those that name no field, as
    long as every key is a text. -/
theorem Legible.of_perm (h : Legible [] ms) (htexts : ∀ m ∈ ms', m.1.wellPaired = true)
    (hperm : (ms.filter isKnown).Perm (ms'.filter isKnown)) : Legible [] ms' := by
  have hcount (f : Field) (l : List (Units × Value)) :
      (l.filter isKnown).countP (·.1 = f.key) = l.countP (·.1 = f.key) := by
    rw [List.countP_filter]
    apply List.countP_congr
    rintro ⟨k, v⟩ -
    simp only [Bool.and_eq_true, decide_eq_true_eq, and_iff_left_iff_imp]
    rintro rfl
    exact isKnown_key f v
  refine ⟨htexts, by simp, fun f => ?_⟩
  rw [← hcount, ← hperm.countP_eq, hcount]
  exact h.once f

/-! ### Objects -/

/-- From an object options are loaded exactly if its members can be read, and they are the default
    ones overridden by the members. -/
theorem load_eq_some_iff (h : Json.parse text = some (.object ms)) :
    load text = some o ↔ Legible [] ms ∧ OverriddenBy default ms o := by
  rw [load, h, ← setMembers?_eq_some_iff]
  rfl

/-- Nothing is loaded if no options are what the members say. -/
theorem load_eq_none (h : Json.parse text = some (.object ms))
    (hno : Legible [] ms → ∀ o, ¬ OverriddenBy default ms o) : load text = none := by
  rw [Option.eq_none_iff_forall_ne_some]
  intro o ho
  obtain ⟨hlegible, ho⟩ := (load_eq_some_iff h).1 ho
  exact hno hlegible o ho

/-- **Objects.** If every key is a text of characters, no field is named twice, and every field that
    is named has a value of its form, options are loaded: those fields are as they are spelled, and
    the others have their defaults. Neither the order of the members nor those that name no field
    matter. If a field is named twice or has a value of another form, or a key is no text, nothing
    is loaded. -/
theorem load_object (ms : List (Units × Value)) :
    (∃ text, Json.parse text = some (.object ms)) ∧
      ∀ text, Json.parse text = some (.object ms) →
        ((∀ m ∈ ms, ∃ s : String, Units.ofString s = m.1) →
          (∀ f : Field, ms.countP (·.1 = f.key) ≤ 1) →
          (∀ (f : Field) v, (f.key, v) ∈ ms → ∃ source, f.SpelledBy source v) →
          ∃ o, load text = some o ∧ OverriddenBy default ms o ∧
            ∀ text' ms', Json.parse text' = some (.object ms') →
              (∀ m ∈ ms', ∃ s : String, Units.ofString s = m.1) →
              (ms.filter isKnown).Perm (ms'.filter isKnown) → load text' = some o) ∧
        (∀ (f : Field) v w before between after,
          ms = before ++ (f.key, v) :: (between ++ (f.key, w) :: after) → load text = none) ∧
        (∀ (f : Field) v, (f.key, v) ∈ ms → (∀ source, ¬ f.SpelledBy source v) →
          load text = none) ∧
        ∀ m ∈ ms, (∀ s : String, Units.ofString s ≠ m.1) → load text = none := by
  refine ⟨⟨_, Json.parse_render (.object ms)⟩, fun text h => ⟨?_, ?_, ?_, ?_⟩⟩
  · intro htexts honce hforms
    have hlegible : Legible [] ms :=
      ⟨fun m hm => Units.wellPaired_iff.2 (htexts m hm), by simp, honce⟩
    obtain ⟨o, ho⟩ := exists_overriddenBy hlegible hforms default
    refine ⟨o, (load_eq_some_iff h).2 ⟨hlegible, ho⟩, ho, ?_⟩
    intro text' ms' h' htexts' hperm
    have htexts' : ∀ m ∈ ms', m.1.wellPaired = true :=
      fun m hm => Units.wellPaired_iff.2 (htexts' m hm)
    exact (load_eq_some_iff h').2 ⟨hlegible.of_perm htexts' hperm, ho.of_perm hperm⟩
  · rintro f v w before between after rfl
    refine load_eq_none h fun hlegible _ _ => ?_
    have honce := hlegible.once f
    rw [List.countP_append, List.countP_cons_of_pos (by simp), List.countP_append,
      List.countP_cons_of_pos (by simp)] at honce
    omega
  · intro f v hm hform
    exact load_eq_none h fun _ o ho => hform o (ho.given f v hm)
  · intro m hm hkey
    refine load_eq_none h fun hlegible _ _ => ?_
    obtain ⟨s, hs⟩ := Units.wellPaired_iff.1 (hlegible.texts m hm)
    exact hkey s hs

/-- Two objects with the same two fields. In the first one a key that names no field stands twice,
    and the billionths of the duration make up a second. -/
theorem load_object_of_mixed_members :
    let timeout : Value := .array [.nat 2, .nat 1500000000]
    let members : List (Units × Value) :=
      [(Units.ofString "x", .array [.object [([0xd800], .null)]]),
        (Units.ofString "nodelay", .bool false), (Units.ofString "x", .null),
        (Units.ofString "timeout", timeout)]
    let members' : List (Units × Value) :=
      [(Units.ofString "timeout", timeout), (Units.ofString "nodelay", .bool false)]
    ∃ o, load (String.ofList (Value.object members).render) = some o ∧
      load (String.ofList (Value.object members').render) = some o ∧
      o.noDelay = false ∧ o.timeout = ⟨3, 500000000, by decide⟩ ∧ o.keepAlive = true := by
  intro timeout members members'
  obtain ⟨-, hload⟩ := load_object members
  obtain ⟨hload, -⟩ := hload _ (Json.parse_render _)
  have htexts : ∀ m ∈ members, ∃ s : String, Units.ofString s = m.1 := by
    simp only [members, List.forall_mem_cons]
    exact ⟨⟨_, rfl⟩, ⟨_, rfl⟩, ⟨_, rfl⟩, ⟨_, rfl⟩, by simp⟩
  have honce : ∀ f : Field, members.countP (·.1 = f.key) ≤ 1 := by
    intro f
    cases f <;> decide
  have hforms : ∀ (f : Field) v, (f.key, v) ∈ members → ∃ source, f.SpelledBy source v := by
    intro f v hm
    simp only [members, List.mem_cons, List.not_mem_nil, or_false, Prod.mk.injEq] at hm
    have hx : f.key ≠ Units.ofString "x" := by cases f <;> decide
    obtain ⟨hk, -⟩ | ⟨hk, rfl⟩ | ⟨hk, -⟩ | ⟨hk, rfl⟩ := hm
    · exact absurd hk hx
    · obtain rfl := Field.key_inj (g := .noDelay) hk
      exact ⟨{ default with noDelay := false }, rfl⟩
    · exact absurd hk hx
    · obtain rfl := Field.key_inj (g := .timeout) hk
      exact ⟨{ default with timeout := ⟨3, 500000000, by decide⟩ }, .array (by decide) (by decide)⟩
  obtain ⟨o, ho, ⟨hgiven, hkept⟩, hsame⟩ := hload htexts honce hforms
  have htexts' : ∀ m ∈ members', ∃ s : String, Units.ofString s = m.1 := by
    simp only [members', List.forall_mem_cons]
    exact ⟨⟨_, rfl⟩, ⟨_, rfl⟩, by simp⟩
  refine ⟨o, ho, hsame _ _ (Json.parse_render _) htexts' (.swap _ _ _), ?_, ?_, ?_⟩
  · have hv : Value.bool false = .bool o.noDelay := hgiven .noDelay _ (.tail _ (.head _))
    exact (Value.bool.inj hv).symm
  · have hv : o.timeout.SpelledBy timeout :=
      hgiven .timeout _ (.tail _ (.tail _ (.tail _ (.head _))))
    have hread : Duration.ofJson? timeout = some ⟨3, 500000000, by decide⟩ := by decide
    rw [Duration.ofJson?_eq_some_iff.2 hv] at hread
    exact Option.some.inj hread
  · have hget := hkept .keepAlive (by simp only [members, List.forall_mem_cons]; decide)
    exact Value.bool.inj hget

/-! ### Arrays -/

/-- Values in the order of the fields are as good as members under their keys. -/
theorem setElements?_eq_setMembers? {fields : List Field} {vs : List Value}
    (hnodup : fields.Nodup) (hseen : ∀ f ∈ fields, f ∉ seen)
    (hlength : vs.length ≤ fields.length) (base : Options) :
    setElements? base fields vs = setMembers? base seen ((fields.map Field.key).zip vs) := by
  induction vs generalizing fields seen base with
  | nil => rw [setElements?, List.zip_nil_right, setMembers?]
  | cons v vs ih =>
    cases fields with
    | nil => cases hlength
    | cons f fields =>
      have hfresh : f ∉ seen := hseen f List.mem_cons_self
      have hlength : vs.length ≤ fields.length := Nat.le_of_succ_le_succ hlength
      rw [setElements?, List.map_cons, List.zip_cons_cons, setMembers?, if_pos f.wellPaired_key,
        f.ofKey?_key]
      simp only [if_neg hfresh]
      -- Both go on from the options in which this field is set.
      congr 1
      funext next
      exact ih (List.nodup_cons.1 hnodup).2 (notMem_seen hnodup hseen) hlength next

/-- No field stands twice among the members that an array stands for. -/
theorem legible_zip {fields : List Field} {vs : List Value} (hnodup : fields.Nodup)
    (hseen : ∀ f ∈ fields, f ∉ seen) : Legible seen ((fields.map Field.key).zip vs) := by
  induction vs generalizing fields seen with
  | nil => rw [List.zip_nil_right]; exact ⟨by simp, by simp, by simp⟩
  | cons v vs ih =>
    cases fields with
    | nil => exact ⟨by simp, by simp, by simp⟩
    | cons f fields =>
      have hrest := ih (List.nodup_cons.1 hnodup).2 (notMem_seen hnodup hseen)
      exact legible_cons_key.2 ⟨hseen f List.mem_cons_self, hrest⟩

/-- More values than fields cannot be read, whatever they are. -/
theorem setElements?_of_lt {fields : List Field} {vs : List Value}
    (h : fields.length < vs.length) (base : Options) : setElements? base fields vs = none := by
  induction vs generalizing fields base with
  | nil => cases h
  | cons v vs ih =>
    cases fields with
    | nil => rw [setElements?]
    | cons f fields =>
      have h : fields.length < vs.length := Nat.lt_of_succ_lt_succ h
      rw [setElements?, Option.bind_eq_none_iff]
      intro next _
      exact ih h next

/-- **Arrays.** An array of at most eight values, whatever they are, is read as the object that
    binds the first fields to them, or neither of them can be read: the first fields are as they are
    spelled, and the others have their defaults. A longer array cannot be read. -/
theorem load_array (vs : List Value) :
    let keys := ["timeout", "keep-alive", "keep-alive-period", "linger", "nodelay", "sockbuf",
      "readBufferSize", "writeBufferSize"].map Units.ofString
    (∃ text text', Json.parse text = some (.array vs) ∧
      Json.parse text' = some (.object (keys.zip vs))) ∧
      (vs.length ≤ 8 → ∀ text text', Json.parse text = some (.array vs) →
        Json.parse text' = some (.object (keys.zip vs)) →
          load text = load text' ∧
            ∀ o, load text = some o ↔ OverriddenBy default (keys.zip vs) o) ∧
      (8 < vs.length → ∀ text, Json.parse text = some (.array vs) → load text = none) := by
  intro keys
  refine ⟨⟨_, _, Json.parse_render _, Json.parse_render _⟩, ?_, ?_⟩
  · intro hlength text text' h h'
    have hnodup : Field.all.Nodup := by decide
    have hsame : load text = load text' := by
      rw [load, h, load, h']
      exact setElements?_eq_setMembers? hnodup (by simp) hlength default
    have hlegible : Legible [] (keys.zip vs) := legible_zip hnodup (by simp)
    refine ⟨hsame, fun o => ?_⟩
    rw [hsame, load_eq_some_iff h', and_iff_right hlegible]
  · intro hlength text h
    rw [load, h]
    have hmore : Field.all.length < vs.length := hlength
    exact setElements?_of_lt hmore default

/-- An array of two values and the object with the same values; and the values of all fields with
    one more behind them. -/
theorem load_array_of_two_values :
    let members : List (Units × Value) :=
      [(Units.ofString "timeout", .array [.nat 2, .nat 0]),
        (Units.ofString "keep-alive", .bool false)]
    load "[[2,0],false]" = load (String.ofList (Value.object members).render) ∧
      load "[[2,0],false]" =
        some { default with timeout := ⟨2, 0, by decide⟩, keepAlive := false } ∧
      load "[[2,0],true,[3,0],null,true,1,2,3,[]]" = none := by
  intro members
  obtain ⟨-, hkeyed, -⟩ := load_array [.array [.nat 2, .nat 0], .bool false]
  obtain ⟨-, -, hmore⟩ := load_array [.array [.nat 2, .nat 0], .bool true, .array [.nat 3, .nat 0],
    .null, .bool true, .nat 1, .nat 2, .nat 3, .array []]
  have hparse : Json.parse "[[2,0],false]" =
      some (.array [.array [.nat 2, .nat 0], .bool false]) := by cbv
  obtain ⟨hsame, -⟩ := hkeyed (by decide) _ _ hparse (Json.parse_render (.object members))
  refine ⟨hsame, ?_, hmore (by decide) _ (by cbv)⟩
  rw [load, hparse]
  decide

end WireBytes.Transport.Options
