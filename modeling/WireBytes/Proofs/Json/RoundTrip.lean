import Mathlib
import WireBytes.Proofs.Json.Number
import WireBytes.Proofs.Json.Text

/-!
# Reading back a value

Every value that was written is read back as it was: nested to any depth, with repeated keys, with
halves of surrogate pairs, with any digits.

* `Json.Value.induction` — induction over a value and the values in it;
* `Json.Value.ReadsBack` — what is shown by it: the text of the value is read, and no more of the
  text than that; as many steps as the text has characters are enough;
* `Json.elements_render` and `Json.members_render` — lists of values that read back do so too;
* `Json.parse_render` — the consequence for whole texts.
-/

namespace WireBytes.Json

/-! ### Induction over values -/

/-- What holds of a value if it holds of all values in it holds of every value. -/
@[elab_as_elim]
theorem Value.induction {motive : Value → Prop} (null : motive .null)
    (bool : ∀ b, motive (.bool b)) (number : ∀ n, motive (.number n))
    (string : ∀ s, motive (.string s))
    (array : ∀ vs, (∀ v ∈ vs, motive v) → motive (.array vs))
    (object : ∀ ms : List (Units × Value), (∀ m ∈ ms, motive m.2) → motive (.object ms))
    (v : Value) : motive v :=
  match v with
  | .null => null
  | .bool b => bool b
  | .number n => number n
  | .string s => string s
  | .array vs => array vs fun v _ => induction null bool number string array object v
  | .object ms => object ms fun m _ => induction null bool number string array object m.2
termination_by sizeOf v
decreasing_by
  · have := List.sizeOf_lt_of_mem ‹v ∈ vs›
    simp
    omega
  · have := List.sizeOf_lt_of_mem ‹m ∈ ms›
    have : sizeOf m.2 < sizeOf m := by
      cases m
      simp
    simp
    omega

namespace Value

/-- The text of a value is read back, if enough steps are allowed and what follows could not be a
    part of a number. -/
def ReadsBack (v : Value) : Prop :=
  ∀ (fuel : Nat) (rest : List Char), v.render.length ≤ fuel → endsNumber rest →
    value fuel (v.render ++ rest) = some (v, rest)

end Value

/-! ### Scalars -/

/-- A number begins with a digit or with a sign. -/
theorem Number.render_eq_cons (n : Number) :
    ∃ c cs, n.render = c :: cs ∧ (c.isDigit ∨ c = '-') := by
  obtain ⟨negative, w, f, e⟩ := n
  cases negative with
  | true => exact ⟨'-', _, rfl, .inr rfl⟩
  | false =>
    obtain ⟨c, cs, hdigits, hdigit, -⟩ := toDigits_eq_cons w
    refine ⟨c, cs ++ Number.renderFraction f ++ Number.renderExponent e, ?_, .inl hdigit⟩
    simp [Number.render, hdigits]

/-- What begins as a number is no word, no text, no array and no object, and is not blank. -/
theorem ne_of_number {c : Char} (h : c.isDigit ∨ c = '-') :
    c ≠ '"' ∧ c ≠ 'n' ∧ c ≠ 't' ∧ c ≠ 'f' ∧ c ≠ '[' ∧ c ≠ ']' ∧ c ≠ '\x7b' ∧
      isBlank c = false := by
  have hblank : isBlank c = true → ¬ (c.isDigit ∨ c = '-') := by
    intro hb
    simp only [isBlank, Bool.or_eq_true, decide_eq_true_eq] at hb
    rcases hb with ((rfl | rfl) | rfl) | rfl <;> decide
  refine ⟨?_, ?_, ?_, ?_, ?_, ?_, ?_, ?_⟩
  case refine_8 => exact Bool.eq_false_iff.2 fun hb => hblank hb h
  all_goals
    rintro rfl
    exact absurd h (by decide)

/-- A number is read back as a scalar. -/
theorem scalar_number (n : Number) {rest : List Char} (hrest : endsNumber rest) :
    scalar (n.render ++ rest) = some (.number n, rest) := by
  have hread := number_render n hrest
  obtain ⟨c, cs, hrender, hc⟩ := n.render_eq_cons
  obtain ⟨hquote, hn, ht, hf, -⟩ := ne_of_number hc
  rw [hrender, List.cons_append] at hread ⊢
  unfold scalar
  split
  · simp_all
  · simp [word?, hn.symm, ht.symm, hf.symm, hread]

/-- What begins neither an array nor an object is read as a scalar. -/
theorem value_of_scalar {c : Char} {cs : List Char} (hblank : isBlank c = false) (harray : c ≠ '[')
    (hobject : c ≠ '\x7b') (fuel : Nat) : value (fuel + 1) (c :: cs) = scalar (c :: cs) := by
  rw [value, skipBlanks_cons hblank]
  split <;> simp_all

/-- A value begins with a character that is not blank and does not close an array. -/
theorem Value.render_eq_cons (v : Value) :
    ∃ c cs, v.render = c :: cs ∧ isBlank c = false ∧ c ≠ ']' := by
  match v with
  | .null | .bool true | .bool false | .string _ | .array [] | .array (_ :: _) | .object []
  | .object (_ :: _) => exact ⟨_, _, by simp only [render]; rfl, by decide, by decide⟩
  | .number n =>
    obtain ⟨c, cs, hrender, hc⟩ := n.render_eq_cons
    obtain ⟨-, -, -, -, -, hclose, -, hblank⟩ := ne_of_number hc
    exact ⟨c, cs, by rw [render, hrender], hblank, hclose⟩

/-! ### Elements and members -/

/-- The last element is the one before the closing bracket. -/
theorem elements_last {fuel : Nat} {s rest : List Char} {v : Value}
    (hv : value fuel s = some (v, ']' :: rest)) : elements (fuel + 1) s = some ([v], rest) := by
  have hclose : skipBlanks (']' :: rest) = ']' :: rest := skipBlanks_cons (by decide) _
  simp only [elements, hv, Option.bind_eq_bind, Option.bind_some, hclose]
  rfl

/-- An element before a comma has others behind it. -/
theorem elements_cons {fuel : Nat} {s rest last : List Char} {v : Value} {vs : List Value}
    (hv : value fuel s = some (v, ',' :: rest)) (hvs : elements fuel rest = some (vs, last)) :
    elements (fuel + 1) s = some (v :: vs, last) := by
  have hcomma : skipBlanks (',' :: rest) = ',' :: rest := skipBlanks_cons (by decide) _
  simp only [elements, hv, Option.bind_eq_bind, Option.bind_some, hcomma, hvs]
  rfl

theorem members_last {fuel : Nat} {s rest : List Char} {k : Units} {v : Value}
    (hv : value fuel s = some (v, '\x7d' :: rest)) :
    members (fuel + 1) (renderString k ++ ':' :: s) = some ([(k, v)], rest) := by
  have hclose : skipBlanks ('\x7d' :: rest) = '\x7d' :: rest := skipBlanks_cons (by decide) _
  simp only [members, key_renderString, hv, Option.bind_eq_bind, Option.bind_some, hclose]
  rfl

theorem members_cons {fuel : Nat} {s rest last : List Char} {k : Units} {v : Value}
    {ms : List (Units × Value)} (hv : value fuel s = some (v, ',' :: rest))
    (hms : members fuel rest = some (ms, last)) :
    members (fuel + 1) (renderString k ++ ':' :: s) = some ((k, v) :: ms, last) := by
  have hcomma : skipBlanks (',' :: rest) = ',' :: rest := skipBlanks_cons (by decide) _
  simp only [members, key_renderString, hv, Option.bind_eq_bind, Option.bind_some, hcomma, hms]
  rfl

/-- Elements that read back do so as a list. -/
theorem elements_render {v : Value} {vs : List Value} (h : ∀ w ∈ v :: vs, w.ReadsBack) (fuel : Nat)
    (rest : List Char) (hfuel : v.render.length + (Value.renderElements vs).length ≤ fuel) :
    elements fuel (v.render ++ (Value.renderElements vs ++ rest)) = some (v :: vs, rest) := by
  have hv : v.ReadsBack := h v List.mem_cons_self
  induction vs generalizing v fuel with
  | nil =>
    rw [Value.renderElements, List.length_singleton] at hfuel
    obtain ⟨fuel, rfl⟩ := Nat.exists_eq_add_one.2 (show 0 < fuel by omega)
    rw [Value.renderElements]
    exact elements_last (hv fuel (']' :: rest) (by omega) rfl)
  | cons w vs ih =>
    have htail : ∀ x ∈ w :: vs, x.ReadsBack := fun x hx => h x (List.mem_cons_of_mem _ hx)
    rw [Value.renderElements, List.length_cons, List.length_append] at hfuel
    obtain ⟨fuel, rfl⟩ := Nat.exists_eq_add_one.2 (show 0 < fuel by omega)
    have hvs := ih htail fuel (by omega) (htail w List.mem_cons_self)
    rw [Value.renderElements, List.cons_append, List.append_assoc]
    exact elements_cons (hv fuel _ (by omega) rfl) hvs

/-- Members whose values read back do so as a list. -/
theorem members_render {k : Units} {v : Value} {ms : List (Units × Value)}
    (h : ∀ m ∈ (k, v) :: ms, m.2.ReadsBack) (fuel : Nat) (rest : List Char)
    (hfuel : v.render.length + (Value.renderMembers ms).length ≤ fuel) :
    members fuel (renderString k ++ ':' :: (v.render ++ (Value.renderMembers ms ++ rest))) =
      some ((k, v) :: ms, rest) := by
  -- Every member takes one step, and its text is longer than that.
  have hv : v.ReadsBack := h (k, v) List.mem_cons_self
  induction ms generalizing k v fuel with
  | nil =>
    rw [Value.renderMembers, List.length_singleton] at hfuel
    obtain ⟨fuel, rfl⟩ := Nat.exists_eq_add_one.2 (show 0 < fuel by omega)
    rw [Value.renderMembers]
    exact members_last (hv fuel ('\x7d' :: rest) (by omega) rfl)
  | cons m ms ih =>
    obtain ⟨l, w⟩ := m
    have htail : ∀ x ∈ (l, w) :: ms, x.2.ReadsBack := fun x hx => h x (List.mem_cons_of_mem _ hx)
    rw [Value.renderMembers, List.length_cons, List.length_append, List.length_cons,
      List.length_append] at hfuel
    obtain ⟨fuel, rfl⟩ := Nat.exists_eq_add_one.2 (show 0 < fuel by omega)
    have hms := ih htail fuel (by omega) (htail (l, w) List.mem_cons_self)
    rw [Value.renderMembers, List.cons_append, List.append_assoc, List.cons_append,
      List.append_assoc]
    exact members_cons (hv fuel _ (by omega) rfl) hms

/-! ### Values -/

/-- An opening bracket that is not closed at once begins an array with elements. -/
theorem value_of_elements {fuel : Nat} {c : Char} {cs rest : List Char} {vs : List Value}
    (hblank : isBlank c = false) (hclose : c ≠ ']')
    (hvs : elements fuel (c :: cs) = some (vs, rest)) :
    value (fuel + 1) ('[' :: c :: cs) = some (.array vs, rest) := by
  have hopen : skipBlanks ('[' :: c :: cs) = '[' :: c :: cs := skipBlanks_cons (by decide) _
  rw [value, hopen]
  simp only [skipBlanks_cons hblank, hvs]
  split <;> simp_all

/-- An opening brace before a quote begins an object with members. -/
theorem value_of_members {fuel : Nat} {cs rest : List Char} {ms : List (Units × Value)}
    (hms : members fuel ('"' :: cs) = some (ms, rest)) :
    value (fuel + 1) ('\x7b' :: '"' :: cs) = some (.object ms, rest) := by
  have hopen : skipBlanks ('\x7b' :: '"' :: cs) = '\x7b' :: '"' :: cs :=
    skipBlanks_cons (by decide) _
  have hquote : skipBlanks ('"' :: cs) = '"' :: cs := skipBlanks_cons (by decide) _
  rw [value, hopen]
  simp only [hquote, hms]
  rfl

/-- A value that is neither an array nor an object reads back if it does as a scalar. -/
theorem Value.ReadsBack.of_scalar {v : Value} {c : Char} {cs : List Char}
    (hrender : v.render = c :: cs) (hblank : isBlank c = false) (harray : c ≠ '[')
    (hobject : c ≠ '\x7b')
    (hscalar : ∀ rest, endsNumber rest → scalar (v.render ++ rest) = some (v, rest)) :
    v.ReadsBack := by
  intro fuel rest hfuel hrest
  have hread := hscalar rest hrest
  rw [hrender] at hfuel hread ⊢
  obtain ⟨fuel, rfl⟩ := Nat.exists_eq_add_one.2 (Nat.lt_of_lt_of_le (by simp) hfuel)
  rw [List.cons_append, value_of_scalar hblank harray hobject]
  exact hread

/-- **A value is read back.** -/
theorem Value.readsBack (v : Value) : v.ReadsBack := by
  induction v using Value.induction with
  | null =>
    refine .of_scalar (by rw [render]; rfl) (by decide) (by decide) (by decide) fun rest _ => ?_
    simp [render, scalar, word?]
  | bool b =>
    cases b with
    | true =>
      refine .of_scalar (by rw [render]; rfl) (by decide) (by decide) (by decide) fun rest _ => ?_
      simp [render, scalar, word?]
    | false =>
      refine .of_scalar (by rw [render]; rfl) (by decide) (by decide) (by decide) fun rest _ => ?_
      simp [render, scalar, word?]
  | number n =>
    obtain ⟨c, cs, hrender, hc⟩ := n.render_eq_cons
    obtain ⟨-, -, -, -, harray, -, hobject, hblank⟩ := ne_of_number hc
    refine .of_scalar (by rw [render, hrender]) hblank harray hobject fun rest hrest => ?_
    rw [render]
    exact scalar_number n hrest
  | string s =>
    refine .of_scalar (by rw [render]; rfl) (by decide) (by decide) (by decide) fun rest _ => ?_
    simp [render, renderString, scalar, string_renderUnits]
  | array vs ih =>
    intro fuel rest hfuel _
    cases vs with
    | nil =>
      rw [render] at hfuel ⊢
      obtain ⟨fuel, rfl⟩ := Nat.exists_eq_add_one.2 (Nat.lt_of_lt_of_le (by simp) hfuel)
      rfl
    | cons v vs =>
      rw [render, List.length_cons, List.length_append] at hfuel
      obtain ⟨fuel, rfl⟩ := Nat.exists_eq_add_one.2 (show 0 < fuel by omega)
      have hvs := elements_render ih fuel rest (by omega)
      -- The first element begins neither with a blank nor with the bracket that closes the array.
      obtain ⟨c, cs, hrender, hblank, hclose⟩ := v.render_eq_cons
      rw [hrender, List.cons_append] at hvs
      rw [render, hrender]
      simp only [List.cons_append, List.append_assoc]
      exact value_of_elements hblank hclose hvs
  | object ms ih =>
    intro fuel rest hfuel _
    cases ms with
    | nil =>
      rw [render] at hfuel ⊢
      obtain ⟨fuel, rfl⟩ := Nat.exists_eq_add_one.2 (Nat.lt_of_lt_of_le (by simp) hfuel)
      rfl
    | cons m ms =>
      obtain ⟨k, v⟩ := m
      rw [render, List.length_cons, List.length_append, List.length_cons,
        List.length_append] at hfuel
      obtain ⟨fuel, rfl⟩ := Nat.exists_eq_add_one.2 (show 0 < fuel by omega)
      have hms := members_render ih fuel rest (by omega)
      rw [render]
      simp only [renderString, List.cons_append, List.append_assoc] at hms ⊢
      exact value_of_members hms

/-- **A text is read back.** The text of any value is one value, and it is that value. -/
theorem parse_render (v : Value) : parse (String.ofList v.render) = some v := by
  have hread := v.readsBack (2 * v.render.length + 2) [] (by omega) rfl
  rw [List.append_nil] at hread
  simp only [parse, String.toList_ofList, hread, Option.bind_eq_bind, Option.bind_some]
  rfl

end WireBytes.Json
