import Mathlib
import WireBytes.Json.Parser
import WireBytes.Json.Printer

/-!
# Reading back a number

A number that was written is read back as it was, if what follows it could not be a part of it.

* `Json.endsNumber` — what may follow a number;
* `Json.digits_append` — digits are read up to the first character that is none;
* `Json.number_render` — the parts of a number are read back one after another.
-/

namespace WireBytes.Json

/-- Whether a text does not go on with a digit. -/
def endsDigits : List Char → Bool
  | [] => true
  | c :: _ => !c.isDigit

/-- Whether a text does not go on with a part of a number. -/
def endsNumber : List Char → Bool
  | [] => true
  | c :: _ => !c.isDigit && c != '.' && c != 'e' && c != 'E'

theorem endsDigits_of_endsNumber {rest : List Char} (h : endsNumber rest) : endsDigits rest := by
  cases rest <;> simp_all [endsNumber, endsDigits]

/-! ### Digits -/

/-- Digits are read up to the first character that is none. -/
theorem digits_append {ds rest : List Char} (hne : ds ≠ []) (hds : ∀ c ∈ ds, c.isDigit)
    (hrest : endsDigits rest) : digits (ds ++ rest) = some (ds, rest) := by
  have htake : rest.takeWhile Char.isDigit = [] := by
    cases rest <;> simp_all [endsDigits]
  have hdrop : rest.dropWhile Char.isDigit = rest := by
    cases rest <;> simp_all [endsDigits]
  unfold digits
  rw [List.takeWhile_append_of_pos hds, List.dropWhile_append_of_pos hds, htake, hdrop,
    List.append_nil]
  split <;> simp_all

/-- All digits of a number are read, and what is behind them is left. -/
theorem digits_toDigits (n : Nat) {rest : List Char} (hrest : endsDigits rest) :
    digits (Nat.toDigits 10 n ++ rest) = some (Nat.toDigits 10 n, rest) :=
  digits_append Nat.toDigits_ne_nil
    (fun _ hc => Nat.isDigit_of_mem_toDigits (by decide) (by decide) hc) hrest

/-- The digits of a number have its value. -/
@[simp] theorem digitsValue_toDigits (n : Nat) : digitsValue (Nat.toDigits 10 n) = n :=
  Nat.ofDigitChars_ten_toDigits

/-- A written number begins with a digit, which is no zero unless the number is. -/
theorem toDigits_eq_cons (n : Nat) :
    ∃ c cs, Nat.toDigits 10 n = c :: cs ∧ c.isDigit ∧ (n ≠ 0 → c ≠ '0') := by
  induction n using Nat.strong_induction_on with
  | _ n ih =>
    rcases Nat.lt_or_ge n 10 with hlt | hge
    · refine ⟨n.digitChar, [], Nat.toDigits_of_lt_base hlt, ?_, ?_⟩
      · simpa [Nat.isDigit_digitChar] using hlt
      · intro hn
        rwa [Ne, Nat.digitChar_eq_zero]
    · -- The first digit is that of the tenth part.
      obtain ⟨c, cs, hdigits, hdigit, hzero⟩ := ih (n / 10) (by omega)
      refine ⟨c, cs ++ [(n % 10).digitChar], ?_, hdigit, fun _ => hzero (by omega)⟩
      rw [Nat.toDigits_of_base_le (by decide) hge, hdigits]
      rfl

/-! ### The parts of a number -/

/-- The whole part of a number is read back, also where it is zero. -/
theorem whole_toDigits (n : Nat) {rest : List Char} (hrest : endsDigits rest) :
    whole (Nat.toDigits 10 n ++ rest) = some (n, rest) := by
  by_cases hn : n = 0
  · subst hn
    rfl
  · -- The first digit is no zero, so that it is not read as the whole number.
    obtain ⟨c, cs, hdigits, -, hzero⟩ := toDigits_eq_cons n
    have hread := digits_toDigits n hrest
    rw [hdigits, List.cons_append] at hread ⊢
    unfold whole
    split
    · exact absurd (by simp_all) (hzero hn)
    · rw [hread, ← hdigits]
      simp

/-- The value of each decimal is the decimal. -/
theorem map_digitChar (ds : List (Fin 10)) :
    (ds.map fun d => Nat.digitChar d.val).map (fun c => Fin.ofNat 10 (c.toNat - 48)) = ds := by
  have hvalue : ∀ d : Fin 10, Fin.ofNat 10 (d.val.digitChar.toNat - 48) = d := by decide
  rw [List.map_map]
  exact List.map_id'' hvalue ds

/-- The digits behind the point are read back, and where there are none no point is read. -/
theorem fraction_render (ds : List (Fin 10)) {rest : List Char} (hdigits : endsDigits rest)
    (hpoint : ds = [] → rest.head? ≠ some '.') :
    fraction (Number.renderFraction ds ++ rest) = some (ds, rest) := by
  cases ds with
  | nil =>
    unfold fraction Number.renderFraction
    split <;> simp_all
  | cons d ds =>
    have hread : digits ((d :: ds).map (fun d => Nat.digitChar d.val) ++ rest) =
        some ((d :: ds).map (fun d => Nat.digitChar d.val), rest) := by
      refine digits_append (by simp) (fun c hc => ?_) hdigits
      obtain ⟨d, -, rfl⟩ := List.mem_map.1 hc
      simp [Nat.isDigit_digitChar]
    simp only [Number.renderFraction, List.cons_append, fraction, hread, Option.bind_eq_bind,
      Option.bind_some, map_digitChar]
    rfl

/-- A power without a sign is read back. -/
theorem signed_toDigits (n : Nat) {rest : List Char} (hrest : endsDigits rest) :
    signed (Nat.toDigits 10 n ++ rest) = some ((n : Int), rest) := by
  obtain ⟨c, cs, hdigits, hdigit, -⟩ := toDigits_eq_cons n
  have hread := digits_toDigits n hrest
  rw [hdigits, List.cons_append] at hread ⊢
  unfold signed
  -- A digit is not a sign.
  split
  · simp_all
  · simp_all
  · rw [hread, ← hdigits]
    simp

/-- The power of ten is read back with its sign, and where there is none no letter is read. -/
theorem exponent_render (e : Option Int) {rest : List Char} (hrest : endsNumber rest) :
    exponent (Number.renderExponent e ++ rest) = some (e, rest) := by
  have hdigits := endsDigits_of_endsNumber hrest
  match e with
  | none => cases rest <;> simp_all [exponent, endsNumber, Number.renderExponent]
  | some (.ofNat n) =>
    simp [Number.renderExponent, exponent, signed_toDigits n hdigits]
  | some (.negSucc n) =>
    simp [Number.renderExponent, exponent, signed, digits_toDigits (n + 1) hdigits,
      Int.negSucc_eq]

/-! ### Numbers -/

/-- The power of ten begins with its mark, and so ends the digits before it. -/
theorem endsDigits_exponent (e : Option Int) {rest : List Char} (hrest : endsNumber rest) :
    endsDigits (Number.renderExponent e ++ rest) := by
  match e with
  | none => exact endsDigits_of_endsNumber hrest
  | some (.ofNat n) => rfl
  | some (.negSucc n) => rfl

/-- The digits after the point begin with the point, and so end the digits before it. -/
theorem endsDigits_fraction (ds : List (Fin 10)) {rest : List Char} (hrest : endsDigits rest) :
    endsDigits (Number.renderFraction ds ++ rest) := by
  cases ds with
  | nil => exact hrest
  | cons d ds => rfl

/-- The power of ten does not begin with a point. -/
theorem head?_exponent (e : Option Int) {rest : List Char} (hrest : endsNumber rest) :
    (Number.renderExponent e ++ rest).head? ≠ some '.' := by
  match e with
  | none => cases rest <;> simp_all [endsNumber, Number.renderExponent]
  | some (.ofNat n) => simp [Number.renderExponent]
  | some (.negSucc n) => simp [Number.renderExponent]

/-- The parts of a number are read back together, whatever its sign is. -/
theorem unsigned_render (negative : Bool) (w : Nat) (f : List (Fin 10)) (e : Option Int)
    {rest : List Char} (hrest : endsNumber rest) :
    unsigned negative
        (Nat.toDigits 10 w ++ (Number.renderFraction f ++ (Number.renderExponent e ++ rest))) =
      some (⟨negative, w, f, e⟩, rest) := by
  have hexponent := endsDigits_exponent e hrest
  simp only [unsigned, whole_toDigits w (endsDigits_fraction f hexponent),
    fraction_render f hexponent fun _ => head?_exponent e hrest, exponent_render e hrest,
    Option.bind_eq_bind, Option.bind_some]
  rfl

/-- **A number is read back.** -/
theorem number_render (n : Number) {rest : List Char} (hrest : endsNumber rest) :
    number (n.render ++ rest) = some (n, rest) := by
  obtain ⟨negative, w, f, e⟩ := n
  have hread := unsigned_render negative w f e hrest
  cases negative with
  | true => simpa [number, Number.render] using hread
  | false =>
    -- Without a sign the first character is a digit.
    obtain ⟨c, cs, hdigits, hdigit, -⟩ := toDigits_eq_cons w
    simp only [Number.render, hdigits, Bool.false_eq_true, if_false, List.nil_append,
      List.cons_append, List.append_assoc] at hread ⊢
    unfold number
    split
    · simp_all
    · exact hread

end WireBytes.Json
