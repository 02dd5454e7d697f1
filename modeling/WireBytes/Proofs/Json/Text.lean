import Mathlib
import WireBytes.Json.Parser
import WireBytes.Json.Printer

/-!
# Reading back a text

A text that was written between quotes is read back unit by unit, also where half of a surrogate
pair stands alone: what does not stand for itself is written as an escape of a single unit.

* `Json.string_renderUnit` — one unit; `Json.string_renderUnits` — a whole text;
* `Json.key_renderString` — a text with the colon behind it.
-/

namespace WireBytes.Json

/-! ### One unit -/

theorem hexDigit?_digitChar : ∀ d < 16, hexDigit? (Nat.digitChar d) = some d := by
  decide

/-- The four digits of a unit name it. -/
theorem hexUnit?_hexUnit (u : UInt16) :
    hexUnit? (Nat.digitChar (u.toNat / 4096)) (Nat.digitChar (u.toNat / 256 % 16))
      (Nat.digitChar (u.toNat / 16 % 16)) (Nat.digitChar (u.toNat % 16)) = some u := by
  have hlt : u.toNat < 65536 := u.toNat_lt
  have hsum : 4096 * (u.toNat / 4096) + 256 * (u.toNat / 256 % 16) + 16 * (u.toNat / 16 % 16) +
      u.toNat % 16 = u.toNat := by
    omega
  unfold hexUnit?
  rw [hexDigit?_digitChar _ (by omega), hexDigit?_digitChar _ (by omega),
    hexDigit?_digitChar _ (by omega), hexDigit?_digitChar _ (by omega)]
  show some (Nat.toUInt16 _) = _
  rw [hsum]
  exact congrArg some (UInt16.ofNat_toNat)

/-- A plain unit is a character of its own, which neither ends the text nor escapes anything. -/
theorem ofNat_of_isPlain {u : UInt16} (h : isPlain u) :
    Char.ofNat u.toNat ≠ '"' ∧ Char.ofNat u.toNat ≠ '\\' ∧ ' ' ≤ Char.ofNat u.toNat ∧
      Units.ofChar (Char.ofNat u.toNat) = [u] := by
  simp only [isPlain, Bool.and_eq_true, decide_eq_true_eq, bne_iff_ne, ne_eq,
    UInt16.le_iff_toNat_le, UInt16.lt_iff_toNat_lt, ← UInt16.toNat_inj] at h
  obtain ⟨⟨⟨hlow, hhigh⟩, hquote⟩, hslash⟩ := h
  have hlow : 32 ≤ u.toNat := hlow
  have hhigh : u.toNat < 127 := hhigh
  -- Plain units are printable ASCII, so that each is the number of a character.
  have hn : (Char.ofNat u.toNat).toNat = u.toNat := by
    rw [Char.toNat_ofNat, if_pos (Or.inl (by omega))]
  refine ⟨?_, ?_, ?_, ?_⟩
  · intro hc
    exact hquote (hn ▸ congrArg Char.toNat hc)
  · intro hc
    exact hslash (hn ▸ congrArg Char.toNat hc)
  · show 32 ≤ (Char.ofNat u.toNat).toNat
    rw [hn]
    exact hlow
  · rw [Units.ofChar, hn, if_pos (by omega)]
    exact congrArg (fun v => [v]) UInt16.ofNat_toNat

/-- A character that is neither a quote nor a backslash stands for itself. -/
theorem string_plain {c : Char} (hquote : c ≠ '"') (hslash : c ≠ '\\') (hblank : ' ' ≤ c)
    (rest : List Char) :
    string (c :: rest) = (string rest).map fun (us, rest) => (Units.ofChar c ++ us, rest) := by
  rw [string]
  · simp only [guard, hblank, if_true]
    cases string rest <;> rfl
  all_goals simp_all

/-- A unit is read back in front of what follows it. -/
theorem string_renderUnit (u : UInt16) (rest : List Char) :
    string (renderUnit u ++ rest) = (string rest).map fun (us, rest) => (u :: us, rest) := by
  unfold renderUnit
  split
  case isTrue h =>
    obtain ⟨hquote, hslash, hblank, hunits⟩ := ofNat_of_isPlain h
    rw [List.singleton_append, string_plain hquote hslash hblank, hunits]
    rfl
  case isFalse h =>
    simp only [hexUnit, List.cons_append, List.nil_append, string, hexUnit?_hexUnit,
      Option.bind_eq_bind, Option.bind_some]
    cases string rest <;> rfl

/-! ### Texts -/

/-- **A text is read back.** -/
theorem string_renderUnits (s : Units) (rest : List Char) :
    string (s.flatMap renderUnit ++ '"' :: rest) = some (s, rest) := by
  induction s with
  | nil => rw [List.flatMap_nil, List.nil_append, string]
  | cons u us ih =>
    rw [List.flatMap_cons, List.append_assoc, string_renderUnit, ih]
    rfl

/-- Nothing is skipped in front of a character that is not blank. -/
theorem skipBlanks_cons {c : Char} (hc : isBlank c = false) (s : List Char) :
    skipBlanks (c :: s) = c :: s := by
  rw [skipBlanks, List.dropWhile_cons, hc]
  rfl

/-- A text is read back as the key of a member. -/
theorem key_renderString (s : Units) (rest : List Char) :
    key (renderString s ++ ':' :: rest) = some (s, rest) := by
  have hread := string_renderUnits s (':' :: rest)
  have hquote : skipBlanks ('"' :: (s.flatMap renderUnit ++ '"' :: ':' :: rest)) = _ :=
    skipBlanks_cons (by decide) _
  have hcolon : skipBlanks (':' :: rest) = ':' :: rest := skipBlanks_cons (by decide) _
  simp only [key, renderString, List.cons_append, List.append_assoc, List.nil_append, hquote,
    hread, hcolon, Option.bind_eq_bind, Option.bind_some]
  rfl

end WireBytes.Json
