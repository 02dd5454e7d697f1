import Mathlib
import WireBytes.Json.Value

/-!
# Texts of characters

Code units are a text of characters if and only if no half of a surrogate pair stands alone.

* `Json.Units.exists_ofChar` and `Json.Units.exists_ofChar_pair` — every unit that is no half, and
  every pair, is a character;
* `Json.Units.wellPaired_iff` — the characterization for whole texts.
-/

namespace WireBytes.Json.Units

/-- A half of a pair lies in one of two ranges. -/
theorem isHigh_iff {u : UInt16} : isHigh u = true ↔ 0xd800 ≤ u.toNat ∧ u.toNat < 0xdc00 := by
  rw [isHigh, Bool.and_eq_true, decide_eq_true_eq, decide_eq_true_eq]
  rfl

theorem isLow_iff {u : UInt16} : isLow u = true ↔ 0xdc00 ≤ u.toNat ∧ u.toNat < 0xe000 := by
  rw [isLow, Bool.and_eq_true, decide_eq_true_eq, decide_eq_true_eq]
  rfl

/-! ### One character -/

/-- The units of a character: one that is no half of a pair, or the two halves of one. -/
theorem ofChar_cases (c : Char) :
    (∃ u, ofChar c = [u] ∧ isHigh u = false ∧ isLow u = false) ∨
      ∃ u v, ofChar c = [u, v] ∧ isHigh u = true ∧ isLow v = true := by
  have hvalid : c.toNat < 0xd800 ∨ 0xdfff < c.toNat ∧ c.toNat < 0x110000 := c.valid
  unfold ofChar
  by_cases hsmall : c.toNat < 0x10000
  · -- The numbers of the halves are those that no character has.
    rw [if_pos hsmall]
    have hn : c.toNat.toUInt16.toNat = c.toNat := UInt16.toNat_ofNat_of_lt' hsmall
    refine .inl ⟨_, rfl, ?_, ?_⟩
    · rw [← Bool.not_eq_true, isHigh_iff, hn]
      omega
    · rw [← Bool.not_eq_true, isLow_iff, hn]
      omega
  · rw [if_neg hsmall]
    have hhigh : (0xd800 + (c.toNat - 0x10000) / 0x400).toUInt16.toNat =
        0xd800 + (c.toNat - 0x10000) / 0x400 :=
      UInt16.toNat_ofNat_of_lt' (by unfold UInt16.size; omega)
    have hlow : (0xdc00 + (c.toNat - 0x10000) % 0x400).toUInt16.toNat =
        0xdc00 + (c.toNat - 0x10000) % 0x400 :=
      UInt16.toNat_ofNat_of_lt' (by unfold UInt16.size; omega)
    refine .inr ⟨_, _, rfl, ?_, ?_⟩
    · rw [isHigh_iff, hhigh]
      omega
    · rw [isLow_iff, hlow]
      omega

/-- A unit that is no half of a pair is a character. -/
theorem exists_ofChar {u : UInt16} (hhigh : isHigh u = false) (hlow : isLow u = false) :
    ∃ c, ofChar c = [u] := by
  rw [← Bool.not_eq_true, isHigh_iff] at hhigh
  rw [← Bool.not_eq_true, isLow_iff] at hlow
  have hu : u.toNat < 0x10000 := u.toNat_lt
  have hc : (Char.ofNat u.toNat).toNat = u.toNat := by
    rw [Char.toNat_ofNat, if_pos (by unfold Nat.isValidChar; omega)]
  refine ⟨Char.ofNat u.toNat, ?_⟩
  rw [ofChar, hc, if_pos hu]
  exact congrArg (fun v => [v]) UInt16.ofNat_toNat

/-- The two halves of a pair are a character. -/
theorem exists_ofChar_pair {u v : UInt16} (hhigh : isHigh u = true) (hlow : isLow v = true) :
    ∃ c, ofChar c = [u, v] := by
  rw [isHigh_iff] at hhigh
  rw [isLow_iff] at hlow
  -- Each half has ten bits of the number of the character.
  obtain ⟨a, ha⟩ : ∃ a, u.toNat = 0xd800 + a := ⟨u.toNat - 0xd800, by omega⟩
  obtain ⟨b, hb⟩ : ∃ b, v.toNat = 0xdc00 + b := ⟨v.toNat - 0xdc00, by omega⟩
  have hc : (Char.ofNat (0x10000 + 0x400 * a + b)).toNat = 0x10000 + 0x400 * a + b := by
    rw [Char.toNat_ofNat, if_pos (by unfold Nat.isValidChar; omega)]
  refine ⟨Char.ofNat (0x10000 + 0x400 * a + b), ?_⟩
  rw [ofChar, hc, if_neg (by omega)]
  have hu : 0xd800 + (0x10000 + 0x400 * a + b - 0x10000) / 0x400 = u.toNat := by omega
  have hv : 0xdc00 + (0x10000 + 0x400 * a + b - 0x10000) % 0x400 = v.toNat := by omega
  rw [hu, hv]
  exact congrArg₂ (fun x y => [x, y]) UInt16.ofNat_toNat UInt16.ofNat_toNat

/-! ### Texts -/

/-- A character in front does not matter. -/
theorem wellPaired_ofChar_append (c : Char) (us : Units) :
    wellPaired (ofChar c ++ us) = wellPaired us := by
  obtain ⟨u, hc, hhigh, hlow⟩ | ⟨u, v, hc, hhigh, hlow⟩ := ofChar_cases c
  · rw [hc]
    cases us with
    | nil => simp [wellPaired, hhigh, hlow]
    | cons v us => simp [wellPaired, hhigh, hlow]
  · rw [hc]
    simp [wellPaired, hhigh, hlow]

/-- In the units of a text every half stands beside its other half. -/
theorem wellPaired_flatMap (cs : List Char) : wellPaired (cs.flatMap ofChar) = true := by
  induction cs with
  | nil => rfl
  | cons c cs ih => rw [List.flatMap_cons, wellPaired_ofChar_append, ih]

/-- Units in which every half stands beside its other half are those of a text. -/
theorem exists_flatMap {us : Units} (h : us.wellPaired = true) :
    ∃ cs : List Char, cs.flatMap ofChar = us := by
  -- The units are taken apart as `wellPaired` does, a pair at once.
  induction us using wellPaired.induct with
  | case1 => exact ⟨[], rfl⟩
  | case2 u =>
    rw [wellPaired, Bool.and_eq_true, Bool.not_eq_true', Bool.not_eq_true'] at h
    obtain ⟨c, hc⟩ := exists_ofChar h.1 h.2
    exact ⟨[c], by rw [List.flatMap_singleton, hc]⟩
  | case3 u v rest hhigh ih =>
    rw [wellPaired, if_pos hhigh, Bool.and_eq_true] at h
    obtain ⟨c, hc⟩ := exists_ofChar_pair hhigh h.1
    obtain ⟨cs, hcs⟩ := ih h.2
    exact ⟨c :: cs, by rw [List.flatMap_cons, hc, hcs]; rfl⟩
  | case4 u v rest hhigh ih =>
    rw [wellPaired, if_neg hhigh, Bool.and_eq_true, Bool.not_eq_true'] at h
    obtain ⟨c, hc⟩ := exists_ofChar (Bool.not_eq_true _ ▸ hhigh) h.1
    obtain ⟨cs, hcs⟩ := ih h.2
    exact ⟨c :: cs, by rw [List.flatMap_cons, hc, hcs]; rfl⟩

/-- **Texts of characters.** -/
theorem wellPaired_iff {us : Units} : us.wellPaired = true ↔ ∃ s : String, ofString s = us := by
  constructor
  · intro h
    obtain ⟨cs, hcs⟩ := exists_flatMap h
    exact ⟨String.ofList cs, by rw [ofString, String.toList_ofList, hcs]⟩
  · rintro ⟨s, rfl⟩
    exact wellPaired_flatMap s.toList

end WireBytes.Json.Units
