import Mathlib
import WireBytes.Proofs.Transport.Options

/-!
# How fields are spelled

Which values set a field, and to what. A duration is spelled in several ways, and every other field
in one way.

* `Transport.Duration.SpelledBy` and `Transport.Duration.ofJson?_eq_some_iff` — durations;
* `Transport.Field.SpelledBy` and `Transport.Field.set?_eq_some_iff` — fields;
* `Transport.Options.ext_get` — options are equal if all their fields are.
-/

namespace WireBytes.Transport

open Json (Value Units)

/-! ### Single values -/

/-- A natural number is read from what is written with digits alone, if it is below the bound. -/
theorem natBelow?_eq_some_iff {v : Value} {n bound : Nat} :
    v.natBelow? bound = some n ↔ v = .nat n ∧ n < bound := by
  constructor
  · intro h
    cases v with
    | number m =>
      obtain ⟨hm, hlt⟩ := Option.filter_eq_some_iff.1 h
      unfold Json.Number.toNat? at hm
      split at hm
      case isTrue heq =>
        obtain rfl := Option.some.inj hm
        exact ⟨congrArg Value.number heq, of_decide_eq_true hlt⟩
      case isFalse => cases hm
    | null | bool | string | array | object => cases h
  · rintro ⟨rfl, hlt⟩
    exact natBelow?_nat hlt

theorem bool?_eq_some_iff {v : Value} {b : Bool} : v.bool? = some b ↔ v = .bool b := by
  cases v <;> simp [Value.bool?]

namespace Duration

/-- A duration in billionths of a second. -/
def billionths (d : Duration) : Nat :=
  d.secs.toNat * 1000000000 + d.nanos.toNat

/-- No two durations are equally long. -/
theorem billionths_inj {d e : Duration} (h : d.billionths = e.billionths) : d = e := by
  obtain ⟨secs, nanos, hd⟩ := d
  obtain ⟨secs', nanos', he⟩ := e
  have h : secs.toNat * 1000000000 + nanos.toNat = secs'.toNat * 1000000000 + nanos'.toNat := h
  have hsecs : secs = secs' := UInt64.toNat_inj.1 (by omega)
  have hnanos : nanos = nanos' := UInt32.toNat_inj.1 (by omega)
  subst hsecs hnanos
  rfl

/-- Seconds and billionths are the duration that is as long as both of them. -/
theorem ofParts?_eq_some_iff {secs nanos : Nat} {d : Duration} :
    ofParts? secs nanos = some d ↔ secs * 1000000000 + nanos = d.billionths := by
  have hd := d.nanos_lt
  have hsecs : d.secs.toNat < UInt64.size := d.secs.toNat_lt
  have hsplit := Nat.div_add_mod nanos 1000000000
  have hrest : nanos % 1000000000 < 1000000000 := Nat.mod_lt _ (by decide)
  unfold ofParts? billionths
  constructor
  · intro h
    split at h
    case isTrue hfits =>
      obtain rfl := Option.some.inj h
      have hsecs' : (secs + nanos / 1000000000).toUInt64.toNat = secs + nanos / 1000000000 :=
        UInt64.toNat_ofNat_of_lt' hfits
      have hnanos' : (nanos % 1000000000).toUInt32.toNat = nanos % 1000000000 :=
        UInt32.toNat_ofNat_of_lt' (by unfold UInt32.size; omega)
      rw [hsecs', hnanos']
      omega
    case isFalse => cases h
  · intro h
    -- Both are the quotient and the remainder of the same number of billionths.
    have hcarry : secs + nanos / 1000000000 = d.secs.toNat := by omega
    have hleft : nanos % 1000000000 = d.nanos.toNat := by omega
    simp only [hcarry, hleft, hsecs, if_true]
    exact congrArg some (billionths_inj (by simp [billionths]))

/-- The values that spell a duration: its seconds and its billionths in an array, or under their
    keys in either order. The billionths may make up seconds too. -/
inductive SpelledBy (d : Duration) : Value → Prop
  | array {secs nanos : Nat} (hnanos : nanos < UInt32.size)
      (htotal : secs * 1000000000 + nanos = d.billionths) :
      SpelledBy d (.array [.nat secs, .nat nanos])
  | object {secs nanos : Nat} (hnanos : nanos < UInt32.size)
      (htotal : secs * 1000000000 + nanos = d.billionths) :
      SpelledBy d (.object
        [(Units.ofString "secs", .nat secs), (Units.ofString "nanos", .nat nanos)])
  | swapped {secs nanos : Nat} (hnanos : nanos < UInt32.size)
      (htotal : secs * 1000000000 + nanos = d.billionths) :
      SpelledBy d (.object
        [(Units.ofString "nanos", .nat nanos), (Units.ofString "secs", .nat secs)])

/-- Two values make up a duration if both are natural numbers, the billionths fit their word, and
    together they are as long as the duration. -/
theorem ofJsonParts?_eq_some_iff {v w : Value} {d : Duration} :
    ofJsonParts? v w = some d ↔ ∃ secs nanos, v = .nat secs ∧ w = .nat nanos ∧
      nanos < UInt32.size ∧ secs * 1000000000 + nanos = d.billionths := by
  simp only [ofJsonParts?, Option.bind_eq_bind, Option.bind_eq_some_iff, natBelow?_eq_some_iff,
    ofParts?_eq_some_iff]
  constructor
  · rintro ⟨secs, ⟨hv, -⟩, nanos, ⟨hw, hnanos⟩, htotal⟩
    exact ⟨secs, nanos, hv, hw, hnanos, htotal⟩
  · rintro ⟨secs, nanos, hv, hw, hnanos, htotal⟩
    have hd := d.nanos_lt
    have hsecs : d.secs.toNat < UInt64.size := d.secs.toNat_lt
    -- More seconds than fit 64 bits are no duration, whatever the billionths are.
    refine ⟨secs, ⟨hv, ?_⟩, nanos, ⟨hw, hnanos⟩, htotal⟩
    unfold billionths at htotal
    omega

/-- **Durations.** A value is read as a duration if it spells it. -/
theorem ofJson?_eq_some_iff {v : Value} {d : Duration} : ofJson? v = some d ↔ d.SpelledBy v := by
  constructor
  · intro h
    unfold ofJson? at h
    split at h
    · obtain ⟨secs, nanos, rfl, rfl, hnanos, htotal⟩ := ofJsonParts?_eq_some_iff.1 h
      exact .array hnanos htotal
    · -- Two members are accepted in either order of their keys.
      split at h
      case isTrue hkeys =>
        obtain ⟨rfl, rfl⟩ := hkeys
        obtain ⟨secs, nanos, rfl, rfl, hnanos, htotal⟩ := ofJsonParts?_eq_some_iff.1 h
        exact .object hnanos htotal
      case isFalse =>
        split at h
        case isTrue hkeys =>
          obtain ⟨rfl, rfl⟩ := hkeys
          obtain ⟨secs, nanos, rfl, rfl, hnanos, htotal⟩ := ofJsonParts?_eq_some_iff.1 h
          exact .swapped hnanos htotal
        case isFalse => cases h
    · cases h
  · intro h
    cases h with
    | array hnanos htotal => exact ofJsonParts?_eq_some_iff.2 ⟨_, _, rfl, rfl, hnanos, htotal⟩
    | object hnanos htotal =>
      rw [ofJson?, if_pos ⟨rfl, rfl⟩]
      exact ofJsonParts?_eq_some_iff.2 ⟨_, _, rfl, rfl, hnanos, htotal⟩
    | swapped hnanos htotal =>
      rw [ofJson?, if_neg (by decide), if_pos ⟨rfl, rfl⟩]
      exact ofJsonParts?_eq_some_iff.2 ⟨_, _, rfl, rfl, hnanos, htotal⟩

end Duration

/-! ### Fields -/

namespace Field

variable {f : Field} {v : Value} {o source source' : Options}

/-- A word is spelled in one way, as the number that it is. -/
theorem word?_eq_some_iff {n : UInt64} : word? v = some n ↔ v = .nat n.toNat := by
  constructor
  · intro h
    obtain ⟨m, hm, rfl⟩ := Option.map_eq_some_iff.1 h
    obtain ⟨rfl, hlt⟩ := natBelow?_eq_some_iff.1 hm
    have hn : m.toUInt64.toNat = m := UInt64.toNat_ofNat_of_lt' hlt
    rw [hn]
  · rintro rfl
    exact word?_nat n

/-- An absent duration is spelled by null, and one that is there as usual. -/
theorem duration?_eq_some_iff {d : Option Duration} :
    duration? v = some d ↔ d = none ∧ v = .null ∨ ∃ e, d = some e ∧ e.SpelledBy v := by
  have hnull (e : Duration) : ¬ e.SpelledBy .null := by rintro ⟨⟩
  unfold duration?
  split
  · simp [hnull, eq_comm]
  case h_2 hne =>
    simp only [Option.map_eq_some_iff, Duration.ofJson?_eq_some_iff]
    constructor
    · rintro ⟨e, he, rfl⟩
      exact .inr ⟨e, rfl, he⟩
    · rintro (⟨-, rfl⟩ | ⟨e, rfl, he⟩)
      · exact absurd rfl hne
      · exact ⟨e, he, rfl⟩

/-- The values that spell a field of options. -/
def SpelledBy (f : Field) (o : Options) (v : Value) : Prop :=
  match f with
  | timeout => o.timeout.SpelledBy v
  | keepAlive => v = .bool o.keepAlive
  | keepAlivePeriod => o.keepAlivePeriod.SpelledBy v
  | linger => o.linger = none ∧ v = .null ∨ ∃ d, o.linger = some d ∧ d.SpelledBy v
  | noDelay => v = .bool o.noDelay
  | sockBuf => v = .nat o.sockBuf.toNat
  | readBufferSize => v = .nat o.readBufferSize.toNat
  | writeBufferSize => v = .nat o.writeBufferSize.toNat

/-- **Fields.** A value sets a field to what it spells, and leaves the other fields. -/
theorem set?_eq_some_iff {o' : Options} :
    f.set? v o = some o' ↔ f.SpelledBy o' v ∧ f.copy o' o = o' := by
  -- Whatever the field is, its content is read from the value and then written.
  cases f <;>
    simp only [set?, SpelledBy, copy, Option.map_eq_some_iff, Duration.ofJson?_eq_some_iff,
      bool?_eq_some_iff, duration?_eq_some_iff, word?_eq_some_iff]
  all_goals
    constructor
    · rintro ⟨x, hx, rfl⟩
      exact ⟨hx, rfl⟩
    · rintro ⟨hx, ho⟩
      exact ⟨_, hx, ho⟩

/-- A field that is copied is as in the source, and the other fields are as they were. -/
theorem get_copy (f g : Field) (source o : Options) :
    g.get (f.copy source o) = if g = f then g.get source else g.get o := by
  cases f <;> cases g <;> rfl

/-- Copying a field twice is copying it once. -/
theorem copy_copy (f : Field) (source o : Options) :
    f.copy (f.copy source o) o = f.copy source o := by
  cases f <;> rfl

/-- A copied field is spelled as it is in the source. -/
theorem spelledBy_copy : f.SpelledBy (f.copy source o) v ↔ f.SpelledBy source v := by
  cases f <;> exact Iff.rfl

/-- Setting a field to what spells it elsewhere is copying it. -/
theorem set?_of_spelledBy (h : f.SpelledBy source v) (o : Options) :
    f.set? v o = some (f.copy source o) :=
  set?_eq_some_iff.2 ⟨spelledBy_copy.2 h, copy_copy f source o⟩

/-- Only the value of the field is copied. -/
theorem copy_of_get_eq (h : f.get source = f.get source') (o : Options) :
    f.copy source o = f.copy source' o := by
  have hset := f.set?_get source o
  rw [h, f.set?_get source' o] at hset
  exact (Option.some.inj hset).symm

/-- What spells a field in some options spells it in all that agree with them on the field. -/
theorem spelledBy_of_get_eq (h : f.get source = f.get source') (hv : f.SpelledBy source v) :
    f.SpelledBy source' v := by
  have hcopy := copy_of_get_eq h source
  rw [← spelledBy_copy (o := source), ← hcopy, spelledBy_copy]
  exact hv

/-- A key names a field only if it is the key of that field. -/
theorem ofKey?_eq_some_iff {k : Units} : ofKey? k = some f ↔ k = f.key := by
  constructor
  · intro h
    have hkey := List.find?_some h
    exact (of_decide_eq_true hkey).symm
  · rintro rfl
    exact f.ofKey?_key

/-- No two fields have the same key. -/
theorem key_inj {g : Field} (h : f.key = g.key) : f = g := by
  have hf := f.ofKey?_key
  rw [h, g.ofKey?_key] at hf
  exact (Option.some.inj hf).symm

end Field

/-- Options are equal if all their fields are. -/
theorem Options.ext_get {o o' : Options} (h : ∀ f : Field, f.get o = f.get o') : o = o' := by
  have hcopy : (fun x f => Field.copy f o x) = fun x f => Field.copy f o' x := by
    funext x f
    exact Field.copy_of_get_eq (h f) x
  rw [← foldl_copy_all o default, ← foldl_copy_all o' default, hcopy]

end WireBytes.Transport
