import Mathlib
import WireBytes.Proofs.Json.RoundTrip
import WireBytes.Transport.Options.Json

/-!
# Loading what was stored

Options that were written as JSON are read back as they were. Each field is looked up by its key,
which no other field has, so that none of them is left at its default.

* `Transport.Duration.ofJson?_toJson` — a duration is read back;
* `Transport.Field.set?_get` — a field is set to the value that it has in other options;
* `Transport.Options.setMembers?_fields` — so are several fields, each of them once;
* `Transport.Options.load_store` — and with all fields the options are the other ones.
-/

namespace WireBytes.Transport

open Json (Value Units)

/-! ### Numbers and durations -/

theorem natBelow?_nat {n bound : Nat} (h : n < bound) : (Value.nat n).natBelow? bound = some n := by
  simp [Value.natBelow?, Value.nat, h]

namespace Duration

/-- The parts of a duration make up that duration. -/
theorem ofParts?_parts (d : Duration) : ofParts? d.secs.toNat d.nanos.toNat = some d := by
  have hnanos := d.nanos_lt
  have hsecs : d.secs.toNat < UInt64.size := d.secs.toNat_lt
  have hcarry : d.nanos.toNat / 1000000000 = 0 := Nat.div_eq_of_lt hnanos
  have hrest : d.nanos.toNat % 1000000000 = d.nanos.toNat := Nat.mod_eq_of_lt hnanos
  rw [ofParts?, if_pos (by omega)]
  congr
  · rw [hcarry, Nat.add_zero]
    exact UInt64.ofNat_toNat
  · rw [hrest]
    exact UInt32.ofNat_toNat

/-- A duration is read back. -/
theorem ofJson?_toJson (d : Duration) : ofJson? d.toJson = some d := by
  have hsecs : (Value.nat d.secs.toNat).natBelow? UInt64.size = some d.secs.toNat :=
    natBelow?_nat d.secs.toNat_lt
  have hnanos : (Value.nat d.nanos.toNat).natBelow? UInt32.size = some d.nanos.toNat :=
    natBelow?_nat d.nanos.toNat_lt
  rw [toJson, ofJson?, if_pos ⟨rfl, rfl⟩, ofJsonParts?, hsecs, hnanos]
  exact d.ofParts?_parts

end Duration

/-! ### Fields -/

namespace Field

/-- Each field is found by its key. -/
theorem ofKey?_key (f : Field) : ofKey? f.key = some f := by
  cases f <;> decide

/-- The key of a field is a text of characters. -/
theorem wellPaired_key (f : Field) : f.key.wellPaired := by
  cases f <;> decide

theorem word?_nat (n : UInt64) : word? (.nat n.toNat) = some n := by
  rw [word?, natBelow?_nat n.toNat_lt]
  exact congrArg some UInt64.ofNat_toNat

/-- A duration that may be absent is read back. -/
theorem duration?_toJson (d : Option Duration) :
    duration? ((d.map Duration.toJson).getD .null) = some d := by
  cases d with
  | none => rfl
  | some d =>
    show (Duration.ofJson? d.toJson).map some = some (some d)
    rw [d.ofJson?_toJson]
    rfl

/-- The options `o` with this one field as it is in `source`. -/
def copy (f : Field) (source o : Options) : Options :=
  match f with
  | timeout => { o with timeout := source.timeout }
  | keepAlive => { o with keepAlive := source.keepAlive }
  | keepAlivePeriod => { o with keepAlivePeriod := source.keepAlivePeriod }
  | linger => { o with linger := source.linger }
  | noDelay => { o with noDelay := source.noDelay }
  | sockBuf => { o with sockBuf := source.sockBuf }
  | readBufferSize => { o with readBufferSize := source.readBufferSize }
  | writeBufferSize => { o with writeBufferSize := source.writeBufferSize }

/-- The value of a field sets that field, and no other, to what it was. -/
theorem set?_get (f : Field) (source o : Options) :
    f.set? (f.get source) o = some (f.copy source o) := by
  cases f with
  | timeout | keepAlivePeriod => simp [set?, get, copy, Duration.ofJson?_toJson]
  | keepAlive | noDelay => rfl
  | linger => simp [set?, get, copy, duration?_toJson]
  | sockBuf | readBufferSize | writeBufferSize => simp [set?, get, copy, word?_nat]

end Field

/-! ### Options -/

namespace Options

/-- Where fields are given one after another, the later ones are not yet seen. -/
theorem notMem_seen {f : Field} {fields seen : List Field} (hnodup : (f :: fields).Nodup)
    (hseen : ∀ g ∈ f :: fields, g ∉ seen) : ∀ g ∈ fields, g ∉ f :: seen := by
  intro g hg hmem
  rcases List.mem_cons.1 hmem with rfl | hmem
  · exact (List.nodup_cons.1 hnodup).1 hg
  · exact hseen g (List.mem_cons_of_mem f hg) hmem

/-- Members that name several fields, none of them twice, set these fields. -/
theorem setMembers?_fields (source : Options) {fields seen : List Field} (hnodup : fields.Nodup)
    (hseen : ∀ f ∈ fields, f ∉ seen) (o : Options) :
    setMembers? o seen (fields.map fun f => (f.key, f.get source)) =
      some (fields.foldl (fun o f => f.copy source o) o) := by
  induction fields generalizing seen o with
  | nil => rfl
  | cons f fields ih =>
    have hfresh : f ∉ seen := hseen f List.mem_cons_self
    rw [List.map_cons, setMembers?, if_pos f.wellPaired_key, f.ofKey?_key]
    simp only [if_neg hfresh, f.set?_get, Option.bind_some]
    exact ih (List.nodup_cons.1 hnodup).2 (notMem_seen hnodup hseen) (f.copy source o)

/-- All fields together are the whole of the options. -/
theorem foldl_copy_all (source o : Options) :
    Field.all.foldl (fun o f => f.copy source o) o = source := by
  simp only [Field.all, List.foldl_cons, List.foldl_nil, Field.copy]

/-- The object with all fields is read back, with nothing left at its default. -/
theorem ofJson?_toJson (o : Options) : ofJson? o.toJson = some o := by
  rw [toJson, ofJson?, setMembers?_fields o (by decide) (by simp) default, foldl_copy_all]

/-- **Options are loaded as they were stored.** The text of any options, whatever was built or
    loaded to get them, is a JSON object of their eight fields, and gives these options again. -/
theorem load_store (o : Options) : Json.parse o.store = some o.toJson ∧ load o.store = some o := by
  have hparse : Json.parse o.store = some o.toJson := Json.parse_render o.toJson
  refine ⟨hparse, ?_⟩
  rw [load, hparse]
  exact o.ofJson?_toJson

end Options

end WireBytes.Transport
