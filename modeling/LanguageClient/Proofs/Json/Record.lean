import LanguageClient.Json.Decode
import LanguageClient.Proofs.Json.Object

/-!
# What records were read from

A record that could be read from an object was read field by field: each of its fields stands in the
object, or has a default that stands for it. These lemmas take the reading of a layout apart, last
field first, down to the look-ups in the object. Where a record may be given as an array as well,
the same is said of both forms at once: a field has its value under its key or at its place
(`Json.slot`), and a layout of fields with the same defaults in both forms reads it there
(`reads_also_field`).
-/

namespace LanguageClient

/-! ## Readings in a row -/

section Results

variable {α β ε ε' : Type}

theorem bind_eq_ok_iff {x : Except ε α} {k : α → Except ε β} {b : β} :
    x >>= k = .ok b ↔ ∃ a, x = .ok a ∧ k a = .ok b := by
  cases x <;> simp [bind, Except.bind]

theorem mapError_eq_ok_iff {g : ε → ε'} {x : Except ε α} {a : α} :
    x.mapError g = .ok a ↔ x = .ok a := by
  cases x with
  | error e => exact ⟨nofun, nofun⟩
  | ok b =>
    constructor
    · exact fun h => congrArg Except.ok (Except.ok.inj h)
    · exact fun h => congrArg Except.ok (Except.ok.inj h)

end Results

namespace Json

/-- The value that a record gives for a field: under its key in an object, at its place in an
array. -/
def slot (key : String) (place : Nat) : Json → Option Json
  | .obj fields => (Json.obj fields).get? key
  | .arr items => items[place]?
  | _ => none

/-- Whether a value is given as a record of `width` fields: an object, or an array of no more. -/
def IsRecord (width : Nat) : Json → Prop
  | .obj _ => True
  | .arr items => items.length ≤ width
  | _ => False

end Json

namespace Layout

variable {α β : Type} {lookup : String → Option Json}

theorem ofFields_start {a b : α} : (start a).ofFields lookup = .read b ↔ a = b := by
  simp [start]

/-- Two groups of fields are read when both are. -/
theorem both_eq_read {x : Reading (α → β)} {y : Reading α} {b : β} :
    x.both y = .read b ↔ ∃ f a, x = .read f ∧ y = .read a ∧ f a = b := by
  cases x with
  | read f => cases y <;> simp [Reading.both]
  | missing k => cases y <;> simp [Reading.both]
  | faulty k e =>
    cases y with
    | read a => simp [Reading.both]
    | missing k' => simp [Reading.both]
    | faulty k' e' => by_cases h : k' < k <;> simp [Reading.both, h]

theorem ofFields_also {r : Layout (α → β)} {f : Layout α} {b : β} :
    (r.also f).ofFields lookup = .read b ↔
      ∃ g a, r.ofFields lookup = .read g ∧ f.ofFields lookup = .read a ∧ g a = b :=
  both_eq_read

theorem ofFields_field {key : String} {d : Decoder α} {inObject inArray : Option α} {a : α} :
    (field key d inObject inArray).ofFields lookup = .read a ↔
      (∃ v, lookup key = some v ∧ d v = .ok a) ∨ (lookup key = none ∧ inObject = some a) := by
  simp only [field]
  cases lookup key with
  | none => cases inObject <;> simp
  | some v => cases hd : d v <;> simp [hd]

theorem ofFields_required {key : String} {d : Decoder α} {a : α} :
    (required key d).ofFields lookup = .read a ↔ ∃ v, lookup key = some v ∧ d v = .ok a := by
  simp [required, ofFields_field]

theorem ofFields_defaulted {key : String} {d : Decoder α} {a b : α} :
    (defaulted key d a).ofFields lookup = .read b ↔
      (∃ v, lookup key = some v ∧ d v = .ok b) ∨ (lookup key = none ∧ a = b) := by
  simp [defaulted, ofFields_field]

theorem ofFields_nullable {key : String} {d : Decoder α} {o : Option α} :
    (nullable key d).ofFields lookup = .read o ↔
      (∃ v, lookup key = some v ∧ Decoder.optional d v = .ok o) ∨
        (lookup key = none ∧ none = o) := by
  simp [nullable, ofFields_field]

/-- **What is read from an object is read from its fields.** -/
theorem decoder_obj {r : Layout α} {name : String} {fields : List (String × Json)} {a : α} :
    r.decoder name (.obj fields) = .ok a ↔
      r.ofFields (fun key => (Json.obj fields).get? key) = .read a := by
  rw [decoder]
  split
  · next b hread => simp [hread]
  · next key hread => simp [hread]
  · next key e hread => simp [hread]

/-- What is read from the object of some fields is read from the last one given under each key. -/
theorem decoder_object {r : Layout α} {name : String} {fields : List (String × Json)} {a : α} :
    r.decoder name (Json.object fields) = .ok a ↔
      r.ofFields (fun key => (fields.reverse.find? (·.1 = key)).map (·.2)) = .read a := by
  simp only [← Json.get?_object]
  exact decoder_obj

/-! ## Records in either form -/

section EitherForm

variable {r : Layout (α → β)} {f : Layout α} {items rest : List Json} {key : String} {d : Decoder α}

/-- Whether `d` reads `a` from the value of a field, or `a` stands for a field that is absent. -/
def Given (d : Decoder α) (absent : Option α) (value : Option Json) (a : α) : Prop :=
  (∃ v, value = some v ∧ d v = .ok a) ∨ (value = none ∧ absent = some a)

/-- A layout that leaves of an array just what is behind its own fields. -/
class Positional (r : Layout α) : Prop where
  rest_eq : ∀ {items a rest}, r.ofItems items = .ok (a, rest) → rest = items.drop r.width

/-- Whether a layout reads `a` from the fields of a value, whatever else it holds. -/
def Reads (r : Layout α) (v : Json) (a : α) : Prop :=
  match v with
  | .arr items => r.ofItems items = .ok (a, items.drop r.width)
  | v => r.ofFields (fun key => v.get? key) = .read a

theorem ofItems_also {b : β} :
    (r.also f).ofItems items = .ok (b, rest) ↔
      ∃ g a middle, r.ofItems items = .ok (g, middle) ∧ f.ofItems middle = .ok (a, rest) ∧
        g a = b := by
  simp only [also, bind_eq_ok_iff, mapError_eq_ok_iff, Prod.exists]
  constructor
  · rintro ⟨g, middle, hg, a, more, ha, hpair⟩
    obtain ⟨hb, rfl⟩ := Prod.mk.inj (Except.ok.inj hpair)
    exact ⟨g, a, middle, hg, ha, hb⟩
  · rintro ⟨g, a, middle, hg, ha, rfl⟩
    exact ⟨g, middle, hg, a, rest, ha, rfl⟩

theorem ofItems_field {inObject inArray : Option α} {a : α} :
    (field key d inObject inArray).ofItems items = .ok (a, rest) ↔
      rest = items.drop 1 ∧ Given d inArray items[0]? a := by
  cases items with
  | nil => cases inArray <;> simp [field, Given, and_comm, eq_comm]
  | cons v items => cases hd : d v <;> simp [field, Given, hd, and_comm, eq_comm]

instance (a : α) : (start a).Positional where
  rest_eq h := by
    simp only [start, Except.ok.injEq, Prod.mk.injEq] at h
    exact h.2.symm

instance (inObject inArray : Option α) : (field key d inObject inArray).Positional where
  rest_eq h := (ofItems_field.1 h).1

instance [r.Positional] [f.Positional] : (r.also f).Positional where
  rest_eq h := by
    obtain ⟨g, a, middle, hg, ha, -⟩ := ofItems_also.1 h
    rw [Positional.rest_eq ha, Positional.rest_eq hg, List.drop_drop]
    rfl

theorem reads_start {a b : α} {v : Json} : (start a).Reads v b ↔ a = b := by
  cases v <;> simp [Reads, start]

/-- **A field is read where the record gives it**, in either form. -/
theorem reads_also_field [r.Positional] {absent : Option α} {v : Json} {b : β} :
    (r.also (field key d absent absent)).Reads v b ↔
      ∃ g a, r.Reads v g ∧ Given d absent (v.slot key r.width) a ∧ g a = b := by
  cases v with
  | arr items =>
    simp only [Reads, Json.slot]
    rw [ofItems_also]
    constructor
    · rintro ⟨g, a, middle, hg, ha, hb⟩
      obtain rfl := Positional.rest_eq hg
      have hgiven := (ofItems_field.1 ha).2
      rw [List.getElem?_drop, Nat.add_zero] at hgiven
      exact ⟨g, a, hg, hgiven, hb⟩
    · rintro ⟨g, a, hg, hgiven, hb⟩
      refine ⟨g, a, _, hg, ofItems_field.2 ⟨?_, ?_⟩, hb⟩
      · rw [List.drop_drop]
        rfl
      · rwa [List.getElem?_drop, Nat.add_zero]
  | _ => exact ofFields_also.trans (by simp only [ofFields_field]; rfl)

/-- A record is read when all its fields are and an array gives no more than those. -/
theorem decoder_eq_ok_iff {r : Layout α} [r.Positional] {name : String} {v : Json} {a : α} :
    r.decoder name v = .ok a ↔ v.IsRecord r.width ∧ r.Reads v a := by
  cases v with
  | arr items =>
    simp only [decoder, Json.IsRecord, Reads]
    cases hitems : r.ofItems items with
    | error fault => cases fault <;> simp
    | ok x =>
      obtain ⟨b, rest⟩ := x
      obtain rfl := Positional.rest_eq hitems
      cases hrest : items.drop r.width with
      | nil => simp [List.drop_eq_nil_iff.1 hrest]
      | cons w more =>
        have hlong : ¬ items.length ≤ r.width := fun hle => by
          rw [List.drop_eq_nil_iff.2 hle] at hrest
          cases hrest
        simp [hlong]
  | obj fields =>
    rw [Json.IsRecord, true_and]
    exact decoder_obj
  | _ => simp [decoder, Json.IsRecord]

end EitherForm

end Layout
end LanguageClient
