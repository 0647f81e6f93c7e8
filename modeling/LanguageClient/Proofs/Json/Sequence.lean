import LanguageClient.Proofs.Json.Record
import Mathlib.Data.List.Forall2

/-!
# What can be read

Which values a decoder takes (`Decoder.Takes`), whatever it makes of them: a list when it takes each
item, a field when it takes what stands there or nothing does. A decoder that `Keeps` values reads
off them nothing but what they say, so a field that it reads can be told by its value as JSON.
-/

namespace LanguageClient

section Results

variable {α β ε : Type} {x : Except ε α}

/-- What does not succeed fails. -/
theorem exists_eq_error_iff : (∃ e, x = .error e) ↔ ¬ ∃ a, x = .ok a := by
  cases x <;> simp

end Results

/-! ## Lists of readings -/

section Lists

variable {α β ε : Type} {f : α → Except ε β} {xs : List α} {ys : List β}

theorem mapM_eq_ok_iff :
    xs.mapM f = .ok ys ↔ List.Forall₂ (fun x y => f x = .ok y) xs ys := by
  induction xs generalizing ys with
  | nil => cases ys <;> simp [pure, Except.pure]
  | cons x xs ih =>
    simp only [List.mapM_cons, bind_eq_ok_iff, ih, List.forall₂_cons_left_iff]
    constructor
    · rintro ⟨y, hy, more, hmore, hys⟩
      exact ⟨y, more, hy, hmore, (Except.ok.inj hys).symm⟩
    · rintro ⟨y, more, hy, hmore, rfl⟩
      exact ⟨y, hy, more, hmore, rfl⟩

/-- A list is read when each of its items is. -/
theorem exists_mapM_eq_ok_iff :
    (∃ ys, xs.mapM f = .ok ys) ↔ ∀ x ∈ xs, ∃ y, f x = .ok y := by
  simp only [mapM_eq_ok_iff]
  induction xs with
  | nil => simp
  | cons x xs ih =>
    rw [List.forall_mem_cons, ← ih]
    constructor
    · rintro ⟨_, hys⟩
      obtain ⟨y, ys, hy, hmore, rfl⟩ := List.forall₂_cons_left_iff.1 hys
      exact ⟨⟨y, hy⟩, ys, hmore⟩
    · rintro ⟨⟨y, hy⟩, ys, hmore⟩
      exact ⟨y :: ys, .cons hy hmore⟩

/-- Two lists in a row are read one after the other. -/
theorem mapM_append_eq_ok {xs' : List α} {ys' : List β} (h : xs.mapM f = .ok ys)
    (h' : xs'.mapM f = .ok ys') : (xs ++ xs').mapM f = .ok (ys ++ ys') :=
  mapM_eq_ok_iff.2 (List.rel_append (mapM_eq_ok_iff.1 h) (mapM_eq_ok_iff.1 h'))

end Lists

/-! ## Values that are taken -/

section Values

variable {α : Type} {d : Decoder α} {a b : α} {v : Json} {value : Option Json}

/-- Whether a decoder reads anything from a value. -/
def Decoder.Takes (d : Decoder α) (v : Json) : Prop := ∃ a, d v = .ok a

/-- Lists are taken with all their items. -/
theorem Decoder.takes_list_iff :
    (Decoder.list d).Takes v ↔ ∃ items, v = .arr items ∧ ∀ item ∈ items, d.Takes item := by
  cases v with
  | arr items =>
    refine Iff.trans exists_mapM_eq_ok_iff ⟨fun h => ⟨items, rfl, h⟩, ?_⟩
    rintro ⟨items', heq, h⟩
    obtain rfl := Json.arr.inj heq
    exact h
  | _ => simp [Takes, Decoder.list]

namespace Layout

theorem Given.unique {absent : Option α} (ha : Given d absent value a)
    (hb : Given d absent value b) : a = b := by
  rcases ha with ⟨v, rfl, hv⟩ | ⟨rfl, ha⟩ <;> rcases hb with ⟨w, hw, hwb⟩ | ⟨hnone, hb⟩
  · obtain rfl := Option.some.inj hw
    exact Except.ok.inj (hv.symm.trans hwb)
  · cases hnone
  · cases hw
  · exact Option.some.inj (ha.symm.trans hb)

/-- A field with a default is read when what stands there is taken. -/
theorem exists_given_some_iff (a : α) :
    (∃ b, Given d (some a) value b) ↔ ∀ v, value = some v → d.Takes v := by
  cases value with
  | none => simp [Given]
  | some v => simp [Given, Decoder.Takes]

end Layout

/-- A decoder that reads only what `toJson` writes, which writes no two values alike. -/
structure Decoder.Keeps (d : Decoder α) (toJson : α → Json) : Prop where
  written : ∀ {v a}, d v = .ok a → v = toJson a
  injective : ∀ {a b}, toJson a = toJson b → a = b

/-- Its fields are told by what stands there. -/
theorem Decoder.Keeps.given_iff {toJson : α → Json} (h : d.Keeps toJson) :
    Layout.Given d (some a) value b ↔
      (∀ v, value = some v → d.Takes v) ∧ toJson b = value.getD (toJson a) := by
  cases value with
  | none =>
    simp only [Layout.Given, reduceCtorEq, false_and, exists_false, true_and, false_or,
      Option.some.injEq, Option.getD_none, false_implies, implies_true]
    exact ⟨fun hab => hab ▸ rfl, fun hab => (h.injective hab).symm⟩
  | some v =>
    simp only [Layout.Given, Option.some.injEq, exists_eq_left', reduceCtorEq, false_and, or_false,
      forall_eq', Option.getD_some]
    constructor
    · exact fun hb => ⟨⟨b, hb⟩, (h.written hb).symm⟩
    · rintro ⟨⟨c, hc⟩, hv⟩
      rw [h.injective (hv.trans (h.written hc)), hc]

end Values

/-! ## Numbers and truth values -/

theorem Decoder.keeps_bool : Decoder.bool.Keeps Json.bool where
  written {v a} h := by
    cases v with
    | bool b => rw [Except.ok.inj h]
    | _ => cases h
  injective := Json.bool.inj

/-- Natural numbers up to a bound. -/
theorem Decoder.keeps_natural (high : Int) (wanted : String) :
    Decoder.Keeps (fun v => Int.toNat <$> Decoder.integer 0 high wanted v)
      (fun n => Json.int n) where
  written {v a} h := by
    cases v with
    | int n =>
      simp only [Decoder.integer] at h
      split at h
      · next hbounds =>
        obtain rfl : n.toNat = a := Except.ok.inj h
        rw [Bool.and_eq_true, decide_eq_true_eq] at hbounds
        rw [Int.toNat_of_nonneg hbounds.1]
      · cases h
    | _ => cases h
  injective h := Int.ofNat.inj (Json.int.inj h)

theorem Decoder.keeps_u32 : Decoder.u32.Keeps (fun n => Json.int n) := keeps_natural _ _

theorem Decoder.keeps_u64 : Decoder.u64.Keeps (fun n => Json.int n) := keeps_natural _ _

theorem Decoder.keeps_usize : Decoder.usize.Keeps (fun n => Json.int n) := keeps_natural _ _

end LanguageClient
