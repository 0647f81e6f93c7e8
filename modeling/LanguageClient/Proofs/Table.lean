import LanguageClient.Table
import Mathlib.Data.List.Sort

/-!
# Look-ups and listings of tables

`Table.get?` finds exactly what the listings show: an entry is listed when it is found under its
key, each key is listed once, and so a value is listed when some key finds it. Tables in which the
same is found are the same (`Table.eq_of_get?`).
-/

namespace LanguageClient.Table

variable {κ ν : Type} [Key κ] [DecidableEq κ]

omit [Key κ] in
theorem mem_of_lookup {k : κ} {v : ν} {l : List (κ × ν)} (h : lookup k l = some v) :
    (k, v) ∈ l := by
  induction l with
  | nil => cases h
  | cons e rest ih =>
    obtain ⟨k', v'⟩ := e
    rw [lookup] at h
    split at h
    · next hk =>
      cases h
      simp [hk]
    · exact List.mem_cons_of_mem _ (ih h)

theorem lookup_of_mem {k : κ} {v : ν} {l : List (κ × ν)}
    (hl : l.Pairwise fun a b => Key.before a.1 b.1 = true) (h : (k, v) ∈ l) :
    lookup k l = some v := by
  induction l with
  | nil => cases h
  | cons e rest ih =>
    obtain ⟨k', v'⟩ := e
    rw [List.pairwise_cons] at hl
    rw [lookup]
    rcases List.mem_cons.1 h with heq | hmem
    · cases heq
      rw [if_pos rfl]
    · have hne : k' ≠ k := Key.ne_of_before (hl.1 (k, v) hmem)
      rw [if_neg hne]
      exact ih hl.2 hmem

theorem mem_entries_iff {t : Table κ ν} {k : κ} {v : ν} :
    (k, v) ∈ t.entries ↔ t.get? k = some v :=
  ⟨lookup_of_mem t.sorted, mem_of_lookup⟩

/-- What is filtered by the keys is found under those that pass. -/
theorem get?_filter (t : Table κ ν) (p : κ → Bool) (k : κ) :
    (t.filter fun k' _ => p k').get? k = if p k then t.get? k else none := by
  refine Option.ext fun v => ?_
  rw [← mem_entries_iff]
  simp only [filter, List.mem_filter, mem_entries_iff]
  split
  · next hk => simp [hk]
  · next hk => simp [hk]

theorem mem_values_iff {t : Table κ ν} {v : ν} : v ∈ t.values ↔ ∃ k, t.get? k = some v := by
  rw [values, List.mem_map]
  constructor
  · rintro ⟨⟨k, w⟩, hmem, rfl⟩
    exact ⟨k, mem_entries_iff.1 hmem⟩
  · rintro ⟨k, hk⟩
    exact ⟨(k, v), mem_entries_iff.2 hk, rfl⟩

theorem mem_keys_iff {t : Table κ ν} {k : κ} : k ∈ t.keys ↔ ∃ v, t.get? k = some v := by
  rw [keys, List.mem_map]
  constructor
  · rintro ⟨⟨k', v⟩, hmem, rfl⟩
    exact ⟨v, mem_entries_iff.1 hmem⟩
  · rintro ⟨v, hv⟩
    exact ⟨(k, v), mem_entries_iff.2 hv, rfl⟩

omit [DecidableEq κ] in
theorem keys_nodup (t : Table κ ν) : t.keys.Nodup := by
  rw [keys, List.Nodup, List.pairwise_map]
  exact t.sorted.imp Key.ne_of_before

theorem insertEntry_insertEntry (k : κ) (v w : ν) (l : List (κ × ν)) :
    insertEntry k w (insertEntry k v l) = insertEntry k w l := by
  induction l with
  | nil => simp [insertEntry]
  | cons e rest ih =>
    obtain ⟨k', v'⟩ := e
    by_cases hk : k' = k
    · simp [insertEntry, hk]
    · by_cases hb : Key.before k k' = true
      · simp [insertEntry, hk, hb]
      · simp [insertEntry, hk, hb, ih]

/-- Of two values stored under one key the later stays. -/
theorem set_set (t : Table κ ν) (k : κ) (v w : ν) : (t.set k v).set k w = t.set k w :=
  Table.ext (insertEntry_insertEntry k v w t.entries)

/-- A value that is taken out again leaves nothing behind. -/
theorem filter_insertEntry (k : κ) (v : ν) (l : List (κ × ν)) :
    (insertEntry k v l).filter (fun e => decide (e.1 ≠ k)) =
      l.filter (fun e => decide (e.1 ≠ k)) := by
  induction l with
  | nil => simp [insertEntry]
  | cons e rest ih =>
    obtain ⟨k', v'⟩ := e
    by_cases hk : k' = k
    · simp [insertEntry, hk]
    · by_cases hb : Key.before k k' = true
      · simp [insertEntry, hk, hb]
      · simpa [insertEntry, hk, hb] using ih

theorem erase_set (t : Table κ ν) (k : κ) (v : ν) : (t.set k v).erase k = t.erase k :=
  Table.ext (filter_insertEntry k v t.entries)

/-- Nothing is lost with a key that has no value. -/
theorem erase_of_get?_eq_none {t : Table κ ν} {k : κ} (h : t.get? k = none) : t.erase k = t := by
  refine Table.ext (List.filter_eq_self.2 fun e he => ?_)
  obtain ⟨k', v⟩ := e
  have hfound : t.get? k' = some v := mem_entries_iff.1 he
  have hne : k' ≠ k := fun heq => by
    rw [heq, h] at hfound
    cases hfound
  simpa using hne

/-! ## Tables by their look-ups -/

omit [DecidableEq κ] in
theorem antisymm_before {α : Type} (key : α → κ) :
    Std.Antisymm fun a b => Key.before (key a) (key b) = true :=
  ⟨fun _ _ hab hba => absurd rfl (Key.ne_of_before (Key.trans hab hba))⟩

omit [DecidableEq κ] in
theorem irrefl_before {α : Type} (key : α → κ) :
    Std.Irrefl fun a b => Key.before (key a) (key b) = true :=
  ⟨fun _ hab => absurd rfl (Key.ne_of_before hab)⟩

/-- The keys of a table are known by what is a key. -/
theorem keys_eq_of_contains {ν' : Type} {s : Table κ ν} {t : Table κ ν'}
    (h : ∀ k, s.contains k = t.contains k) : s.keys = t.keys := by
  have hmem : ∀ k, k ∈ s.keys ↔ k ∈ t.keys := by
    intro k
    have hk := h k
    rw [contains, contains, Bool.eq_iff_iff] at hk
    simpa only [mem_keys_iff, Option.isSome_iff_exists] using hk
  have hantisymm := antisymm_before fun k : κ => k
  have hirrefl := irrefl_before fun k : κ => k
  have hs : s.keys.Pairwise fun a b => Key.before a b = true := List.pairwise_map.2 s.sorted
  exact hs.eq_of_mem_iff (List.pairwise_map.2 t.sorted) hmem

/-- Two tables in which the same is found are the same. -/
theorem eq_of_get? {s t : Table κ ν} (h : ∀ k, s.get? k = t.get? k) : s = t := by
  have hmem : ∀ e, e ∈ s.entries ↔ e ∈ t.entries := by
    intro e
    obtain ⟨k, v⟩ := e
    rw [mem_entries_iff, mem_entries_iff, h]
  have hantisymm := antisymm_before fun e : κ × ν => e.1
  have hirrefl := irrefl_before fun e : κ × ν => e.1
  exact Table.ext (s.sorted.eq_of_mem_iff t.sorted hmem)

theorem get?_modify (t : Table κ ν) (k k' : κ) (f : ν → ν) :
    (t.modify k f).get? k' = if k = k' then (t.get? k).map f else t.get? k' := by
  unfold modify
  cases hk : t.get? k with
  | none =>
    by_cases h : k = k'
    · simp [← h, hk]
    · simp [h]
  | some v => simp [get?_set]

/-- The entries of one table under the keys that pass, and those of another under the others. -/
def splice (t u : Table κ ν) (p : κ → Bool) : Table κ ν :=
  (t.filter fun k _ => p k).entries.foldl (fun v e => v.set e.1 e.2) (u.filter fun k _ => !p k)

theorem get?_foldl_set (t : Table κ ν) {l : List (κ × ν)}
    (hl : l.Pairwise fun a b => Key.before a.1 b.1 = true) (k : κ) :
    (l.foldl (fun v e => v.set e.1 e.2) t).get? k = (lookup k l).or (t.get? k) := by
  induction l generalizing t with
  | nil => rfl
  | cons e rest ih =>
    obtain ⟨k', v⟩ := e
    rw [List.pairwise_cons] at hl
    rw [List.foldl_cons, ih _ hl.2, get?_set, lookup]
    by_cases hk : k' = k
    · -- the key is not listed again
      have hnone : lookup k rest = none := by
        cases hrest : lookup k rest with
        | none => rfl
        | some w => exact absurd hk (Key.ne_of_before (hl.1 _ (mem_of_lookup hrest)))
      simp [hk, hnone]
    · simp [hk]

theorem get?_splice (t u : Table κ ν) (p : κ → Bool) (k : κ) :
    (t.splice u p).get? k = if p k then t.get? k else u.get? k := by
  have hleft := get?_filter t p k
  have hright := get?_filter u (fun k => !p k) k
  rw [splice, get?_foldl_set _ (t.filter _).sorted, hright]
  change (Table.get? (t.filter fun k _ => p k) k).or _ = _
  rw [hleft]
  cases p k <;> simp

theorem set_of_get? {t : Table κ ν} {k : κ} {v : ν} (h : t.get? k = some v) : t.set k v = t := by
  refine eq_of_get? fun x => ?_
  rw [get?_set]
  split
  · next hx => rw [← hx, h]
  · rfl

/-! ### What happens first -/

theorem modify_set (t : Table κ ν) (k k' : κ) (v : ν) (f : ν → ν) :
    (t.set k v).modify k' f = (t.modify k' f).set k (if k' = k then f v else v) := by
  refine eq_of_get? fun x => ?_
  by_cases hk : k' = k
  · subst hk
    by_cases hx : k' = x <;> simp [get?_modify, get?_set, hx]
  · by_cases hx : k' = x
    · subst hx
      simp [get?_modify, get?_set, hk, Ne.symm hk]
    · simp [get?_modify, get?_set, hk, hx]

theorem modify_modify (t : Table κ ν) (k : κ) (f g : ν → ν) :
    (t.modify k f).modify k g = t.modify k fun v => g (f v) := by
  refine eq_of_get? fun x => ?_
  by_cases hx : k = x
  · subst hx
    simp [get?_modify, Function.comp_def]
  · simp [get?_modify, hx]

theorem modify_erase (t : Table κ ν) (k k' : κ) (f : ν → ν) :
    (t.erase k).modify k' f = (t.modify k' f).erase k := by
  refine eq_of_get? fun x => ?_
  by_cases hx : k' = x
  · subst hx
    by_cases hk : k = k' <;> simp [get?_modify, get?_erase, hk]
  · simp [get?_modify, get?_erase, hx]

theorem splice_set {p : κ → Bool} {k : κ} (hk : p k = true) (t u : Table κ ν) (v : ν) :
    (t.set k v).splice u p = (t.splice u p).set k v := by
  refine eq_of_get? fun x => ?_
  by_cases hx : k = x
  · subst hx
    simp [get?_splice, hk]
  · simp [get?_splice, get?_set, hx]

theorem splice_erase {p : κ → Bool} {k : κ} (hk : p k = true) (t u : Table κ ν) :
    (t.erase k).splice u p = (t.splice u p).erase k := by
  refine eq_of_get? fun x => ?_
  by_cases hx : k = x
  · subst hx
    simp [get?_splice, hk]
  · simp [get?_splice, get?_erase, hx]

end LanguageClient.Table
