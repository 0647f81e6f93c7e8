/-!
# Tables kept in key order

`Table κ ν` is a finite map whose entries are listed by ascending key, so that two tables with the
same look-ups are equal and every listing of one comes out in one order. The main statements say
what a look-up finds after `set` and `erase`.
-/

namespace LanguageClient

/-- A type whose values can key a table: `before` is a strict total order on it. -/
class Key (κ : Type) where
  before : κ → κ → Bool
  irrefl : ∀ a, before a a = false
  trans : ∀ {a b c}, before a b = true → before b c = true → before a c = true
  connex : ∀ {a b}, before a b = false → before b a = false → a = b

namespace Key

variable {κ : Type} [Key κ]

theorem ne_of_before {a b : κ} (h : before a b = true) : a ≠ b := by
  intro hab
  subst hab
  simp [irrefl] at h

theorem before_of_not_before {a b : κ} (hne : a ≠ b) (h : before b a = false) :
    before a b = true := by
  cases hab : before a b with
  | true => rfl
  | false => exact absurd (connex hab h) hne

end Key

instance : Key String where
  before a b := decide (a < b)
  irrefl a := decide_eq_false (String.lt_irrefl a)
  trans h h' := by
    simp only [decide_eq_true_eq] at *
    exact String.lt_trans h h'
  connex h h' := by
    simp only [decide_eq_false_iff_not, String.not_lt] at *
    exact String.le_antisymm h' h

instance : Key Nat where
  before a b := decide (a < b)
  irrefl a := by simp
  trans h h' := by simp only [decide_eq_true_eq] at *; omega
  connex h h' := by simp only [decide_eq_false_iff_not] at *; omega

/-- Pairs are ordered by their first part, then by their second. -/
instance {α β : Type} [Key α] [Key β] : Key (α × β) where
  before p q := Key.before p.1 q.1 || (!Key.before q.1 p.1 && Key.before p.2 q.2)
  irrefl p := by simp [Key.irrefl]
  trans {p q r} h h' := by
    simp only [Bool.or_eq_true, Bool.and_eq_true, Bool.not_eq_true'] at *
    rcases h with h | ⟨h1, h2⟩ <;> rcases h' with h' | ⟨h1', h2'⟩
    · exact .inl (Key.trans h h')
    · cases hb : Key.before p.1 r.1 with
      | true => exact .inl rfl
      | false =>
        cases hr : Key.before r.1 p.1 with
        | true =>
          have := Key.trans hr h
          simp [h1'] at this
        | false =>
          rw [Key.connex hb hr] at h
          simp [h1'] at h
    · cases hq : Key.before p.1 r.1 with
      | true => exact .inl rfl
      | false =>
        cases hr : Key.before r.1 p.1 with
        | true =>
          have := Key.trans h' hr
          simp [h1] at this
        | false =>
          rw [← Key.connex hq hr] at h'
          simp [h1] at h'
    · cases hq : Key.before p.1 r.1 with
      | true => exact .inl rfl
      | false =>
        cases hr : Key.before r.1 p.1 with
        | false => exact .inr ⟨rfl, Key.trans h2 h2'⟩
        | true =>
          cases hpq : Key.before p.1 q.1 with
          | true =>
            have := Key.trans hr hpq
            simp [h1'] at this
          | false =>
            rw [Key.connex hpq h1] at hr
            simp [h1'] at hr
  connex {p q} h h' := by
    simp only [Bool.or_eq_false_iff, Bool.and_eq_false_iff, Bool.not_eq_false'] at *
    obtain ⟨h1, h2⟩ := h
    obtain ⟨h1', h2'⟩ := h'
    have h3 : Key.before p.2 q.2 = false := by simpa [h1'] using h2
    have h4 : Key.before q.2 p.2 = false := by simpa [h1] using h2'
    exact Prod.ext (Key.connex h1 h1') (Key.connex h3 h4)

/-- A finite map, listed by ascending key. -/
structure Table (κ ν : Type) [Key κ] where
  entries : List (κ × ν)
  sorted : entries.Pairwise (fun a b => Key.before a.1 b.1 = true)

namespace Table

variable {κ ν : Type} [Key κ]

/-- The table without entries. -/
def empty : Table κ ν := ⟨[], .nil⟩

instance : Inhabited (Table κ ν) := ⟨empty⟩

@[ext] theorem ext {s t : Table κ ν} (h : s.entries = t.entries) : s = t := by
  cases s; cases t; simp_all

/-- Keeps the entries that pass `p`. -/
def filter (t : Table κ ν) (p : κ → ν → Bool) : Table κ ν :=
  ⟨t.entries.filter (fun e => p e.1 e.2), t.sorted.filter _⟩

/-- The keys in ascending order. -/
def keys (t : Table κ ν) : List κ := t.entries.map Prod.fst

/-- The stored values by ascending key. -/
def values (t : Table κ ν) : List ν := t.entries.map Prod.snd

/-- How many entries there are. -/
def size (t : Table κ ν) : Nat := t.entries.length

/-- Whether there are no entries. -/
def isEmpty (t : Table κ ν) : Bool := t.entries.isEmpty

variable [DecidableEq κ]

/-- The value at `k` in a list of entries. -/
def lookup (k : κ) : List (κ × ν) → Option ν
  | [] => none
  | (k', v) :: rest => if k' = k then some v else lookup k rest

/-- The value stored under `k`. -/
def get? (t : Table κ ν) (k : κ) : Option ν := lookup k t.entries

/-- Whether something is stored under `k`. -/
def contains (t : Table κ ν) (k : κ) : Bool := (t.get? k).isSome

/-- Puts `v` at its place in an ascending list; a value already stored under `k` gives way. -/
def insertEntry (k : κ) (v : ν) : List (κ × ν) → List (κ × ν)
  | [] => [(k, v)]
  | (k', v') :: rest =>
    if k' = k then (k, v) :: rest
    else if Key.before k k' then (k, v) :: (k', v') :: rest
    else (k', v') :: insertEntry k v rest

theorem mem_insertEntry {k : κ} {v : ν} {l : List (κ × ν)} {e : κ × ν}
    (h : e ∈ insertEntry k v l) : e = (k, v) ∨ e ∈ l := by
  induction l with
  | nil => exact .inl (by simpa [insertEntry] using h)
  | cons a rest ih =>
    obtain ⟨k', v'⟩ := a
    simp only [insertEntry] at h
    split at h
    · rcases List.mem_cons.1 h with h | h
      · exact .inl h
      · exact .inr (by simp [h])
    · split at h
      · simpa using h
      · rcases List.mem_cons.1 h with h | h
        · exact .inr (by simp [h])
        · rcases ih h with h | h
          · exact .inl h
          · exact .inr (by simp [h])

theorem sorted_insertEntry {k : κ} {v : ν} {l : List (κ × ν)}
    (h : l.Pairwise (fun a b => Key.before a.1 b.1 = true)) :
    (insertEntry k v l).Pairwise (fun a b => Key.before a.1 b.1 = true) := by
  induction l with
  | nil => simp [insertEntry]
  | cons a rest ih =>
    obtain ⟨k', v'⟩ := a
    have hr := List.pairwise_cons.1 h
    simp only [insertEntry]
    split
    · next hk =>
      subst hk
      exact List.pairwise_cons.2 ⟨fun e he => hr.1 e he, hr.2⟩
    · next hk =>
      split
      · next hb =>
        refine List.pairwise_cons.2 ⟨fun e he => ?_, h⟩
        rcases List.mem_cons.1 he with he | he
        · simpa [he] using hb
        · exact Key.trans hb (hr.1 e he)
      · next hb =>
        refine List.pairwise_cons.2 ⟨fun e he => ?_, ih hr.2⟩
        rcases mem_insertEntry he with he | he
        · simpa [he] using Key.before_of_not_before hk (by simpa using hb)
        · exact hr.1 e he

/-- Stores `v` under `k`. -/
def set (t : Table κ ν) (k : κ) (v : ν) : Table κ ν :=
  ⟨insertEntry k v t.entries, sorted_insertEntry t.sorted⟩

/-- Forgets what is stored under `k`. -/
def erase (t : Table κ ν) (k : κ) : Table κ ν := t.filter (fun k' _ => k' ≠ k)

/-- Replaces the value under `k`, if there is one, by `f` of it. -/
def modify (t : Table κ ν) (k : κ) (f : ν → ν) : Table κ ν :=
  match t.get? k with
  | none => t
  | some v => t.set k (f v)

@[simp] theorem get?_empty (k : κ) : (empty : Table κ ν).get? k = none := rfl

theorem lookup_insertEntry (k k' : κ) (v : ν) (l : List (κ × ν)) :
    lookup k' (insertEntry k v l) = if k = k' then some v else lookup k' l := by
  induction l with
  | nil => simp [insertEntry, lookup]
  | cons a rest ih =>
    obtain ⟨k'', v''⟩ := a
    by_cases hk : k'' = k
    · subst hk
      by_cases h : k'' = k' <;> simp [insertEntry, lookup, h]
    · by_cases hb : Key.before k k'' = true
      · rw [insertEntry, if_neg hk, if_pos hb, lookup]
      · rw [insertEntry, if_neg hk, if_neg hb, lookup, lookup, ih]
        by_cases h : k'' = k'
        · rw [if_pos h, if_pos h, if_neg fun e => hk (h.trans e.symm)]
        · rw [if_neg h, if_neg h]

/-- A stored value is found under its key, and every other key is as it was. -/
theorem get?_set (t : Table κ ν) (k k' : κ) (v : ν) :
    (t.set k v).get? k' = if k = k' then some v else t.get? k' :=
  lookup_insertEntry k k' v t.entries

@[simp] theorem get?_set_self (t : Table κ ν) (k : κ) (v : ν) : (t.set k v).get? k = some v := by
  simp [get?_set]

theorem get?_set_of_ne (t : Table κ ν) {k k' : κ} (v : ν) (h : k ≠ k') :
    (t.set k v).get? k' = t.get? k' := by
  simp [get?_set, h]

omit [Key κ] in
theorem lookup_filter_ne (k k' : κ) (l : List (κ × ν)) :
    lookup k' (l.filter (fun e => e.1 ≠ k)) = if k = k' then none else lookup k' l := by
  induction l with
  | nil => simp [lookup]
  | cons a rest ih =>
    obtain ⟨k'', v''⟩ := a
    by_cases hk : k'' = k
    · subst hk
      rw [List.filter_cons_of_neg (by simp), ih]
      by_cases h : k'' = k' <;> simp [lookup, h]
    · rw [List.filter_cons_of_pos (by simpa using hk), lookup, ih]
      by_cases h : k'' = k'
      · have : k ≠ k' := fun e => hk (h.trans e.symm)
        simp [lookup, h, this]
      · simp [lookup, h]

/-- An erased key is gone, and every other key is as it was. -/
theorem get?_erase (t : Table κ ν) (k k' : κ) :
    (t.erase k).get? k' = if k = k' then none else t.get? k' :=
  lookup_filter_ne k k' t.entries

@[simp] theorem get?_erase_self (t : Table κ ν) (k : κ) : (t.erase k).get? k = none := by
  simp [get?_erase]

theorem get?_erase_of_ne (t : Table κ ν) {k k' : κ} (h : k ≠ k') :
    (t.erase k).get? k' = t.get? k' := by
  simp [get?_erase, h]

end Table

end LanguageClient
