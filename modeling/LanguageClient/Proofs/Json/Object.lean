import LanguageClient.Json.Basic

/-!
# Objects

How the fields an object is made of come to stand in it: fields given in ascending key order stand
as they were given, and a look-up finds the last field given under its key.
-/

namespace LanguageClient.Json

/-- A field whose key comes after every key that is there goes to the end. -/
theorem insertField_of_lt {k : String} {v : Json} {fields : List (String × Json)}
    (h : ∀ f ∈ fields, f.1 < k) : insertField k v fields = fields ++ [(k, v)] := by
  induction fields with
  | nil => rfl
  | cons f fields ih =>
    obtain ⟨k', v'⟩ := f
    have hk : k' < k := h (k', v') (by simp)
    rw [insertField, if_neg (String.ne_of_lt hk), if_neg (String.lt_asymm hk),
      ih (fun f hf => h f (by simp [hf])), List.cons_append]

/-- The object of fields in ascending key order is made of just these fields. -/
theorem object_of_sorted {fields : List (String × Json)}
    (h : fields.Pairwise (fun f g => f.1 < g.1)) : object fields = .obj fields := by
  have hfold : ∀ done : List (String × Json), (done ++ fields).Pairwise (fun f g => f.1 < g.1) →
      fields.foldl (fun acc f => insertField f.1 f.2 acc) done = done ++ fields := by
    clear h
    induction fields with
    | nil => simp
    | cons f fields ih =>
      intro done h
      have hlast : insertField f.1 f.2 done = done ++ [f] := by
        refine insertField_of_lt fun g hg => ?_
        exact (List.pairwise_append.1 h).2.2 g hg f (by simp)
      rw [List.foldl_cons, hlast, ih (done ++ [f]) (by simpa using h)]
      simp
  rw [object, hfold [] (by simpa using h), List.nil_append]

theorem find?_insertField (key k : String) (v : Json) (fields : List (String × Json)) :
    (insertField k v fields).find? (·.1 = key) =
      if k = key then some (k, v) else fields.find? (·.1 = key) := by
  induction fields with
  | nil => by_cases h : k = key <;> simp [insertField, h]
  | cons f fields ih =>
    obtain ⟨k', v'⟩ := f
    rw [insertField]
    by_cases hk : k' = k
    · subst hk
      by_cases h : k' = key <;> simp [h]
    · rw [if_neg hk]
      split
      · by_cases h : k = key <;> simp [h]
      · rw [List.find?_cons, List.find?_cons, ih]
        by_cases h : k' = key
        · have hne : ¬ k = key := fun heq => hk (h.trans heq.symm)
          simp [h, hne]
        · simp [h]

/-- Of fields that are put into others the last one with a key counts, and where there is none the
one that was there. -/
theorem find?_foldl_insertField (key : String) (fields done : List (String × Json)) :
    (fields.foldl (fun acc f => insertField f.1 f.2 acc) done).find? (·.1 = key) =
      (fields.reverse.find? (·.1 = key)).or (done.find? (·.1 = key)) := by
  induction fields generalizing done with
  | nil => simp
  | cons f fields ih =>
    obtain ⟨k, v⟩ := f
    rw [List.foldl_cons, ih, find?_insertField, List.reverse_cons, List.find?_append,
      Option.or_assoc]
    by_cases h : k = key <;> simp [h]

/-- **Of the fields an object is made of, the last one with a key counts.** -/
theorem get?_object (key : String) (fields : List (String × Json)) :
    (object fields).get? key = (fields.reverse.find? (·.1 = key)).map (·.2) := by
  rw [object, get?, find?_foldl_insertField]
  simp

/-! ## Fields in ascending key order -/

section Sorted

variable {key : String} {f : String × Json} {fields : List (String × Json)}

theorem find?_eq_none_of_lt (h : ∀ g ∈ fields, key < g.1) :
    fields.find? (·.1 = key) = none := by
  refine List.find?_eq_none.2 fun g hg => ?_
  simpa using (String.ne_of_lt (h g hg)).symm

/-- A look-up finds the one field of its key. -/
theorem find?_of_mem (h : fields.Pairwise fun f g => f.1 < g.1) (hf : f ∈ fields) :
    fields.find? (·.1 = f.1) = some f := by
  induction fields with
  | nil => cases hf
  | cons g fields ih =>
    obtain ⟨hfirst, hrest⟩ := List.pairwise_cons.1 h
    rcases List.mem_cons.1 hf with rfl | hmem
    · simp
    · rw [List.find?_cons_of_neg (by simpa using String.ne_of_lt (hfirst f hmem)), ih hrest hmem]

/-- It does not matter from which end a key is looked for. -/
theorem find?_reverse_of_sorted (h : fields.Pairwise fun f g => f.1 < g.1) (key : String) :
    fields.reverse.find? (·.1 = key) = fields.find? (·.1 = key) := by
  induction fields with
  | nil => rfl
  | cons f fields ih =>
    obtain ⟨hfirst, hrest⟩ := List.pairwise_cons.1 h
    rw [List.reverse_cons, List.find?_append, ih hrest]
    by_cases hkey : f.1 = key
    · simp [find?_eq_none_of_lt (hkey ▸ hfirst), hkey]
    · simp [hkey]

/-- Among some of the fields a look-up finds what it finds among all of them, if that is kept. -/
theorem find?_filter_of_sorted (h : fields.Pairwise fun f g => f.1 < g.1)
    (keep : String × Json → Bool) (key : String) :
    (fields.filter keep).find? (·.1 = key) = (fields.find? (·.1 = key)).filter keep := by
  induction fields with
  | nil => rfl
  | cons f fields ih =>
    obtain ⟨hfirst, hrest⟩ := List.pairwise_cons.1 h
    by_cases hkey : f.1 = key
    · have hnone : (fields.filter keep).find? (·.1 = key) = none :=
        find?_eq_none_of_lt fun g hg => hkey ▸ hfirst g (List.mem_filter.1 hg).1
      cases hkeep : keep f <;> simp [Option.filter, hkeep, hkey, hnone]
    · rw [List.find?_cons_of_neg (by simpa using hkey), ← ih hrest, List.filter_cons]
      split
      · exact List.find?_cons_of_neg (by simpa using hkey)
      · rfl

end Sorted

end LanguageClient.Json
