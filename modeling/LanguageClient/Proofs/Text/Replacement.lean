import LanguageClient.Proofs.Text.Arrangement
import Mathlib.Algebra.GroupWithZero.Nat
import Mathlib.Algebra.Ring.Int.Defs

/-!
# Replacing regions of a text

One pass over a text replaces the regions of all edits. Each region takes a piece that is kept and
one that is removed off what is left of the text (`Splice.Replaces`), and what is said of the result
goes by induction on that. The pass always gives such a result (`replaces_editText`), and a place of
the text which lies in no region cuts the result in two (`Splice.Replaces.split`).
-/

namespace LanguageClient

open Text

namespace Splice

/-- What comes of replacing regions, in order, in what is left of a text behind a front. -/
inductive Replaces : List Char → List Char → List Splice → List Char → Prop where
  | done (front rest : List Char) : Replaces front rest [] rest
  | next {front : List Char} (kept removed inserted : List Char) {rest out : List Char}
      {splices : List Splice}
      (later : Replaces (front ++ (kept ++ removed)) rest splices out) :
      Replaces front (kept ++ (removed ++ rest))
        (⟨byteLength (front ++ kept), byteLength (front ++ (kept ++ removed)), inserted⟩ :: splices)
        (kept ++ (inserted ++ out))

variable {c : Nat} {text front rest out : List Char} {splices : List Splice} {s : Splice}

/-- How many bytes a text grows by when a region is replaced. -/
def growth (s : Splice) : Int := byteLength s.inserted - (s.stop - s.start : Int)

/-! ## The pass over the text -/

theorem append_regroup (front kept removed rest : List Char) :
    front ++ (kept ++ (removed ++ rest)) = front ++ (kept ++ removed) ++ rest := by
  simp only [List.append_assoc]

theorem sliceBytes_front (front kept rest : List Char) :
    sliceBytes (byteLength front) (byteLength (front ++ kept)) (front ++ (kept ++ rest)) =
      kept := by
  rw [byteLength_append, sliceBytes_append]

/-- The pass over a text takes the regions off as they come. -/
theorem Replaces.assemble_eq (h : Replaces front rest splices out) :
    assemble (front ++ rest) (byteLength front) splices = out := by
  induction h with
  | done front rest => rw [assemble, dropBytes_byteLength]
  | @next front kept removed inserted rest out splices later ih =>
    simp only [List.append_assoc] at ih
    rw [assemble, sliceBytes_front, ih, List.append_assoc]

/-- Regions of edits can be replaced one after another, however the edits overlap. -/
theorem exists_replaces (front rest : List Char) (edits : List TextEdit) :
    ∃ out, Replaces front rest
      (TextEdit.splices (front ++ rest) (byteLength front) edits) out := by
  generalize htext : front ++ rest = text
  induction edits generalizing front rest with
  | nil => exact ⟨rest, .done _ _⟩
  | cons e edits ih =>
    have hstart : IsBoundary (max (e.range.start.offset text) (byteLength front)) text :=
      isBoundary_max (e.range.start.isBoundary_offset text)
        (htext ▸ isBoundary_append_left front rest)
    obtain ⟨upTo, behind, hcut, hupTo⟩ := hstart
    obtain ⟨kept, rfl, rfl⟩ := exists_append_of_byteLength_le (htext.trans hcut)
      (Nat.le_trans (Nat.le_max_right _ _) (Nat.le_of_eq hupTo.symm))
    have hstop : IsBoundary (max (e.range.stop.offset text) (byteLength (front ++ kept))) text :=
      isBoundary_max (e.range.stop.isBoundary_offset text)
        (hcut ▸ isBoundary_append_left (front ++ kept) behind)
    obtain ⟨through, rest, hcut', hthrough⟩ := hstop
    obtain ⟨removed, rfl, rfl⟩ := exists_append_of_byteLength_le (hcut.symm.trans hcut')
      (Nat.le_trans (Nat.le_max_right _ _) (Nat.le_of_eq hthrough.symm))
    rw [List.append_assoc front] at hcut' hthrough
    obtain ⟨out, hout⟩ := ih (front ++ (kept ++ removed)) rest hcut'.symm
    refine ⟨kept ++ (e.newText.toList ++ out), ?_⟩
    rw [TextEdit.splices, ← hupTo, ← hthrough]
    exact .next kept removed e.newText.toList hout

/-! ## The length of the result -/

theorem Replaces.byteLength_eq (h : Replaces front rest splices out) :
    (byteLength out : Int) = byteLength rest + (splices.map growth).sum := by
  induction h with
  | done front rest => simp
  | next kept removed inserted later ih =>
    simp only [byteLength_append, List.map_cons, List.sum_cons, growth, Int.natCast_add, ih]
    omega

/-- Regions that are replaced cost no more than the text has, and bring no more than is inserted. -/
theorem Replaces.growth_bounds (h : Replaces front rest splices out) (p : Splice → Bool) :
    -(byteLength rest : Int) ≤ ((splices.filter p).map growth).sum ∧
      ((splices.filter p).map growth).sum ≤ ((splices.map (byteLength ·.inserted)).sum : Nat) := by
  induction h with
  | done front rest => simp
  | next kept removed inserted later ih =>
    simp only [byteLength_append, List.filter_cons, List.map_cons, List.sum_cons, Int.natCast_add]
    split
    · simp only [List.map_cons, List.sum_cons, growth, Int.natCast_add]
      omega
    · omega

/-- What stands before the cursor moves by as much as the regions that start before it grow. -/
theorem shift_eq_sum (c : Nat) (splices : List Splice) :
    shift c splices = ((splices.filter (·.start < c)).map growth).sum := by
  have hfold : ∀ (n : Int) (ss : List Splice),
      ss.foldl (fun n s => n + (byteLength s.inserted - (s.stop - s.start) : Int)) n =
        n + (ss.map growth).sum := by
    intro n ss
    induction ss generalizing n with
    | nil => simp
    | cons s ss ih =>
      rw [List.foldl_cons, ih, List.map_cons, List.sum_cons, growth]
      omega
  rw [shift, hfold, Int.zero_add]

/-! ## Places between regions -/

/-- Whether an offset lies inside none of some regions; it may be where one begins or ends. -/
def Undivided (c : Nat) (splices : List Splice) : Prop :=
  ∀ s ∈ splices, ¬ (s.start < c ∧ c < s.stop)

/-- No region of a pass reaches back into the front. -/
theorem Replaces.le_start (h : Replaces front rest splices out) (hs : s ∈ splices) :
    byteLength front ≤ s.start := by
  induction h with
  | done front rest => cases hs
  | next kept removed inserted later ih =>
    rcases List.mem_cons.1 hs with rfl | hs
    · simp only [byteLength_append]
      omega
    · have hlater := ih hs
      rw [byteLength_append] at hlater
      omega

theorem filter_lt_eq_nil (h : ∀ s ∈ splices, c ≤ s.start) :
    splices.filter (·.start < c) = [] := by
  rw [List.filter_eq_nil_iff]
  intro s hs
  have hle := h s hs
  simp [hle]

theorem filter_not_lt_eq_self (h : ∀ s ∈ splices, c ≤ s.start) :
    splices.filter (fun s => !decide (s.start < c)) = splices := by
  rw [List.filter_eq_self]
  intro s hs
  have hle := h s hs
  simp [hle]

/-- **A place that lies in no region cuts the result in two**: what the regions before it make of
the text before it, and what the others make of the text from it on. -/
theorem Replaces.split {before after : List Char} (h : Replaces front (before ++ after) splices out)
    (hc : byteLength (front ++ before) = c) (undivided : Undivided c splices) :
    ∃ out₁ out₂, out = out₁ ++ out₂ ∧
      Replaces front before (splices.filter (·.start < c)) out₁ ∧
      Replaces (front ++ before) after (splices.filter fun s => !decide (s.start < c)) out₂ := by
  generalize htext : before ++ after = text at h
  induction h generalizing before with
  | done front rest =>
    subst htext
    exact ⟨before, after, rfl, .done _ _, .done _ _⟩
  | @next front kept removed inserted rest out splices later ih =>
    by_cases hstart : byteLength (front ++ kept) < c
    · -- the first region lies before the place as a whole
      have hstop : byteLength (front ++ (kept ++ removed)) ≤ c := by
        have hfirst : ¬ (byteLength (front ++ kept) < c ∧
            c < byteLength (front ++ (kept ++ removed))) := undivided _ List.mem_cons_self
        omega
      have hle : byteLength (kept ++ removed) ≤ byteLength before := by
        simp only [← hc, byteLength_append] at hstop ⊢
        omega
      obtain ⟨more, rfl, rfl⟩ := exists_append_of_byteLength_le
        ((List.append_assoc _ _ _).trans htext.symm) hle
      rw [← List.append_assoc] at hc
      obtain ⟨out₁, out₂, rfl, h₁, h₂⟩ :=
        ih hc (fun s hs => undivided s (List.mem_cons_of_mem _ hs)) rfl
      refine ⟨kept ++ (inserted ++ out₁), out₂, by simp only [List.append_assoc], ?_, ?_⟩
      · rw [List.filter_cons_of_pos (by simpa using hstart), List.append_assoc]
        exact .next kept removed inserted h₁
      · rw [List.filter_cons_of_neg (by simpa using hstart), ← List.append_assoc]
        exact h₂
    · -- it is the place that comes first
      have hle : byteLength before ≤ byteLength kept := by
        simp only [← hc, byteLength_append] at hstart
        omega
      obtain ⟨more, rfl, rfl⟩ := exists_append_of_byteLength_le htext hle
      have hkept : front ++ (before ++ more) = front ++ before ++ more :=
        (List.append_assoc _ _ _).symm
      have hremoved : front ++ (before ++ more ++ removed) =
          front ++ before ++ (more ++ removed) := by
        simp only [List.append_assoc]
      rw [hremoved] at later
      have hbehind := Replaces.next more removed inserted later
      rw [← hkept, ← hremoved] at hbehind
      have hstarts := fun s hs => hc ▸ hbehind.le_start (s := s) hs
      refine ⟨before, more ++ (inserted ++ out), List.append_assoc _ _ _, ?_, ?_⟩
      · rw [filter_lt_eq_nil hstarts]
        exact .done front before
      · rw [filter_not_lt_eq_self hstarts]
        exact hbehind

end Splice

namespace TextEdit

/-- How many bytes the new texts of edits take together. -/
def insertedLength (edits : List TextEdit) : Nat :=
  (edits.map (byteLength ·.newText.toList)).sum

/-- Every edit brings its new text to the pass, also where there is nothing left to remove. -/
theorem map_inserted_splices (text : List Char) (n : Nat) (edits : List TextEdit) :
    (splices text n edits).map (·.inserted) = edits.map (·.newText.toList) := by
  induction edits generalizing n with
  | nil => rfl
  | cons e edits ih => rw [splices, List.map_cons, List.map_cons, ih]

theorem insertedLength_sort (edits : List TextEdit) :
    insertedLength (sort edits) = insertedLength edits :=
  ((arranges_sort edits).perm.map _).sum_nat

theorem sum_inserted_splices_sort (text : List Char) (edits : List TextEdit) :
    ((splices text 0 (sort edits)).map (byteLength ·.inserted)).sum = insertedLength edits := by
  have hmap := congrArg (List.map byteLength) (map_inserted_splices text 0 (sort edits))
  rw [List.map_map, List.map_map] at hmap
  rw [← insertedLength_sort]
  exact congrArg List.sum hmap

end TextEdit

/-- **Applying edits replaces their regions**, clipped so that none reaches back into another. -/
theorem replaces_editText (text : List Char) (edits : List TextEdit) :
    Splice.Replaces [] text (TextEdit.splices text 0 (TextEdit.sort edits))
      (editText text edits) := by
  obtain ⟨out, hout⟩ := Splice.exists_replaces [] text (TextEdit.sort edits)
  have hassemble : Splice.assemble ([] ++ text) 0 _ = out := hout.assemble_eq
  rw [← hassemble] at hout
  exact hout

end LanguageClient
