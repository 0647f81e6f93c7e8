import LanguageClient.Proofs.Text.Cursor
import Mathlib.Data.Finset.Union
import Mathlib.Order.Interval.Finset.Nat

/-!
# What survives of an edited text

However edits overlap, the pass over a text takes slices of it that lie in order between boundaries
of characters. The offsets in the slices are those that no edit's region holds, each once, since
clipping a region to where the ones before it ended takes nothing from the union of them all
(`TextEdit.covers_splices`): edits that come later start later. What comes out is the slices with
the new texts between them (`TextEdit.survives_iff_not_overruns`).
-/

namespace LanguageClient

open Text

/-- Lists of two kinds taken in turn and joined, one of the first kind first. -/
def weave {α : Type} : List (List α) → List (List α) → List α
  | k :: ks, i :: is => k ++ (i ++ weave ks is)
  | ks, [] => ks.flatten
  | [], is => is.flatten

namespace Splice

variable {i n : Nat} {front rest out : List Char} {splices : List Splice} {gap : Nat × Nat}

/-- Where the slices begin and end that the pass takes from a text of some size. -/
def gaps (size : Nat) : Nat → List Splice → List (Nat × Nat)
  | n, [] => [(n, size)]
  | n, s :: splices => (n, s.start) :: gaps size s.stop splices

/-- The offsets from one on to before another. -/
def offsets (gap : Nat × Nat) : List Nat := List.range' gap.1 (gap.2 - gap.1)

/-- Whether one of some regions holds an offset. -/
def covers (splices : List Splice) (i : Nat) : Bool :=
  splices.any fun s => s.start ≤ i && i < s.stop

theorem covers_cons (s : Splice) (splices : List Splice) (i : Nat) :
    covers (s :: splices) i = true ↔ s.start ≤ i ∧ i < s.stop ∨ covers splices i = true := by
  simp [covers]

theorem length_gaps (size n : Nat) (splices : List Splice) :
    (gaps size n splices).length = splices.length + 1 := by
  induction splices generalizing n with
  | nil => rfl
  | cons s splices ih => rw [gaps, List.length_cons, List.length_cons, ih]

/-! ## The slices of a pass -/

/-- Every slice lies between two boundaries of the text, the first of them first. -/
theorem Replaces.gap_sound (h : Replaces front rest splices out)
    (hgap : gap ∈ gaps (byteLength (front ++ rest)) (byteLength front) splices) :
    gap.1 ≤ gap.2 ∧ IsBoundary gap.1 (front ++ rest) ∧ IsBoundary gap.2 (front ++ rest) := by
  induction h with
  | done front rest =>
    obtain rfl := List.mem_singleton.1 hgap
    have hfront := isBoundary_append_left front rest
    exact ⟨hfront.le, hfront, isBoundary_byteLength _⟩
  | @next front kept removed inserted rest out splices later ih =>
    rcases List.mem_cons.1 hgap with rfl | hgap
    · have hkept := isBoundary_append_left (front ++ kept) (removed ++ rest)
      rw [List.append_assoc] at hkept
      refine ⟨?_, isBoundary_append_left front _, hkept⟩
      rw [byteLength_append]
      exact Nat.le_add_right _ _
    · rw [append_regroup] at hgap ⊢
      exact ih hgap

/-- No slice reaches back into the front. -/
theorem Replaces.le_gap (h : Replaces front rest splices out)
    (hgap : gap ∈ gaps (byteLength (front ++ rest)) (byteLength front) splices) :
    byteLength front ≤ gap.1 := by
  induction h with
  | done front rest =>
    obtain rfl := List.mem_singleton.1 hgap
    exact Nat.le_refl _
  | @next front kept removed inserted rest out splices later ih =>
    rcases List.mem_cons.1 hgap with rfl | hgap
    · exact Nat.le_refl _
    · rw [append_regroup] at hgap
      have hlater := ih hgap
      rw [byteLength_append] at hlater
      omega

/-- Each slice ends before the ones behind it begin. -/
theorem Replaces.pairwise_gaps (h : Replaces front rest splices out) :
    (gaps (byteLength (front ++ rest)) (byteLength front) splices).Pairwise
      fun a b => a.2 ≤ b.1 := by
  induction h with
  | done front rest => exact List.pairwise_singleton _ _
  | @next front kept removed inserted rest out splices later ih =>
    rw [gaps, append_regroup, List.pairwise_cons]
    refine ⟨fun gap hgap => ?_, ih⟩
    have hlater := later.le_gap hgap
    rw [← List.append_assoc, byteLength_append] at hlater
    exact Nat.le_trans (Nat.le_add_right _ _) hlater

/-- The result is the slices with the new texts between them. -/
theorem Replaces.eq_weave (h : Replaces front rest splices out) :
    out = weave ((gaps (byteLength (front ++ rest)) (byteLength front) splices).map
      fun gap => sliceBytes gap.1 gap.2 (front ++ rest)) (splices.map (·.inserted)) := by
  induction h with
  | done front rest =>
    have hslice := sliceBytes_front front rest []
    rw [List.append_nil] at hslice
    simp [gaps, weave, hslice]
  | @next front kept removed inserted rest out splices later ih =>
    rw [gaps, List.map_cons, List.map_cons, weave, sliceBytes_front, append_regroup, ← ih]

/-- The result is as long as the slices and the new texts together. -/
theorem Replaces.byteLength_out (h : Replaces front rest splices out) :
    byteLength out =
      ((gaps (byteLength (front ++ rest)) (byteLength front) splices).flatMap offsets).length +
        (splices.map (byteLength ·.inserted)).sum := by
  induction h with
  | done front rest =>
    rw [gaps, List.flatMap_singleton, offsets, List.length_range', byteLength_append]
    simp
  | @next front kept removed inserted rest out splices later ih =>
    rw [gaps, List.flatMap_cons, List.length_append, append_regroup, List.map_cons, List.sum_cons]
    simp only [byteLength_append, offsets, List.length_range'] at ih ⊢
    omega

/-! ## Offsets that no region holds -/

theorem Replaces.not_covers_of_lt (h : Replaces front rest splices out)
    (hi : i < byteLength front) : ¬ covers splices i = true := by
  simp only [covers, List.any_eq_true, Bool.and_eq_true, decide_eq_true_eq, not_exists, not_and]
  intro s hs hle
  have hstart := h.le_start hs
  omega

/-- A region that comes before the others takes its own offsets out of a stretch. -/
theorem filter_covers_cons {s : Splice} {kept removed left : Nat} (hstart : n + kept = s.start)
    (hstop : s.start + removed = s.stop) (h : ∀ i < s.stop, ¬ covers splices i = true) :
    (List.range' n (kept + (removed + left))).filter (fun i => !covers (s :: splices) i) =
      List.range' n kept ++ (List.range' s.stop left).filter fun i => !covers splices i := by
  have hbefore : (List.range' n kept).filter (fun i => !covers (s :: splices) i) =
      List.range' n kept := by
    rw [List.filter_eq_self]
    intro i hi
    rw [List.mem_range'_1] at hi
    rw [Bool.not_eq_true', ← Bool.not_eq_true, covers_cons]
    rintro (⟨hle, -⟩ | hlater)
    · omega
    · exact h i (by omega) hlater
  have hinside : (List.range' s.start removed).filter (fun i => !covers (s :: splices) i) = [] := by
    rw [List.filter_eq_nil_iff]
    intro i hi
    rw [List.mem_range'_1] at hi
    rw [Bool.not_eq_true', Bool.not_eq_false, covers_cons]
    exact .inl (by omega)
  have hbehind : (List.range' s.stop left).filter (fun i => !covers (s :: splices) i) =
      (List.range' s.stop left).filter fun i => !covers splices i := by
    apply List.filter_congr
    intro i hi
    rw [List.mem_range'_1] at hi
    have hout : ¬ (s.start ≤ i ∧ i < s.stop) := by omega
    rw [Bool.eq_iff_iff, Bool.not_eq_true', ← Bool.not_eq_true, covers_cons, or_iff_right hout,
      Bool.not_eq_true', ← Bool.not_eq_true]
  rw [← List.range'_append_1, ← List.range'_append_1, List.filter_append, List.filter_append,
    hstart, hstop, hbefore, hinside, hbehind, List.nil_append]

/-- The slices hold the offsets that no region holds, each once and in order. -/
theorem Replaces.flatMap_offsets (h : Replaces front rest splices out) :
    (gaps (byteLength (front ++ rest)) (byteLength front) splices).flatMap offsets =
      (List.range' (byteLength front) (byteLength rest)).filter fun i => !covers splices i := by
  induction h with
  | done front rest => simp [gaps, offsets, covers, byteLength_append]
  | @next front kept removed inserted rest out splices later ih =>
    have hstart : byteLength front + byteLength kept = byteLength (front ++ kept) :=
      (byteLength_append front kept).symm
    have hstop : byteLength (front ++ kept) + byteLength removed =
        byteLength (front ++ (kept ++ removed)) := by
      rw [← byteLength_append, List.append_assoc]
    rw [byteLength_append kept, byteLength_append removed,
      filter_covers_cons hstart hstop fun i hi => later.not_covers_of_lt hi, ← ih, gaps,
      List.flatMap_cons, append_regroup, offsets, ← hstart, Nat.add_sub_cancel_left]

end Splice

namespace TextEdit

variable {text : List Char} {edits : List TextEdit} {e : TextEdit} {i n : Nat}

/-! ## The union of the regions -/

/-- The offsets in the region of an edit; none if it ends before it starts. -/
def region (text : List Char) (e : TextEdit) : Finset Nat :=
  Finset.Ico (e.range.start.offset text) (e.range.stop.offset text)

/-- The offsets in the regions of edits. -/
def covered (text : List Char) (edits : List TextEdit) : Finset Nat :=
  edits.toFinset.biUnion (region text)

theorem mem_covered :
    i ∈ covered text edits ↔
      ∃ e ∈ edits, e.range.start.offset text ≤ i ∧ i < e.range.stop.offset text := by
  simp [covered, region]

theorem covered_subset_range (text : List Char) (edits : List TextEdit) :
    covered text edits ⊆ Finset.range (byteLength text) := by
  intro i hi
  obtain ⟨e, -, -, hlt⟩ := mem_covered.1 hi
  exact Finset.mem_range.2 (Nat.lt_of_lt_of_le hlt (e.range.stop.isBoundary_offset text).le)

/-- **Clipping takes nothing from the union of the regions** of edits that come in order, but what
lies before the first offset that is left. -/
theorem covers_splices
    (h : edits.Pairwise fun a b => a.range.start.le b.range.start = true) :
    Splice.covers (splices text n edits) i = true ↔ n ≤ i ∧ i ∈ covered text edits := by
  induction edits generalizing n with
  | nil => simp [splices, Splice.covers, covered]
  | cons e edits ih =>
    rw [List.pairwise_cons] at h
    have hlater : i ∈ covered text edits → e.range.start.offset text ≤ i := by
      intro hi
      obtain ⟨d, hd, hle, -⟩ := mem_covered.1 hi
      exact Nat.le_trans (Position.offset_mono (h.1 d hd) text) hle
    have hcons : i ∈ covered text (e :: edits) ↔
        (e.range.start.offset text ≤ i ∧ i < e.range.stop.offset text) ∨
          i ∈ covered text edits := by
      simp only [mem_covered, List.exists_mem_cons_iff]
    simp only [splices, Splice.covers_cons, ih h.2, hcons]
    constructor
    · rintro (⟨hstart, hstop⟩ | ⟨hstop, hi⟩)
      · exact ⟨by omega, .inl ⟨by omega, by omega⟩⟩
      · exact ⟨by omega, .inr hi⟩
    · rintro ⟨hn, ⟨hstart, hstop⟩ | hi⟩
      · exact .inl ⟨by omega, by omega⟩
      · have hstart := hlater hi
        by_cases hstop : i < max (e.range.stop.offset text) (max (e.range.start.offset text) n)
        · exact .inl ⟨by omega, hstop⟩
        · exact .inr ⟨by omega, hi⟩

theorem covered_sort (text : List Char) (edits : List TextEdit) :
    covered text (sort edits) = covered text edits := by
  unfold covered
  rw [List.toFinset_eq_of_perm _ _ (arranges_sort edits).perm]

theorem covers_splices_sort :
    Splice.covers (splices text 0 (sort edits)) i = true ↔ i ∈ covered text edits := by
  rw [covers_splices (pairwise_sort edits), covered_sort]
  exact and_iff_right (Nat.zero_le i)

/-- The offsets of a text that are left out of some, and these, are as many as the text has. -/
theorem length_filter_add_card {covered : Finset Nat} {size : Nat}
    (h : covered ⊆ Finset.range size) :
    ((List.range size).filter (· ∉ covered)).length + covered.card = size := by
  have hsdiff : ((List.range size).filter (· ∉ covered)).toFinset =
      Finset.range size \ covered := by
    ext i
    simp
  have hcard : ((List.range size).filter (· ∉ covered)).length =
      (Finset.range size \ covered).card := by
    rw [← hsdiff, List.toFinset_card_of_nodup (List.nodup_range.filter _)]
  rw [hcard, Finset.card_sdiff_add_card_eq_card h, Finset.card_range]

/-! ## What comes out -/

/-- Where the slices begin and end that are taken from a text. -/
def slices (text : List Char) (edits : List TextEdit) : List (Nat × Nat) :=
  Splice.gaps (byteLength text) 0 (splices text 0 (sort edits))

/-- What of a text and its edits stands in a result: slices that can be taken, with the bytes of
the text that no edit's region holds, and between them the new texts of the edits as arranged. -/
structure Survives (text : List Char) (edits : List TextEdit) (out : List Char) : Prop where
  forward : ∀ gap ∈ slices text edits, gap.1 ≤ gap.2
  ordered : (slices text edits).Pairwise fun a b => a.2 ≤ b.1
  bounded : ∀ gap ∈ slices text edits, IsBoundary gap.1 text ∧ IsBoundary gap.2 text
  bytes : ∀ gap ∈ slices text edits, Utf8.encode (sliceBytes gap.1 gap.2 text) =
    (Utf8.encode text).extract gap.1 gap.2
  offsets : (slices text edits).flatMap Splice.offsets =
    (List.range (byteLength text)).filter (· ∉ covered text edits)
  count : (slices text edits).length = edits.length + 1
  arranged : Arranges edits (sort edits)
  woven : out = weave ((slices text edits).map fun gap => sliceBytes gap.1 gap.2 text)
    ((sort edits).map (·.newText.toList))
  length : byteLength out + (covered text edits).card = byteLength text + insertedLength edits

theorem flatMap_offsets_slices (text : List Char) (edits : List TextEdit) :
    (slices text edits).flatMap Splice.offsets =
      (List.range (byteLength text)).filter (· ∉ covered text edits) := by
  have hoffsets : (slices text edits).flatMap Splice.offsets = _ :=
    (replaces_editText text edits).flatMap_offsets
  rw [hoffsets, List.range_eq_range']
  apply List.filter_congr
  intro i _
  rw [Bool.eq_iff_iff, Bool.not_eq_true', ← Bool.not_eq_true, covers_splices_sort,
    decide_eq_true_eq]

theorem survives_editText (text : List Char) (edits : List TextEdit) :
    Survives text edits (editText text edits) := by
  have hreplaces := replaces_editText text edits
  have hsound : ∀ gap ∈ slices text edits,
      gap.1 ≤ gap.2 ∧ IsBoundary gap.1 text ∧ IsBoundary gap.2 text := fun gap hgap =>
    hreplaces.gap_sound hgap
  have hinserted := map_inserted_splices text 0 (sort edits)
  have hwoven : editText text edits =
      weave ((slices text edits).map fun gap => sliceBytes gap.1 gap.2 text) _ :=
    hreplaces.eq_weave
  have hlength : byteLength (editText text edits) =
      ((slices text edits).flatMap Splice.offsets).length + _ := hreplaces.byteLength_out
  refine {
    forward := fun gap hgap => (hsound gap hgap).1
    ordered := hreplaces.pairwise_gaps
    bounded := fun gap hgap => (hsound gap hgap).2
    bytes := fun gap hgap => encode_sliceBytes (hsound gap hgap).2.1 (hsound gap hgap).2.2
      (hsound gap hgap).1
    offsets := flatMap_offsets_slices text edits
    count := ?_
    arranged := arranges_sort edits
    woven := hinserted ▸ hwoven
    length := ?_ }
  · have hcount := congrArg List.length hinserted
    rw [List.length_map, List.length_map, (arranges_sort edits).perm.length_eq] at hcount
    rw [slices, Splice.length_gaps, hcount]
  · rw [sum_inserted_splices_sort, flatMap_offsets_slices] at hlength
    have hcard := length_filter_add_card (covered_subset_range text edits)
    omega

/-- **Overlapping edits lose and repeat nothing else**, at every cursor that comes to a place: the
start does, and so does every cursor within texts that can be stored. -/
theorem survives_iff_not_overruns (text : List Char) (edits : List TextEdit) (cursor : Nat) :
    ((∃ edited, applyEdits text edits cursor = some edited ∧ Survives text edits edited.text) ↔
      ¬ Overruns text edits cursor) ∧
    ¬ Overruns text edits 0 ∧
    (byteLength text ≤ bound63 → cursor + insertedLength edits < bound63 →
      ¬ Overruns text edits cursor) :=
  ⟨exists_applyEdits_iff (survives_editText text edits), not_overruns_zero text edits,
    not_overruns_of_lt⟩

/-- Of three edits of one line, given from the last to the first, the second starts inside the first
and the third is reversed: a letter before them and one behind them is left. -/
theorem survives_iff_not_overruns_overlapping :
    let text := ['a', 'b', 'é', 'd', 'e']
    let edits : List TextEdit :=
      [⟨⟨⟨0, 3⟩, ⟨0, 2⟩⟩, "z"⟩, ⟨⟨⟨0, 2⟩, ⟨0, 4⟩⟩, "y"⟩, ⟨⟨⟨0, 1⟩, ⟨0, 3⟩⟩, "x"⟩]
    slices text edits = [(0, 1), (4, 4), (5, 5), (5, 6)] ∧
      ∃ edited, applyEdits text edits 6 = some edited ∧ edited.text = ['a', 'x', 'y', 'z', 'e'] ∧
        byteLength edited.text + (covered text edits).card = 6 + 3 := by
  intro text edits
  have hsort : sort edits =
      [⟨⟨⟨0, 1⟩, ⟨0, 3⟩⟩, "x"⟩, ⟨⟨⟨0, 2⟩, ⟨0, 4⟩⟩, "y"⟩, ⟨⟨⟨0, 3⟩, ⟨0, 2⟩⟩, "z"⟩] := by
    simp [edits, sort, List.mergeSort, Position.le]
  have hslices : slices text edits = [(0, 1), (4, 4), (5, 5), (5, 6)] := by
    unfold slices
    rw [hsort]
    decide +kernel
  have hclaim := survives_iff_not_overruns text edits 6
  obtain ⟨edited, hedited, hsurvives⟩ :=
    hclaim.1.2 (hclaim.2.2 (by decide +kernel) (by decide +kernel))
  have hwoven := hsurvives.woven
  rw [hslices, hsort] at hwoven
  exact ⟨hslices, edited, hedited, hwoven.trans (by decide +kernel), hsurvives.length⟩

end TextEdit
end LanguageClient
