import LanguageClient.Proofs.Text.Offset
import LanguageClient.Text.Edit

/-!
# The order of edits

Edits are sorted by their starts, and those that start together stay in the order in which they
were given (`TextEdit.arranges_sort`). There is one such order only (`TextEdit.Arranges.sort_eq`),
so that edits which come in another order, with those that start together in the same, are sorted
alike (`TextEdit.sort_eq_of_filter_eq`). Since offsets keep the order of positions, wherever these
are clipped to, edits in order have their offsets in order in every text
(`TextEdit.offsets_in_order`).
-/

namespace LanguageClient.TextEdit

variable {edits ordered as bs : List TextEdit}

/-- Whether one list has the edits of another in the order of their starts, and those that start
together in the order in which they were given. -/
structure Arranges (edits ordered : List TextEdit) : Prop where
  perm : ordered.Perm edits
  sorted : ordered.Pairwise fun a b => a.range.start.le b.range.start = true
  stable : ∀ p, ordered.filter (·.range.start = p) = edits.filter (·.range.start = p)

theorem pairwise_sort (edits : List TextEdit) :
    (sort edits).Pairwise fun a b => a.range.start.le b.range.start = true := by
  apply List.pairwise_mergeSort
  · intro a b c hab hbc
    exact Position.le_trans hab hbc
  · intro a b
    exact Position.le_total a.range.start b.range.start

theorem filter_sort (edits : List TextEdit) (p : Position) :
    (sort edits).filter (·.range.start = p) = edits.filter (·.range.start = p) := by
  -- edits that start together are in order as they stand, and sorting keeps what is in order
  have hsame : (edits.filter (·.range.start = p)).Pairwise
      fun a b => a.range.start.le b.range.start = true := by
    refine List.pairwise_of_forall_mem_list fun a ha b hb => ?_
    have hstart : a.range.start = b.range.start := by
      rw [of_decide_eq_true (List.mem_filter.1 ha).2, of_decide_eq_true (List.mem_filter.1 hb).2]
    rw [hstart]
    exact Position.le_refl _
  have hkept : (edits.filter (·.range.start = p)).Sublist (sort edits) := by
    apply List.sublist_mergeSort
    · intro a b c hab hbc
      exact Position.le_trans hab hbc
    · intro a b
      exact Position.le_total a.range.start b.range.start
    · exact hsame
    · exact List.filter_sublist
  have hsub : (edits.filter (·.range.start = p)).Sublist
      ((sort edits).filter (·.range.start = p)) := by
    have hfilter := hkept.filter fun e : TextEdit => decide (e.range.start = p)
    simpa only [List.filter_filter, Bool.and_self] using hfilter
  have hlength : (edits.filter (·.range.start = p)).length =
      ((sort edits).filter (·.range.start = p)).length :=
    ((List.mergeSort_perm edits _).symm.filter _).length_eq
  exact (hsub.eq_of_length hlength).symm

/-- **Sorting arranges edits.** -/
theorem arranges_sort (edits : List TextEdit) : Arranges edits (sort edits) where
  perm := List.mergeSort_perm edits _
  sorted := pairwise_sort edits
  stable := filter_sort edits

theorem mem_of_filter_eq (h : ∀ p, as.filter (·.range.start = p) = bs.filter (·.range.start = p))
    {e : TextEdit} (he : e ∈ as) : e ∈ bs := by
  have hmem : e ∈ as.filter (·.range.start = e.range.start) :=
    List.mem_filter.2 ⟨he, decide_eq_true rfl⟩
  rw [h] at hmem
  exact (List.mem_filter.1 hmem).1

/-- Edits in order are known by what starts where. -/
theorem eq_of_filter_eq (ha : as.Pairwise fun a b => a.range.start.le b.range.start = true)
    (hb : bs.Pairwise fun a b => a.range.start.le b.range.start = true)
    (h : ∀ p, as.filter (·.range.start = p) = bs.filter (·.range.start = p)) : as = bs := by
  induction as generalizing bs with
  | nil =>
    cases bs with
    | nil => rfl
    | cons b bs =>
      exact absurd (mem_of_filter_eq (fun p => (h p).symm) List.mem_cons_self) List.not_mem_nil
  | cons a as ih =>
    cases bs with
    | nil => exact absurd (mem_of_filter_eq h List.mem_cons_self) List.not_mem_nil
    | cons b bs =>
      rw [List.pairwise_cons] at ha hb
      -- both begin with an edit that starts first of all
      have hab : a.range.start.le b.range.start = true := by
        have hmem : b ∈ a :: as := mem_of_filter_eq (fun p => (h p).symm) List.mem_cons_self
        rcases List.mem_cons.1 hmem with heq | hlater
        · rw [heq]
          exact Position.le_refl _
        · exact ha.1 b hlater
      have hba : b.range.start.le a.range.start = true := by
        have hmem : a ∈ b :: bs := mem_of_filter_eq h List.mem_cons_self
        rcases List.mem_cons.1 hmem with heq | hlater
        · rw [heq]
          exact Position.le_refl _
        · exact hb.1 a hlater
      have hstart : a.range.start = b.range.start := Position.le_antisymm hab hba
      have hhead := h a.range.start
      simp only [List.filter_cons, hstart, decide_true, if_true] at hhead
      obtain ⟨rfl, -⟩ := List.cons.inj hhead
      have htails : ∀ p, as.filter (·.range.start = p) = bs.filter (·.range.start = p) := by
        intro p
        have htail := h p
        rw [List.filter_cons, List.filter_cons] at htail
        split at htail
        · exact (List.cons.inj htail).2
        · exact htail
      rw [ih ha.2 hb.2 htails]

theorem Arranges.sort_eq (h : Arranges edits ordered) : sort edits = ordered :=
  eq_of_filter_eq (pairwise_sort edits) h.sorted fun p =>
    (filter_sort edits p).trans (h.stable p).symm

/-- **Edits that come in another order are sorted alike**, if those that start together come in the
same. -/
theorem sort_eq_of_filter_eq
    (h : ∀ p, as.filter (·.range.start = p) = bs.filter (·.range.start = p)) : sort as = sort bs :=
  eq_of_filter_eq (pairwise_sort as) (pairwise_sort bs) fun p => by
    rw [filter_sort, filter_sort, h]

/-! ## Offsets of edits in order -/

/-- The offsets at which edits start in a text, clipped as they are. -/
def starts (text : List Char) (edits : List TextEdit) : List Nat :=
  edits.map (·.range.start.offset text)

theorem pairwise_starts (h : edits.Pairwise fun a b => a.range.start.le b.range.start = true)
    (text : List Char) : (starts text edits).Pairwise (· ≤ ·) := by
  refine h.map _ fun a b hab => ?_
  exact Position.offset_mono hab text

/-- Edits sorted by their positions are sorted by their offsets. -/
theorem starts_sort (text : List Char) (edits : List TextEdit) :
    starts text (sort edits) = (starts text edits).mergeSort := by
  have hmerged : ((starts text edits).mergeSort).Pairwise fun a b => decide (a ≤ b) = true := by
    apply List.pairwise_mergeSort
    · intro a b c hab hbc
      exact decide_eq_true (Nat.le_trans (of_decide_eq_true hab) (of_decide_eq_true hbc))
    · intro a b
      simpa using Nat.le_total a b
  have hperm : (starts text (sort edits)).Perm (starts text edits).mergeSort :=
    ((List.mergeSort_perm edits _).map _).trans (List.mergeSort_perm _ _).symm
  exact hperm.eq_of_pairwise (fun a b _ _ hab hba => Nat.le_antisymm hab hba)
    (pairwise_starts (pairwise_sort edits) text) (hmerged.imp of_decide_eq_true)

/-- **Offsets keep the order of positions**, whether a text has these or not, and each lies between
two characters of the text or at one of its ends. So the edits of a text, sorted by the positions
where they start, are sorted by the offsets where they start. -/
theorem offsets_in_order (text : List Char) :
    (∀ p q : Position, p.le q = true → p.offset text ≤ q.offset text) ∧
    (∀ p : Position, Text.IsBoundary (p.offset text) text ∧
      p.offset text ≤ Text.byteLength text) ∧
    ∀ edits : List TextEdit, starts text (sort edits) = (starts text edits).mergeSort :=
  ⟨fun _ _ h => Position.offset_mono h text,
    fun p => ⟨p.isBoundary_offset text, (p.isBoundary_offset text).le⟩, starts_sort text⟩

/-- A column past the end of its line is clipped before the next line, where a column within the
emoji is moved behind it; three edits that start there and on a line that is missing. -/
theorem offsets_in_order_emoji :
    let text := ['a', '\r', '\n', '😀', 'b']
    let edits : List TextEdit :=
      [⟨⟨⟨7, 0⟩, ⟨8, 0⟩⟩, "z"⟩, ⟨⟨⟨1, 1⟩, ⟨1, 2⟩⟩, "y"⟩, ⟨⟨⟨0, 9⟩, ⟨1, 0⟩⟩, "x"⟩]
    (Position.le ⟨0, 9⟩ ⟨1, 1⟩ = true ∧
      Position.offset ⟨0, 9⟩ text ≤ Position.offset ⟨1, 1⟩ text) ∧
    starts text edits = [8, 7, 1] ∧ starts text (sort edits) = [1, 7, 8] := by
  intro text edits
  have hle : Position.le ⟨0, 9⟩ ⟨1, 1⟩ = true := by decide
  have hstarts : starts text edits = [8, 7, 1] := by decide +kernel
  obtain ⟨hmono, -, hsort⟩ := offsets_in_order text
  refine ⟨⟨hle, hmono _ _ hle⟩, hstarts, ?_⟩
  rw [hsort, hstarts]
  simp [List.mergeSort]

end LanguageClient.TextEdit
