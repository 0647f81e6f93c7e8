import LanguageClient.Proofs.Text.Replacement

/-!
# The cursor of an edited text

A cursor that no edit's region holds inside stays on the same code: what comes before it is what the
edits before it make of the text before it, and what comes from it on is what the others make of the
rest (`follows_iff_not_overruns`). It is reckoned as a word of 64 bits with a sign before it is
clipped to the text; where that sum leaves the range of such words (`Overruns`) there is no result.
-/

namespace LanguageClient

open Text

variable {text : List Char} {edits : List TextEdit} {cursor : Nat}

/-- Where the cursor would come to, before it is clipped to the text. -/
def movedCursor (text : List Char) (edits : List TextEdit) (cursor : Nat) : Int :=
  Int.bmod cursor bound64 +
    Splice.shift cursor (TextEdit.splices text 0 (TextEdit.sort edits))

/-- Whether the place that the cursor would come to is no word of 64 bits with a sign. -/
def Overruns (text : List Char) (edits : List TextEdit) (cursor : Nat) : Prop :=
  ¬ (-(bound63 : Int) ≤ movedCursor text edits cursor ∧ movedCursor text edits cursor < bound63)

/-- What is to come of edits: the text with the edits applied, and the cursor clipped to it. -/
def clippedEdit (text : List Char) (edits : List TextEdit) (cursor : Nat) : Edited :=
  ⟨editText text edits, floorBoundary
    (min (movedCursor text edits cursor).toNat (byteLength (editText text edits)))
    (editText text edits)⟩

/-! ## Results and no results -/

theorem moveCursor_eq (text : List Char) (edits : List TextEdit) (cursor : Nat) :
    moveCursor text edits cursor =
      if -(bound63 : Int) ≤ movedCursor text edits cursor ∧
          movedCursor text edits cursor < bound63 then
        some (clippedEdit text edits cursor).cursor
      else none := rfl

theorem applyEdits_of_not_overruns (h : ¬ Overruns text edits cursor) :
    applyEdits text edits cursor = some (clippedEdit text edits cursor) := by
  rw [applyEdits, moveCursor_eq, if_pos (Classical.not_not.1 h), Option.map_some]
  rfl

theorem applyEdits_of_overruns (h : Overruns text edits cursor) :
    applyEdits text edits cursor = none := by
  rw [applyEdits, moveCursor_eq, if_neg h, Option.map_none]

/-- What holds of the clipped result holds of a result just where there is one. -/
theorem exists_applyEdits_iff {P : Edited → Prop} (h : P (clippedEdit text edits cursor)) :
    (∃ edited, applyEdits text edits cursor = some edited ∧ P edited) ↔
      ¬ Overruns text edits cursor := by
  constructor
  · rintro ⟨edited, hedited, -⟩ hover
    rw [applyEdits_of_overruns hover] at hedited
    cases hedited
  · intro hfits
    exact ⟨_, applyEdits_of_not_overruns hfits, h⟩

theorem bmod_cursor (h : cursor < bound63) : Int.bmod cursor bound64 = cursor := by
  apply Int.bmod_eq_of_le
  · simp only [bound64]
    omega
  · simp only [bound63, bound64] at *
    omega

theorem not_overruns_zero (text : List Char) (edits : List TextEdit) :
    ¬ Overruns text edits 0 := by
  have hmoved : movedCursor text edits 0 = 0 := by
    unfold movedCursor
    rw [Splice.shift_eq_sum, Splice.filter_lt_eq_nil fun s _ => Nat.zero_le s.start]
    rfl
  simp [Overruns, hmoved, bound63]

/-- The place that the cursor would come to can only be out of range if the cursor or the texts are
as long as that range. -/
theorem not_overruns_of_lt (htext : byteLength text ≤ bound63)
    (hcursor : cursor + TextEdit.insertedLength edits < bound63) :
    ¬ Overruns text edits cursor := by
  have hbounds := (replaces_editText text edits).growth_bounds (·.start < cursor)
  rw [TextEdit.sum_inserted_splices_sort, ← Splice.shift_eq_sum] at hbounds
  have hword : cursor < bound63 := Nat.lt_of_le_of_lt (Nat.le_add_right _ _) hcursor
  have hmoved : movedCursor text edits cursor =
      cursor + Splice.shift cursor (TextEdit.splices text 0 (TextEdit.sort edits)) := by
    unfold movedCursor
    rw [bmod_cursor hword]
  simp only [Overruns, hmoved, bound63] at htext hcursor ⊢
  omega

/-! ## Staying on the same code -/

/-- What the edits that start before a cursor make of the text before it. -/
def editedBefore (text : List Char) (edits : List TextEdit) (cursor : Nat) : List Char :=
  Splice.assemble (takeBytes cursor text) 0
    ((TextEdit.splices text 0 (TextEdit.sort edits)).filter (·.start < cursor))

/-- What the other edits make of the text from the cursor on. -/
def editedFrom (text : List Char) (edits : List TextEdit) (cursor : Nat) : List Char :=
  Splice.assemble text cursor
    ((TextEdit.splices text 0 (TextEdit.sort edits)).filter fun s => !decide (s.start < cursor))

/-- Whether a text with its edits applied is cut by its cursor as the text was by the cursor before,
where no clipping had to move the cursor. -/
structure Follows (text : List Char) (edits : List TextEdit) (cursor : Nat) (edited : Edited) :
    Prop where
  parts : edited.text = editedBefore text edits cursor ++ editedFrom text edits cursor
  place : edited.cursor = byteLength (editedBefore text edits cursor)
  unclipped : movedCursor text edits cursor = edited.cursor

theorem editText_eq_append (hc : IsBoundary cursor text)
    (undivided : Splice.Undivided cursor (TextEdit.splices text 0 (TextEdit.sort edits))) :
    editText text edits = editedBefore text edits cursor ++ editedFrom text edits cursor ∧
      (byteLength (editedBefore text edits cursor) : Int) = cursor +
        Splice.shift cursor (TextEdit.splices text 0 (TextEdit.sort edits)) := by
  obtain ⟨front, back, rfl, hfront⟩ := hc
  obtain ⟨before, after, hout, hbefore, hafter⟩ :=
    (replaces_editText (front ++ back) edits).split hfront undivided
  have heditedBefore : editedBefore (front ++ back) edits cursor = before := by
    rw [editedBefore, ← hfront, takeBytes_byteLength, hfront]
    exact hbefore.assemble_eq
  have heditedFrom : editedFrom (front ++ back) edits cursor = after := by
    rw [editedFrom, ← hafter.assemble_eq, List.nil_append, hfront]
  rw [heditedBefore, heditedFrom]
  refine ⟨hout, ?_⟩
  rw [hbefore.byteLength_eq, ← Splice.shift_eq_sum, hfront]

theorem isBoundary_editedBefore (hc : IsBoundary cursor text)
    (undivided : Splice.Undivided cursor (TextEdit.splices text 0 (TextEdit.sort edits))) :
    IsBoundary (byteLength (editedBefore text edits cursor)) (editText text edits) := by
  rw [(editText_eq_append hc undivided).1]
  exact isBoundary_append_left _ _

theorem movedCursor_eq (htext : byteLength text < bound63) (hc : IsBoundary cursor text)
    (undivided : Splice.Undivided cursor (TextEdit.splices text 0 (TextEdit.sort edits))) :
    movedCursor text edits cursor = byteLength (editedBefore text edits cursor) := by
  rw [(editText_eq_append hc undivided).2]
  unfold movedCursor
  rw [bmod_cursor (Nat.lt_of_le_of_lt hc.le htext)]

/-- A cursor that comes to the end of some front of the result is not clipped. -/
theorem follows_of_undivided (htext : byteLength text < bound63) (hc : IsBoundary cursor text)
    (undivided : Splice.Undivided cursor (TextEdit.splices text 0 (TextEdit.sort edits))) :
    Follows text edits cursor (clippedEdit text edits cursor) := by
  have hmoved := movedCursor_eq htext hc undivided
  have hparts := (editText_eq_append hc undivided).1
  have hfront := isBoundary_editedBefore hc undivided
  have hplace : (clippedEdit text edits cursor).cursor =
      byteLength (editedBefore text edits cursor) := by
    rw [clippedEdit, hmoved, Int.toNat_natCast, Nat.min_eq_left hfront.le, hfront.floorBoundary_eq]
  exact ⟨hparts, hplace, hmoved.trans (congrArg Nat.cast hplace.symm)⟩

/-- **The cursor stays on the same code**, unless the place that it would come to is no word. Where
it is one, there is a result with the cursor between two of its characters or at its end; and a
cursor between two characters of the text that no region holds inside cuts the result just where it
cut the text, with no clipping. Such a cursor always comes to a place if the result is short enough
to be stored, and so does every cursor that is a word even with the new texts added to it. -/
theorem follows_iff_not_overruns (htext : byteLength text < bound63) (edits : List TextEdit)
    (cursor : Nat) :
    ((∃ edited, applyEdits text edits cursor = some edited ∧
      edited.text = editText text edits ∧ IsBoundary edited.cursor edited.text ∧
      (IsBoundary cursor text →
        Splice.Undivided cursor (TextEdit.splices text 0 (TextEdit.sort edits)) →
          Follows text edits cursor edited)) ↔ ¬ Overruns text edits cursor) ∧
    (IsBoundary cursor text →
      Splice.Undivided cursor (TextEdit.splices text 0 (TextEdit.sort edits)) →
        byteLength (editText text edits) < bound63 → ¬ Overruns text edits cursor) ∧
    (cursor + TextEdit.insertedLength edits < bound63 → ¬ Overruns text edits cursor) := by
  refine ⟨exists_applyEdits_iff ⟨rfl, isBoundary_floorBoundary _ _, follows_of_undivided htext⟩,
    fun hc undivided hresult => ?_, not_overruns_of_lt (Nat.le_of_lt htext)⟩
  have hmoved := movedCursor_eq htext hc undivided
  have hlt := Nat.lt_of_le_of_lt (isBoundary_editedBefore hc undivided).le hresult
  simp only [Overruns, hmoved, bound63] at hlt ⊢
  omega

/-- The cursor stands behind the letter that is replaced; with the last word that there is for a
cursor the same edits have no result. -/
theorem follows_iff_not_overruns_last :
    let text := ['a', 'b', 'c']
    let edits : List TextEdit := [⟨⟨⟨0, 1⟩, ⟨0, 2⟩⟩, "é"⟩, ⟨⟨⟨0, 0⟩, ⟨0, 0⟩⟩, "x"⟩]
    editedBefore text edits 2 = ['x', 'a', 'é'] ∧
      (∃ edited, applyEdits text edits 2 = some edited ∧ Follows text edits 2 edited) ∧
      Overruns text edits (bound63 - 1) ∧ applyEdits text edits (bound63 - 1) = none := by
  intro text edits
  have hsort : TextEdit.sort edits =
      [⟨⟨⟨0, 0⟩, ⟨0, 0⟩⟩, "x"⟩, ⟨⟨⟨0, 1⟩, ⟨0, 2⟩⟩, "é"⟩] := by
    simp [edits, TextEdit.sort, List.mergeSort, Position.le]
  have hsplices : TextEdit.splices text 0 (TextEdit.sort edits) =
      [⟨0, 0, ['x']⟩, ⟨1, 2, ['é']⟩] := by
    rw [hsort]
    decide +kernel
  have htext : byteLength text < bound63 := by decide +kernel
  have hc : IsBoundary 2 text := ⟨['a', 'b'], ['c'], rfl, by decide⟩
  have hundivided : Splice.Undivided 2 (TextEdit.splices text 0 (TextEdit.sort edits)) := by
    rw [hsplices, Splice.Undivided]
    decide
  have hbefore : editedBefore text edits 2 = ['x', 'a', 'é'] := by
    unfold editedBefore
    rw [hsplices]
    decide +kernel
  have hfits : ¬ Overruns text edits 2 :=
    (follows_iff_not_overruns htext edits 2).2.2 (by decide +kernel)
  have hover : Overruns text edits (bound63 - 1) := by
    unfold Overruns movedCursor
    rw [hsplices]
    decide +kernel
  obtain ⟨edited, hedited, -, -, hfollows⟩ := (follows_iff_not_overruns htext edits 2).1.2 hfits
  exact ⟨hbefore, ⟨edited, hedited, hfollows hc hundivided⟩, hover, applyEdits_of_overruns hover⟩

end LanguageClient
