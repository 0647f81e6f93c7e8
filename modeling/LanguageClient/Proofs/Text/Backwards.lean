import LanguageClient.Proofs.Text.Cursor
import Mathlib.Data.List.Chain

/-!
# Edits applied one at a time

Edits that stand apart can be spliced into the text one at a time, from the last to the first: each
then finds what comes before it untouched, and so stands at the offsets that it has in the text as
it was. The one pass from the first to the last gives the same text
(`TextEdit.text_applyEdits_iff`).
-/

namespace LanguageClient

open Text

/-- A text with one region replaced. -/
def Splice.apply (s : Splice) (cs : List Char) : List Char :=
  takeBytes s.start cs ++ (s.inserted ++ dropBytes s.stop cs)

/-- Replacing regions from the last to the first gives what the pass over the text gives. -/
theorem Splice.Replaces.foldr_apply {front rest out : List Char} {splices : List Splice}
    (h : Splice.Replaces front rest splices out) :
    splices.foldr Splice.apply (front ++ rest) = front ++ out := by
  induction h with
  | done front rest => rfl
  | @next front kept removed inserted rest out splices later ih =>
    -- what comes before the region is still as it was
    have htake : takeBytes (byteLength (front ++ kept)) (front ++ (kept ++ removed) ++ out) =
        front ++ kept := by
      rw [← List.append_assoc front, List.append_assoc _ removed, takeBytes_byteLength]
    rw [List.foldr_cons, append_regroup, ih, Splice.apply, htake, dropBytes_byteLength,
      List.append_assoc]

namespace TextEdit

variable {text : List Char} {edits ordered : List TextEdit} {cursor : Nat}

/-- The region that the range of an edit has in a text, with its new text. -/
def splice (text : List Char) (e : TextEdit) : Splice :=
  ⟨e.range.start.offset text, e.range.stop.offset text, e.newText.toList⟩

/-- Whether the regions of edits stand apart and in order in a text: each ends at or behind its own
start, and at or before the start of the next. -/
structure Apart (text : List Char) (edits : List TextEdit) : Prop where
  forward : ∀ e ∈ edits, (splice text e).start ≤ (splice text e).stop
  chained : edits.IsChain fun a b => (splice text a).stop ≤ (splice text b).start

/-- Edits applied to a text one at a time, from the last to the first, each at the offsets that it
has in the text as it was. -/
def applyBackwards (text : List Char) (edits : List TextEdit) : List Char :=
  edits.foldr (fun e cs => (splice text e).apply cs) text

/-- Nothing is clipped of edits that stand apart. -/
theorem Apart.splices_eq (h : Apart text edits) {n : Nat}
    (hn : ∀ e ∈ edits.head?, n ≤ (splice text e).start) :
    splices text n edits = edits.map (splice text) := by
  induction edits generalizing n with
  | nil => rfl
  | cons e edits ih =>
    have hstart : max (e.range.start.offset text) n = (splice text e).start :=
      Nat.max_eq_left (hn e rfl)
    have hstop : max (e.range.stop.offset text) (splice text e).start = (splice text e).stop :=
      Nat.max_eq_left (h.forward e List.mem_cons_self)
    have hrest : Apart text edits :=
      ⟨fun d hd => h.forward d (List.mem_cons_of_mem _ hd), h.chained.tail⟩
    have hnext : ∀ d ∈ edits.head?, (splice text e).stop ≤ (splice text d).start := by
      intro d hd
      cases edits with
      | nil => cases hd
      | cons d' edits =>
        obtain rfl : d' = d := Option.some.inj hd
        exact (List.isChain_cons_cons.1 h.chained).1
    simp only [splices, hstart, hstop]
    rw [ih hrest hnext]
    rfl

theorem editText_eq_applyBackwards (h : Arranges edits ordered) (apart : Apart text ordered) :
    editText text edits = applyBackwards text ordered := by
  have hreplaces := replaces_editText text edits
  rw [h.sort_eq, apart.splices_eq fun e _ => Nat.zero_le _] at hreplaces
  have hfoldr : (ordered.map (splice text)).foldr Splice.apply ([] ++ text) = editText text edits :=
    hreplaces.foldr_apply
  rw [List.foldr_map] at hfoldr
  exact hfoldr.symm

/-- Edits in another order that are sorted alike are applied alike. -/
theorem applyEdits_of_sort_eq {other : List TextEdit} (h : sort other = sort edits)
    (text : List Char) (cursor : Nat) :
    applyEdits text other cursor = applyEdits text edits cursor := by
  unfold applyEdits moveCursor editText
  rw [h]

/-- **Edits that stand apart do what they do one at a time**, from the last to the first, at every
cursor that comes to a place. That fails of no cursor within texts that can be stored, and in
whatever order the edits come, those that start together in the same, they do the same. -/
theorem text_applyEdits_iff (h : Arranges edits ordered) (apart : Apart text ordered)
    (cursor : Nat) :
    ((∃ edited, applyEdits text edits cursor = some edited ∧
      edited.text = applyBackwards text ordered) ↔ ¬ Overruns text edits cursor) ∧
    (byteLength text ≤ bound63 → cursor + insertedLength edits < bound63 →
      ¬ Overruns text edits cursor) ∧
    ∀ other : List TextEdit,
      (∀ p, other.filter (·.range.start = p) = edits.filter (·.range.start = p)) →
        applyEdits text other cursor = applyEdits text edits cursor :=
  ⟨exists_applyEdits_iff (editText_eq_applyBackwards h apart), not_overruns_of_lt,
    fun _ hother => applyEdits_of_sort_eq (sort_eq_of_filter_eq hother) text cursor⟩

/-- Two insertions at one point and a letter of the next line that is replaced, the line first; with
the last word that there is for a cursor they have no result. -/
theorem text_applyEdits_iff_touching :
    let text := ['a', 'b', '\r', '\n', '😀', 'c']
    let edits : List TextEdit :=
      [⟨⟨⟨1, 1⟩, ⟨1, 9⟩⟩, "X"⟩, ⟨⟨⟨0, 1⟩, ⟨0, 1⟩⟩, "p"⟩, ⟨⟨⟨0, 1⟩, ⟨0, 1⟩⟩, "q"⟩]
    (∃ edited, applyEdits text edits 2 = some edited ∧
      edited.text = ['a', 'p', 'q', 'b', '\r', '\n', '😀', 'X']) ∧
    ¬ ∃ edited, applyEdits text edits (bound63 - 1) = some edited ∧
      edited.text = ['a', 'p', 'q', 'b', '\r', '\n', '😀', 'X'] := by
  intro text edits
  have hsort : sort edits =
      [⟨⟨⟨0, 1⟩, ⟨0, 1⟩⟩, "p"⟩, ⟨⟨⟨0, 1⟩, ⟨0, 1⟩⟩, "q"⟩, ⟨⟨⟨1, 1⟩, ⟨1, 9⟩⟩, "X"⟩] := by
    simp [edits, sort, List.mergeSort, Position.le]
  have harranges := arranges_sort edits
  rw [hsort] at harranges
  have hapart : Apart text
      [⟨⟨⟨0, 1⟩, ⟨0, 1⟩⟩, "p"⟩, ⟨⟨⟨0, 1⟩, ⟨0, 1⟩⟩, "q"⟩, ⟨⟨⟨1, 1⟩, ⟨1, 9⟩⟩, "X"⟩] :=
    ⟨by decide +kernel, by simp only [List.isChain_cons_cons]; decide +kernel⟩
  have hbackwards : applyBackwards text
      [⟨⟨⟨0, 1⟩, ⟨0, 1⟩⟩, "p"⟩, ⟨⟨⟨0, 1⟩, ⟨0, 1⟩⟩, "q"⟩, ⟨⟨⟨1, 1⟩, ⟨1, 9⟩⟩, "X"⟩] =
        ['a', 'p', 'q', 'b', '\r', '\n', '😀', 'X'] := by decide +kernel
  have hsmall := text_applyEdits_iff harranges hapart 2
  have hlarge := text_applyEdits_iff harranges hapart (bound63 - 1)
  rw [hbackwards] at hsmall hlarge
  refine ⟨hsmall.1.2 (hsmall.2.1 (by decide +kernel) (by decide +kernel)), ?_⟩
  rw [hlarge.1, Classical.not_not]
  unfold Overruns movedCursor
  rw [hsort]
  decide +kernel

end TextEdit
end LanguageClient
