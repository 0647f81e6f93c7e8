import LanguageClient.Bounds
import LanguageClient.Text.Position

/-!
# Edits

Replacing regions of a text. Edits all speak of the text as it was; they apply in the order of
their starts, and one that reaches back into its predecessor is clipped to where that one ended.
The cursor moves with the code it stands in. It is reckoned as a word of 64 bits with a sign: from
`2 ^ 63` on it counts as before the start, and one that would leave the range of these words has no
new place.
-/

namespace LanguageClient

/-- New text for a range. -/
structure TextEdit where
  range : Range
  newText : String
  deriving DecidableEq, Repr, Inhabited

/-- A region of a text, by offsets, and what replaces it. -/
structure Splice where
  start : Nat
  stop : Nat
  inserted : List Char
  deriving DecidableEq, Repr, Inhabited

/-- A text and an offset into it. -/
structure Edited where
  text : List Char
  cursor : Nat
  deriving DecidableEq, Repr, Inhabited

namespace TextEdit

/-- Edits by start, those that start together in the order given. -/
def sort (edits : List TextEdit) : List TextEdit :=
  edits.mergeSort fun a b => a.range.start.le b.range.start

/-- The regions that sorted edits replace, none reaching back before `floor` or into another. -/
def splices (text : List Char) : Nat → List TextEdit → List Splice
  | _, [] => []
  | floor, e :: rest =>
    let start := max (e.range.start.offset text) floor
    let stop := max (e.range.stop.offset text) start
    ⟨start, stop, e.newText.toList⟩ :: splices text stop rest

end TextEdit

namespace Splice

/-- The text from offset `done` on with its regions replaced. -/
def assemble (text : List Char) : Nat → List Splice → List Char
  | done, [] => Text.dropBytes done text
  | done, s :: rest =>
    Text.sliceBytes done s.start text ++ s.inserted ++ assemble text s.stop rest

/-- How far replacing the regions that start before `cursor` moves what stands there. -/
def shift (cursor : Nat) (splices : List Splice) : Int :=
  (splices.filter (·.start < cursor)).foldl
    (fun n s => n + (Text.byteLength s.inserted - (s.stop - s.start) : Int)) 0

end Splice

/-- A text with edits that speak of it applied. -/
def editText (text : List Char) (edits : List TextEdit) : List Char :=
  Splice.assemble text 0 (TextEdit.splices text 0 (TextEdit.sort edits))

/-- Where the cursor is in the text with edits applied, if words of 64 bits reach as far as it
moves. -/
def moveCursor (text : List Char) (edits : List TextEdit) (cursor : Nat) : Option Nat :=
  let splices := TextEdit.splices text 0 (TextEdit.sort edits)
  let moved := Int.bmod cursor bound64 + Splice.shift cursor splices
  let result := editText text edits
  if -(bound63 : Int) ≤ moved ∧ moved < bound63 then
    some (Text.floorBoundary (min moved.toNat (Text.byteLength result)) result)
  else none

/-- Applies edits to the text they speak of, if the cursor has a new place. -/
def applyEdits (text : List Char) (edits : List TextEdit) (cursor : Nat) : Option Edited :=
  (moveCursor text edits cursor).map fun moved => ⟨editText text edits, moved⟩

end LanguageClient
