import LanguageClient.Text.Measure

/-!
# Positions

A position names a place in a text by line and column, both from zero; columns count UTF-16 units.
Every position has an offset in every text: past the end of a line it is that line's end, past the
last line the end of the text.
-/

namespace LanguageClient

/-- A line and a column in it, both counted from zero. Both fit 32 bits
when they come from the wire, but have no bound here, and neither have the lines and units that are
counted in a text; words of 32 bits agree with them for texts of fewer than 2^32 of each. -/
structure Position where
  line : Nat
  character : Nat
  deriving DecidableEq, Repr, Inhabited

/-- Two positions, the second where the first's region ends. -/
structure Range where
  start : Position
  stop : Position
  deriving DecidableEq, Repr, Inhabited

namespace Text

/-- The first line of a text without its line break, which is `\n` or `\r\n`. -/
def firstLine (cs : List Char) : List Char :=
  let line := cs.takeWhile (· ≠ '\n')
  if line.getLast? = some '\r' then line.dropLast else line

/-- The offset in a line at which `column` units are passed, or the line's end. -/
def columnOffset : Nat → List Char → Nat
  | 0, _ => 0
  | _, [] => 0
  | n + 1, c :: cs => c.utf8Size + columnOffset (n + 1 - charUnits c) cs

/-- The offset of a line and column in a text. -/
def offsetAt : Nat → Nat → List Char → Nat
  | 0, column, cs => columnOffset column (firstLine cs)
  | _ + 1, _, [] => 0
  | n + 1, column, c :: cs =>
    c.utf8Size + if c = '\n' then offsetAt n column cs else offsetAt (n + 1) column cs

/-- The text from the start of a line on, if it has that line. -/
def fromLine : Nat → List Char → Option (List Char)
  | 0, cs => some cs
  | _ + 1, [] => none
  | n + 1, c :: cs => if c = '\n' then fromLine n cs else fromLine (n + 1) cs

/-- The position reached after reading a text from `p`. -/
def advance (p : Position) : List Char → Position
  | [] => p
  | c :: cs =>
    advance (if c = '\n' then ⟨p.line + 1, 0⟩ else ⟨p.line, p.character + charUnits c⟩) cs

/-- The length of a line in UTF-16 units; `none` when the text has no such line. -/
def lineLength (line : Nat) (cs : List Char) : Option Nat :=
  (fromLine line cs).map fun rest => units (firstLine rest)

end Text

namespace Position

/-- The place before every text. -/
def zero : Position := ⟨0, 0⟩

/-- The position that a line and a column counted from one name; zero counts as one. -/
def ofOneBased (line column : Nat) : Position := ⟨line - 1, column - 1⟩

/-- Line and column counted from one. -/
def oneBased (p : Position) : Nat × Nat := (p.line + 1, p.character + 1)

/-- The byte offset of a position in a text, clipped to its line or to the text. -/
def offset (p : Position) (text : List Char) : Nat := Text.offsetAt p.line p.character text

/-- The position of a byte offset; one inside a character counts as that character's start. -/
def ofOffset (text : List Char) (n : Nat) : Position := Text.advance zero (Text.takeBytes n text)

/-- Reading order: by line, then by column. -/
def le (p q : Position) : Bool := p.line < q.line || (p.line = q.line && p.character ≤ q.character)

/-- Reading order as a comparison. -/
def compare (p q : Position) : Ordering :=
  if p.line < q.line then .lt
  else if q.line < p.line then .gt
  else if p.character < q.character then .lt
  else if q.character < p.character then .gt
  else .eq

end Position

namespace Range

/-- The empty range at a position. -/
def point (p : Position) : Range := ⟨p, p⟩

/-- Whether a line is one of those a range touches. -/
def containsLine (r : Range) (line : Nat) : Bool := r.start.line ≤ line && line ≤ r.stop.line

end Range

end LanguageClient
