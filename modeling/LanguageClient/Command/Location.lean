import LanguageClient.Bounds
import LanguageClient.Path.Basic
import LanguageClient.System.Access
import LanguageClient.Text.Blank
import LanguageClient.Text.Numeral
import LanguageClient.Text.Position

/-!
# Locations on the command line

How a user names a place in a file, `file:line[:column]`, and a span of lines, `first[:last]`. Lines
and columns count from one. The first colon that a digit or a minus sign follows ends the file, so a
file name can hold other colons.
-/

namespace LanguageClient

/-- What a number of a location counts. -/
inductive Coordinate where
  | line
  | column
  deriving DecidableEq, Repr, Inhabited

/-- The name of a coordinate. -/
def Coordinate.name : Coordinate → String
  | line => "line"
  | column => "column"

/-- Why a location is refused. -/
inductive LocationError where
  | empty
  | noPosition (text : String)
  | notANumber (what : Coordinate) (text : String) (fault : NumeralFault)
  | zero (what : Coordinate)
  | reversed (span : String)
  | noFile (file : String) (fault : AccessFault)
  deriving DecidableEq, Repr, Inhabited

/-- The words for a refused location. -/
def LocationError.message : LocationError → String
  | empty => "Location cannot be empty"
  | noPosition text =>
    s!"Invalid location '{text}'. Expected file:line[:column], e.g. src/main.rs:10:5"
  | notANumber what text fault =>
    s!"Invalid {what.name} '{text}': expected a positive integer (1-indexed): {fault.message}"
  | zero what => s!"{what.name} must be >= 1 (got 0); positions are 1-indexed"
  | reversed span => s!"Invalid line span '{span}': end is before start"
  | noFile file fault => s!"File not found: {file}: {fault.message}"

/-- A place in a file as users name it; line and column count from one. -/
structure FileLocation where
  file : Path
  line : Nat
  column : Nat
  deriving DecidableEq, Repr, Inhabited

/-- Reads a coordinate: a positive number below `2 ^ 32`. -/
def readCoordinate (what : Coordinate) (text : List Char) : Except LocationError Nat :=
  match readNumeral bound32 text with
  | .error fault => .error (.notANumber what (String.ofList text) fault)
  | .ok 0 => .error (.zero what)
  | .ok n => .ok n

namespace FileLocation

/-- The texts around the first colon, not at the front, that a digit or a minus sign follows. -/
def splitPosition : List Char → Option (List Char × List Char)
  | c :: ':' :: d :: rest =>
    if d.isDigit || d = '-' then some ([c], d :: rest)
    else (splitPosition (':' :: d :: rest)).map fun (file, position) => (c :: file, position)
  | c :: rest => (splitPosition rest).map fun (file, position) => (c :: file, position)
  | [] => none

/-- Reads a location; the column is the first where none is given. -/
def read (text : String) : Except LocationError FileLocation :=
  let chars := trimBlanks text.toList
  if chars.isEmpty then .error .empty
  else
    match splitPosition chars with
    | none => .error (.noPosition (String.ofList chars))
    | some (file, position) => do
      let (line, column) := match splitAtFirst ':' position with
        | some (line, column) => (line, some column)
        | none => (position, none)
      let line ← readCoordinate .line line
      let column ← match column with
        | some column => readCoordinate .column column
        | none => .ok 1
      return ⟨⟨String.ofList file⟩, line, column⟩

/-- The location as users write it. -/
def display (l : FileLocation) : String := s!"{l.file.text}:{l.line}:{l.column}"

/-- The position in the file. -/
def position (l : FileLocation) : Position := .ofOneBased l.line l.column

end FileLocation

/-- Reads a span of lines, both ends included; one number is a span of one line. -/
def readLineSpan (text : String) : Except LocationError (Nat × Nat) := do
  let (first, last) ← match splitAtFirst ':' text.toList with
    | some (first, last) => do
      let first ← readCoordinate .line first
      let last ← readCoordinate .line last
      pure (first, last)
    | none => do
      let line ← readCoordinate .line text.toList
      pure (line, line)
  if last < first then .error (.reversed text) else .ok (first, last)

/-- The offsets in a text around its lines from `first` to `last`, counted from one. -/
def lineSelection (text : List Char) (first last : Nat) : Nat × Nat :=
  ((Position.ofOneBased first 1).offset text, (Position.ofOneBased (last + 1) 1).offset text)

end LanguageClient
