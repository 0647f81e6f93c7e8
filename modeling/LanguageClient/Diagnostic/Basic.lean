import LanguageClient.Bounds
import LanguageClient.Text.Blank
import LanguageClient.Text.Numeral
import LanguageClient.Wire.Shape

/-!
# Diagnostics

What a server reports about a range of a document, and how one line of a view shows it: the blanks
of the message run together, origin in front, and a span that stays on the line where it starts.
-/

namespace LanguageClient

/-- How grave a diagnostic is. -/
inductive Severity where
  | error
  | warning
  | information
  | hint
  deriving DecidableEq, Repr, Inhabited

namespace Severity

/-- The severity of a number on the wire; an unknown one is information. -/
def ofCode (n : Int) : Severity :=
  if n = 1 then error else if n = 2 then warning else if n = 4 then hint else information

/-- The number on the wire. -/
def code : Severity → Nat
  | error => 1
  | warning => 2
  | information => 3
  | hint => 4

/-- The name in printed documents. -/
def name : Severity → String
  | error => "error"
  | warning => "warning"
  | information => "information"
  | hint => "hint"

/-- The short name in texts for people. -/
def display : Severity → String
  | error => "error"
  | warning => "warning"
  | information => "info"
  | hint => "hint"

/-- The severity that a word of either case names; only ASCII capitals spell one of them. -/
def ofWord? (s : String) : Option Severity :=
  let word := lowercased s
  if word ∈ ["error", "e"] then some error
  else if word ∈ ["warning", "warn", "w"] then some warning
  else if word ∈ ["info", "information", "i"] then some information
  else if word ∈ ["hint", "h"] then some hint
  else none

/-- What is said of a word that names no severity. -/
def unknownMessage (s : String) : String :=
  s!"Unknown severity: '{s}'. Valid: error, warning, info, hint"

end Severity

/-- A diagnostic as the wire gives it. -/
structure PublishedDiagnostic where
  range : Range
  severity : Option Int
  code : Option Json
  source : Option String
  message : String
  deriving Repr, Inhabited

namespace PublishedDiagnostic

/-- Reads a diagnostic; any value may stand for its code. -/
def decoder : Decoder PublishedDiagnostic :=
  (Layout.start PublishedDiagnostic.mk
    |>.also (.required "range" Range.decoder)
    |>.also (.defaulted "severity" (Decoder.optional Decoder.i64) none)
    |>.also (.defaulted "code" (Decoder.optional Decoder.any) none)
    |>.also (.defaulted "source" (Decoder.optional Decoder.string) none)
    |>.also (.defaulted "message" Decoder.string "")).decoder "LspDiagnostic"

/-- The diagnostic as the wire can give it; `null` stands for what is absent. -/
def toJson (d : PublishedDiagnostic) : Json :=
  Json.object [("range", d.range.toJson), ("severity", Json.ofOption .int d.severity),
    ("code", Json.ofOption id d.code), ("source", Json.ofOption .str d.source),
    ("message", .str d.message)]

end PublishedDiagnostic

/-- A diagnostic as the client keeps it. -/
structure Diagnostic where
  range : Range
  severity : Severity
  message : String
  code : Option String
  source : Option String
  deriving DecidableEq, Repr, Inhabited

/-- A diagnostic on one line: a text and a span of columns. -/
structure RenderedDiagnostic where
  severity : Severity
  text : String
  line : Nat
  start : Nat
  stop : Nat
  deriving DecidableEq, Repr, Inhabited

namespace Diagnostic

/-- The column past every line. -/
def lastColumn : Nat := bound32 - 1

/-- What the client keeps of a published diagnostic: a code that is a text or a number, a source
that is not empty. -/
def ofPublished (d : PublishedDiagnostic) : Diagnostic where
  range := d.range
  severity := (d.severity.map Severity.ofCode).getD .information
  message := d.message
  code := match d.code with
    | some (.str s) => some s
    | some (.int n) => some (String.ofList (Json.intText n))
    | some (.float x) => some (String.ofList (Json.floatText x))
    | _ => none
  source := d.source.filter (· ≠ "")

/-- Where a diagnostic comes from, in brackets. -/
def origin (d : Diagnostic) : Option String :=
  match d.source, d.code with
  | some source, some code => some s!"({source} {code})"
  | some source, none => some s!"({source})"
  | none, some code => some s!"({code})"
  | none, none => none

/-- The diagnostic as one line of the document shows it; without a document no line ends. -/
def render (d : Diagnostic) (document : Option (List Char)) : RenderedDiagnostic :=
  let message := " ".intercalate (words d.message)
  let text := match d.origin with
    | some origin => s!"{origin} {message}"
    | none => message
  let line := d.range.start.line
  let limit := (document.bind (Text.lineLength line)).getD lastColumn
  let start := min d.range.start.character limit
  let stop := if d.range.stop.line = line then min d.range.stop.character limit else limit
  ⟨d.severity, text, line, start, max stop start⟩

/-- The diagnostic as a record; fields that are absent are left out. -/
def toJson (d : Diagnostic) : Json :=
  Json.object ([("range", d.range.toJson), ("severity", .str d.severity.name),
      ("message", .str d.message)]
    ++ (d.code.map fun s => ("code", .str s)).toList
    ++ (d.source.map fun s => ("source", .str s)).toList)

end Diagnostic

/-- The diagnostic as a record. -/
def RenderedDiagnostic.toJson (d : RenderedDiagnostic) : Json :=
  Json.object [("severity", .str d.severity.name), ("text", .str d.text), ("line", .int d.line),
    ("start", .int d.start), ("end", .int d.stop)]

/-- The diagnostic as a line for people. -/
def RenderedDiagnostic.display (d : RenderedDiagnostic) : String :=
  s!"{d.line + 1}:{d.start + 1}: {d.severity.display}: {d.text}"

end LanguageClient
