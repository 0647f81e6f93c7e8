import LanguageClient.Json.Decode
import LanguageClient.Path.Uri
import LanguageClient.Text.Edit

/-!
# Shapes of protocol values

How positions, ranges, edits and locations are read from JSON and written to it.
-/

namespace LanguageClient

namespace Position

def toJson (p : Position) : Json :=
  Json.object [("line", .int p.line), ("character", .int p.character)]

/-- Reads a position; both numbers fit 32 bits. -/
def decoder : Decoder Position :=
  (Layout.start Position.mk
    |>.also (.required "line" Decoder.u32)
    |>.also (.required "character" Decoder.u32)).decoder "Position"

end Position

namespace Range

def toJson (r : Range) : Json := Json.object [("start", r.start.toJson), ("end", r.stop.toJson)]

/-- Reads a range. -/
def decoder : Decoder Range :=
  (Layout.start Range.mk
    |>.also (.required "start" Position.decoder)
    |>.also (.required "end" Position.decoder)).decoder "Range"

end Range

namespace TextEdit

/-- Reads an edit. -/
def decoder : Decoder TextEdit :=
  (Layout.start TextEdit.mk
    |>.also (.required "range" Range.decoder)
    |>.also (.required "newText" Decoder.string)).decoder "TextEdit"

end TextEdit

/-- A range in a file. -/
structure Location where
  path : Path
  range : Range
  deriving DecidableEq, Repr, Inhabited

namespace Location

/-- Reads a location, which the wire gives by URI. -/
def decoder : Decoder Location :=
  (Layout.start (fun uri range => Location.mk (Uri.toPath uri) range)
    |>.also (.required "uri" Decoder.string)
    |>.also (.required "range" Range.decoder)).decoder "LspLocation"

end Location

/-- A location with the text that lists show for it. -/
structure LocationEntry where
  location : Location
  label : String
  deriving DecidableEq, Repr, Inhabited

/-- How a server names itself. -/
structure ServerInfo where
  name : String
  version : Option String
  deriving DecidableEq, Repr, Inhabited

namespace ServerInfo

/-- Name and version as one line. -/
def display (s : ServerInfo) : String :=
  match s.version with
  | some version => s!"{s.name} {version}"
  | none => s.name

def toJson (s : ServerInfo) : Json :=
  Json.object ([("name", .str s.name)] ++ (s.version.map fun v => ("version", .str v)).toList)

/-- Reads how a server names itself. -/
def decoder : Decoder ServerInfo :=
  (Layout.start ServerInfo.mk
    |>.also (.required "name" Decoder.string)
    |>.also (.nullable "version" Decoder.string)).decoder "ServerInfo"

end ServerInfo

end LanguageClient
