import LanguageClient.Wire.Shape

/-!
# Printed documents

Every command prints one JSON object. Paths inside the project are printed as seen from its root,
positions count from one, and `success` is put among the fields.
-/

namespace LanguageClient

/-- A path as printed: from the project's root if it lies there, else as it is. -/
def printedPath (root path : Path) : String := ((Path.below root path).getD path).text

/-- The fields of a place as printed. -/
def printedLocation (root : Path) (location : Location) (label : Option String) : Json :=
  let (line, column) := location.range.start.oneBased
  Json.object ([("file", .str (printedPath root location.path)), ("line", .int line),
    ("column", .int column)] ++ (label.map fun s => ("label", .str s)).toList)

/-- The document that a command prints. -/
def printedSuccess (fields : List (String × Json)) : Json :=
  Json.object (fields ++ [("success", .bool true)])

end LanguageClient
