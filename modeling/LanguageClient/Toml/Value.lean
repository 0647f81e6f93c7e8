import LanguageClient.Json.Basic
import LanguageClient.Toml.Date

/-!
# Values of a TOML document

What stands on the right of an equals sign, with the keys of a table in the order in which they were
given. As JSON a date is the string of its text. A table whose first key is `dateKey` is another
spelling of the date in the string under that key, whatever keys follow; it is refused if there is
no such string. Nothing of this holds of the whole document, which is always a table.
-/

namespace LanguageClient.Toml

/-- A value. -/
inductive Value where
  /-- A truth value, a number or a string. -/
  | scalar (v : Json)
  /-- A date or time by its text. -/
  | date (text : String)
  | array (items : List Value)
  | table (fields : List (String × Value))
  deriving Inhabited

/-- The key that makes a table a date. -/
def dateKey : String := "$__toml_private_datetime"

/-- The date that the value under `dateKey` spells. -/
def Value.spelledDate? : Value → Option String
  | .scalar (.str text) => (dateTimeOfText text.toList).map String.ofList
  | _ => none

mutual

/-- The value as JSON. -/
def Value.toJson? : Value → Option Json
  | .scalar v => some v
  | .date text => some (.str text)
  | .array items => (itemsToJson? items).map .arr
  | .table [] => some Json.emptyObject
  | .table ((key, v) :: rest) =>
    if key = dateKey then v.spelledDate?.map .str
    else do
      let first ← v.toJson?
      let others ← fieldsToJson? rest
      return Json.object ((key, first) :: others)

/-- Values as JSON. -/
def itemsToJson? : List Value → Option (List Json)
  | [] => some []
  | v :: rest => do
    let first ← v.toJson?
    let others ← itemsToJson? rest
    return first :: others

/-- The values of fields as JSON. -/
def fieldsToJson? : List (String × Value) → Option (List (String × Json))
  | [] => some []
  | (key, v) :: rest => do
    let first ← v.toJson?
    let others ← fieldsToJson? rest
    return (key, first) :: others

end

/-- The object of a whole document. -/
def documentToJson? (fields : List (String × Value)) : Option Json :=
  (fieldsToJson? fields).map Json.object

end LanguageClient.Toml
