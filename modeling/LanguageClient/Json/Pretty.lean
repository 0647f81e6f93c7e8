import LanguageClient.Json.Printer

/-!
# Printing JSON for people

One item or field to a line, each level indented by two spaces more than the one around it. Arrays
and objects without content stay on one line.
-/

namespace LanguageClient.Json

/-- A new line at a level. -/
def newLine (level : Nat) : List Char := '\n' :: List.replicate (2 * level) ' '

mutual

/-- The text of a value that starts at a level. -/
def prettyChars (level : Nat) : Json → List Char
  | .arr (v :: rest) =>
    '[' :: (newLine (level + 1) ++ prettyChars (level + 1) v ++ prettyItems (level + 1) rest)
      ++ newLine level ++ [']']
  | .obj ((k, v) :: rest) =>
    '\x7b' :: (newLine (level + 1) ++ quoted k ++ [':', ' '] ++ prettyChars (level + 1) v
      ++ prettyFields (level + 1) rest) ++ newLine level ++ ['\x7d']
  | v => v.chars

/-- The items after the first, each after a comma. -/
def prettyItems (level : Nat) : List Json → List Char
  | [] => []
  | v :: rest => ',' :: (newLine level ++ prettyChars level v) ++ prettyItems level rest

/-- The fields after the first, each after a comma. -/
def prettyFields (level : Nat) : List (String × Json) → List Char
  | [] => []
  | (k, v) :: rest =>
    ',' :: (newLine level ++ quoted k ++ [':', ' '] ++ prettyChars level v)
      ++ prettyFields level rest

end

/-- The text of a value on several lines. -/
def prettyText (v : Json) : String := String.ofList (prettyChars 0 v)

end LanguageClient.Json
