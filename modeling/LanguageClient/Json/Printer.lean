import LanguageClient.Json.Basic
import LanguageClient.Json.Number

/-!
# Compact JSON texts

Writing a value without blanks, fields in the order they have. In strings the quote, the backslash
and the controls below U+0020 are escaped, and nothing else.
-/

namespace LanguageClient.Json

/-- The digit of a number below sixteen. -/
def hexDigit (n : Nat) : Char := (Nat.toDigits 16 n).headD '0'

/-- A character as it stands between quotes. -/
def escapeChar (c : Char) : List Char :=
  if c = '"' then ['\\', '"']
  else if c = '\\' then ['\\', '\\']
  else if c = '\x08' then ['\\', 'b']
  else if c = '\x0c' then ['\\', 'f']
  else if c = '\n' then ['\\', 'n']
  else if c = '\r' then ['\\', 'r']
  else if c = '\t' then ['\\', 't']
  else if c.toNat < 0x20 then
    ['\\', 'u', '0', '0', hexDigit (c.toNat / 16), hexDigit (c.toNat % 16)]
  else [c]

/-- A string with its quotes. -/
def quoted (s : String) : List Char := '"' :: (s.toList.flatMap escapeChar ++ ['"'])

mutual

/-- The compact text of a value. -/
def chars : Json → List Char
  | .null => "null".toList
  | .bool true => "true".toList
  | .bool false => "false".toList
  | .int n => intText n
  | .float x => floatText x
  | .str s => quoted s
  | .arr [] => ['[', ']']
  | .arr (v :: rest) => '[' :: (chars v ++ itemChars rest)
  | .obj [] => ['{', '}']
  | .obj ((k, v) :: rest) => '{' :: (quoted k ++ ':' :: (chars v ++ fieldChars rest))

/-- What follows the first item of an array. -/
def itemChars : List Json → List Char
  | [] => [']']
  | v :: rest => ',' :: (chars v ++ itemChars rest)

/-- What follows the first field of an object. -/
def fieldChars : List (String × Json) → List Char
  | [] => ['}']
  | (k, v) :: rest => ',' :: (quoted k ++ ':' :: (chars v ++ fieldChars rest))

end

/-- The compact text of a value. -/
def text (v : Json) : String := String.ofList (chars v)

end LanguageClient.Json
