/-!
# Blank characters

Which characters count as white space, by the Unicode property of that name, and the cuts made
along them: trimming a text and splitting it into words.
-/

namespace LanguageClient

/-- The Unicode property `White_Space`. -/
def isBlank (c : Char) : Bool :=
  let n := c.toNat
  (9 ≤ n && n ≤ 13) || n = 0x20 || n = 0x85 || n = 0xA0 || n = 0x1680
    || (0x2000 ≤ n && n ≤ 0x200A) || n = 0x2028 || n = 0x2029 || n = 0x202F || n = 0x205F
    || n = 0x3000

/-- Drops the characters of class `p` at the end. -/
def dropEndWhile (p : Char → Bool) (cs : List Char) : List Char :=
  (cs.reverse.dropWhile p).reverse

/-- The text without blanks at either end. -/
def trimBlanks (cs : List Char) : List Char := dropEndWhile isBlank (cs.dropWhile isBlank)

/-- The text without blanks at either end. -/
def trimmed (s : String) : String := String.ofList (trimBlanks s.toList)

/-- The maximal runs of characters that are not blank, given the run being read backwards. -/
def wordsFrom : List Char → List Char → List (List Char)
  | run, [] => if run.isEmpty then [] else [run.reverse]
  | run, c :: cs =>
    if isBlank c then
      if run.isEmpty then wordsFrom [] cs else run.reverse :: wordsFrom [] cs
    else wordsFrom (c :: run) cs

/-- The words of a text: its maximal runs of characters that are not blank. -/
def words (s : String) : List String := (wordsFrom [] s.toList).map String.ofList

end LanguageClient
