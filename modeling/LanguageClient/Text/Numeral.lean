/-!
# Numerals

Reading a whole text as a natural number below a bound: decimal digits, with an optional plus sign
in front, and nothing else. A text that is no such number is refused with the first fault that
reading it from the left meets.
-/

namespace LanguageClient

/-- Why a text is no number. -/
inductive NumeralFault where
  | empty
  | invalidDigit
  | tooLarge
  deriving DecidableEq, Repr, Inhabited

/-- The words for a text that is no number. -/
def NumeralFault.message : NumeralFault → String
  | .empty => "cannot parse integer from empty string"
  | .invalidDigit => "invalid digit found in string"
  | .tooLarge => "number too large to fit in target type"

/-- The number that decimal digits spell. -/
def digitsValue (cs : List Char) : Nat := cs.foldl (fun n c => n * 10 + (c.toNat - '0'.toNat)) 0

/-- The number that the digits of an exponent spell. One of more than 18 digits, which no text is
long enough to make up for, is as good as the least one that has 19. -/
def exponentValue (cs : List Char) : Nat :=
  let digits := cs.dropWhile (· = '0')
  if 18 < digits.length then 1000000000000000000 else digitsValue digits

/-- Reads digits onto `n`; the number stays below `bound`. -/
def scanDigits (bound : Nat) : Nat → List Char → Except NumeralFault Nat
  | n, [] => .ok n
  | n, c :: cs =>
    if !c.isDigit then .error .invalidDigit
    else if n * 10 + (c.toNat - '0'.toNat) < bound then
      scanDigits bound (n * 10 + (c.toNat - '0'.toNat)) cs
    else .error .tooLarge

/-- Reads a text of digits, of which there must be one where `none` has a name. -/
def readDigits (bound : Nat) (none : NumeralFault) (cs : List Char) : Except NumeralFault Nat :=
  if cs.isEmpty then .error none else scanDigits bound 0 cs

/-- Reads a text as a natural number below `bound`. -/
def readNumeral (bound : Nat) : List Char → Except NumeralFault Nat
  | '+' :: digits => readDigits bound .invalidDigit digits
  | digits => readDigits bound .empty digits

/-- The natural number below `bound` that a text spells. -/
def readNatural (bound : Nat) (cs : List Char) : Option Nat := (readNumeral bound cs).toOption

/-- The texts before and after the first `c`, if there is one. -/
def splitAtFirst (c : Char) (cs : List Char) : Option (List Char × List Char) :=
  match cs.dropWhile (· ≠ c) with
  | [] => none
  | _ :: rest => some (cs.takeWhile (· ≠ c), rest)

/-- A text with its ASCII capitals made small. -/
def lowercased (s : String) : String := String.ofList (s.toList.map Char.toLower)

end LanguageClient
