import LanguageClient.Bounds
import LanguageClient.Json.Basic
import LanguageClient.Text.Numeral
import LanguageClient.Text.Utf8

/-!
# Reading JSON texts

The grammar of RFC 8259, with a bound of 127 on nesting. Integers that fit 64 bits (unsigned when
positive, signed when negative) stay integers; minus zero and every other number become binary64,
by scaling the leading digits that fit 64 bits by a power of ten. A number past the largest finite
one is refused, as is a lone surrogate escape.
-/

namespace LanguageClient.Json

/-- The blanks allowed between tokens. -/
def isSpace (c : Char) : Bool := c = ' ' || c = '\n' || c = '\r' || c = '\t'

/-- Drops the blanks at the front. -/
def skipSpace (cs : List Char) : List Char := cs.dropWhile isSpace

/-- The value of a hexadecimal digit of either case. -/
def hexValue (c : Char) : Option Nat :=
  if '0' ≤ c && c ≤ '9' then some (c.toNat - '0'.toNat)
  else if 'a' ≤ c && c ≤ 'f' then some (c.toNat - 'a'.toNat + 10)
  else if 'A' ≤ c && c ≤ 'F' then some (c.toNat - 'A'.toNat + 10)
  else none

/-! ## Strings -/

/-- A part of a string text: a character, or a UTF-16 unit given by its number. -/
inductive StringPart where
  | char (c : Char)
  | unit (n : Nat)

/-- The number of four hexadecimal digits. -/
def hexUnit (a b c d : Char) : Option Nat := do
  return ((← hexValue a) * 16 + (← hexValue b)) * 256 + (← hexValue c) * 16 + (← hexValue d)

/-- The character that a backslash and `c` stand for. -/
def simpleEscape (c : Char) : Option Char :=
  if c = '"' || c = '\\' || c = '/' then some c
  else if c = 'b' then some '\x08'
  else if c = 'f' then some '\x0c'
  else if c = 'n' then some '\n'
  else if c = 'r' then some '\r'
  else if c = 't' then some '\t'
  else none

/-- The parts of a string up to its closing quote, and what follows the quote. -/
def stringParts : List Char → Option (List StringPart × List Char)
  | [] => none
  | '"' :: rest => some ([], rest)
  | '\\' :: 'u' :: a :: b :: c :: d :: rest => do
    let n ← hexUnit a b c d
    let (parts, rest) ← stringParts rest
    return (.unit n :: parts, rest)
  | '\\' :: c :: rest => do
    let c ← simpleEscape c
    let (parts, rest) ← stringParts rest
    return (.char c :: parts, rest)
  | c :: rest => do
    if c.toNat < 0x20 then none
    let (parts, rest) ← stringParts rest
    return (.char c :: parts, rest)

/-- The characters of string parts; a high surrogate must meet a low one. -/
def joinParts : List StringPart → Option (List Char)
  | [] => some []
  | .char c :: rest => (joinParts rest).map (c :: ·)
  | .unit n :: rest =>
    if n < 0xD800 || 0xE000 ≤ n then (joinParts rest).map (Char.ofNat n :: ·)
    else match rest with
      | .unit m :: rest =>
        if n < 0xDC00 && 0xDC00 ≤ m && m < 0xE000 then
          (joinParts rest).map
            (Char.ofNat (0x10000 + (n - 0xD800) * 0x400 + (m - 0xDC00)) :: ·)
        else none
      | _ => none

/-- A string after its opening quote. -/
def readString (cs : List Char) : Option (String × List Char) := do
  let (parts, rest) ← stringParts cs
  return (String.ofList (← joinParts parts), rest)

/-! ## Numbers -/

/-- The value of a decimal digit. -/
def digitValue (c : Char) : Nat := c.toNat - '0'.toNat

/-- Reads digits onto `n` while the number stays below `2 ^ 64`; gives also how many were left. -/
def accumulate : Nat → List Char → Nat × Nat
  | n, [] => (n, 0)
  | n, c :: cs =>
    if n * 10 + digitValue c < bound64 then accumulate (n * 10 + digitValue c) cs
    else (n, cs.length + 1)

/-- `significand * 10 ^ exponent` in binary64, one rounding for the power; `none` when it is past
the largest finite number. -/
def scale (significand : Nat) (exponent : Int) : Option Float :=
  let f := significand.toUInt64.toFloat
  let power (n : Nat) : Float := Float.ofScientific 1 false n
  if significand = 0 then some 0
  else if 308 < exponent then none
  else if 0 ≤ exponent then
    let r := f * power exponent.toNat
    if r.isInf then none else some r
  else if -308 ≤ exponent then some (f / power (-exponent).toNat)
  else if -616 ≤ exponent then some (f / power 308 / power (-exponent - 308).toNat)
  else some 0

/-- The digits at the front, of which there must be one. -/
def someDigits (cs : List Char) : Option (List Char × List Char) :=
  let digits := cs.takeWhile Char.isDigit
  if digits.isEmpty then none else some (digits, cs.dropWhile Char.isDigit)

/-- The exponent at the front, zero if there is none. -/
def readExponent (cs : List Char) : Option (Option Int × List Char) :=
  let sized (negative : Bool) (cs : List Char) : Option (Option Int × List Char) := do
    let (digits, rest) ← someDigits cs
    let n := exponentValue digits
    return (some (if negative then -(n : Int) else n), rest)
  match cs with
  | 'e' :: '-' :: rest | 'E' :: '-' :: rest => sized true rest
  | 'e' :: '+' :: rest | 'E' :: '+' :: rest => sized false rest
  | 'e' :: rest | 'E' :: rest => sized false rest
  | _ => some (none, cs)

/-- The fraction digits at the front, if there is a point. -/
def readFraction (cs : List Char) : Option (Option (List Char) × List Char) :=
  match cs with
  | '.' :: rest => do
    let (digits, rest) ← someDigits rest
    return (some digits, rest)
  | _ => some (none, cs)

/-- The number with these parts. -/
def numberOf (negative : Bool) (whole : List Char) (fraction : Option (List Char))
    (exponent : Option Int) : Option Json :=
  let (leading, dropped) := accumulate 0 whole
  let signed (x : Float) : Json := .float (if negative then -x else x)
  match fraction, exponent, dropped with
  | none, none, 0 =>
    if !negative then some (.int leading)
    else if 0 < leading && leading ≤ bound63 then some (.int (-(leading : Int)))
    else some (signed leading.toUInt64.toFloat)
  | _, _, _ =>
    let digits := fraction.getD []
    let (significand, unread) := accumulate leading digits
    let taken := digits.length - unread
    (scale significand (dropped - taken + exponent.getD 0)).map signed

/-- A number without its sign. -/
def readUnsigned (negative : Bool) (cs : List Char) : Option (Json × List Char) := do
  let (whole, rest) ← someDigits cs
  if whole.head? = some '0' && 1 < whole.length then none
  let (fraction, rest) ← readFraction rest
  let (exponent, rest) ← readExponent rest
  return (← numberOf negative whole fraction exponent, rest)

/-- A number. -/
def readNumber : List Char → Option (Json × List Char)
  | '-' :: rest => readUnsigned true rest
  | cs => readUnsigned false cs

/-! ## Values -/

mutual

/-- A value nested at most `room` deep. -/
def readValue : Nat → Nat → List Char → Option (Json × List Char)
  | 0, _, _ => none
  | fuel + 1, room, cs =>
    match skipSpace cs with
    | 'n' :: 'u' :: 'l' :: 'l' :: rest => some (.null, rest)
    | 't' :: 'r' :: 'u' :: 'e' :: rest => some (.bool true, rest)
    | 'f' :: 'a' :: 'l' :: 's' :: 'e' :: rest => some (.bool false, rest)
    | '"' :: rest => (readString rest).map fun (s, rest) => (.str s, rest)
    | '[' :: rest =>
      match room with
      | 0 => none
      | room + 1 =>
        match skipSpace rest with
        | ']' :: rest => some (.arr [], rest)
        | rest => (readItems fuel room rest).map fun (items, rest) => (.arr items, rest)
    | '{' :: rest =>
      match room with
      | 0 => none
      | room + 1 =>
        match skipSpace rest with
        | '}' :: rest => some (.obj [], rest)
        | rest => (readFields fuel room rest).map fun (fields, rest) => (object fields, rest)
    | rest => readNumber rest

/-- The items of an array up to its bracket. -/
def readItems : Nat → Nat → List Char → Option (List Json × List Char)
  | 0, _, _ => none
  | fuel + 1, room, cs =>
    match readValue fuel room cs with
    | none => none
    | some (v, rest) =>
      match skipSpace rest with
      | ']' :: rest => some ([v], rest)
      | ',' :: rest => (readItems fuel room rest).map fun (items, rest) => (v :: items, rest)
      | _ => none

/-- The fields of an object up to its brace. -/
def readFields : Nat → Nat → List Char → Option (List (String × Json) × List Char)
  | 0, _, _ => none
  | fuel + 1, room, cs =>
    match skipSpace cs with
    | '"' :: rest =>
      match readString rest with
      | none => none
      | some (key, rest) =>
        match skipSpace rest with
        | ':' :: rest =>
          match readValue fuel room rest with
          | none => none
          | some (v, rest) =>
            match skipSpace rest with
            | '}' :: rest => some ([(key, v)], rest)
            | ',' :: rest =>
              (readFields fuel room rest).map fun (fields, rest) => ((key, v) :: fields, rest)
            | _ => none
        | _ => none
    | _ => none

end

/-- How deep a text may nest. -/
def maxDepth : Nat := 127

/-- The value that a whole text spells. -/
def parse? (cs : List Char) : Option Json :=
  match readValue (2 * cs.length + 2) maxDepth cs with
  | some (v, rest) => if (skipSpace rest).isEmpty then some v else none
  | none => none

/-- The value that a byte string spells. -/
def ofBytes? (bs : Bytes) : Option Json := (Utf8.decode? bs).bind parse?

end LanguageClient.Json
