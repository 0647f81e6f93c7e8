import LanguageClient.Bounds
import LanguageClient.Json.Basic
import LanguageClient.Text.Numeral

/-!
# Numbers of TOML

How TOML 1.0 spells integers and floats. Each reader takes what it can from the front of a text and
gives what is left. Underscores may stand between two digits.
-/

namespace LanguageClient.Toml

/-- Digits of a class with single underscores between them: the digits and the rest. -/
def digitRun (isDigit : Char → Bool) : List Char → Option (List Char × List Char)
  | [] => none
  | c :: rest =>
    if !isDigit c then none
    else
      match rest with
      | '_' :: rest => (digitRun isDigit rest).map fun (ds, rest) => (c :: ds, rest)
      | d :: rest =>
        if isDigit d then (digitRun isDigit (d :: rest)).map fun (ds, rest) => (c :: ds, rest)
        else some ([c], d :: rest)
      | [] => some ([c], [])

/-- A sign at the front: whether it is a minus. -/
def sign : List Char → Bool × List Char
  | '-' :: rest => (true, rest)
  | '+' :: rest => (false, rest)
  | cs => (false, cs)

/-- The digits of a decimal whole number, in which no zero leads. -/
def wholeDigits : List Char → Option (List Char × List Char)
  | '0' :: rest => some (['0'], rest)
  | cs => digitRun Char.isDigit cs

/-! ## Floats -/

/-- How many digits decide how a number is rounded to binary64; of those that follow it only counts
whether all are zero. -/
def decisiveDigits : Nat := 800

/-- Digits and an exponent for the same binary64 number with few digits: of those past the decisive
ones a last `1` is left if they are not all zero. -/
def shortenDigits (digits : List Char) (exponent : Int) : List Char × Int :=
  let tail := digits.drop decisiveDigits
  if tail.isEmpty then (digits, exponent)
  else if tail.all (· = '0') then (digits.take decisiveDigits, exponent + tail.length)
  else (digits.take decisiveDigits ++ ['1'], exponent + tail.length - 1)

/-- The binary64 number nearest to `digits * 10 ^ exponent`; far beyond the range no power is
computed. -/
def floatOf (digits : List Char) (exponent : Int) : Float :=
  let (digits, exponent) := shortenDigits (digits.dropWhile (· = '0')) exponent
  let significand := digitsValue digits
  let magnitude : Int := digits.length + exponent
  if significand = 0 || magnitude < -400 then 0
  else if exponent < 0 then Float.ofScientific significand true exponent.natAbs
  else if 400 < magnitude - digits.length then 1 / 0
  else Float.ofScientific significand false exponent.toNat

/-- The exponent at the front. -/
def readExponent (cs : List Char) : Option (Int × List Char) :=
  match cs with
  | e :: rest =>
    if e = 'e' || e = 'E' then
      let (negative, rest) := sign rest
      (digitRun Char.isDigit rest).map fun (ds, rest) =>
        (if negative then -(exponentValue ds : Int) else exponentValue ds, rest)
    else none
  | [] => none

/-- A float with a fraction, an exponent or both. One past the largest finite number is refused. -/
def readFloat (cs : List Char) : Option (Json × List Char) := do
  let (negative, rest) := sign cs
  let (whole, rest) ← wholeDigits rest
  let signed (digits : List Char) (exponent : Int) : Option Json :=
    let x := floatOf digits exponent
    if negative then some (.float (-x)) else if x.isInf then none else some (.float x)
  match rest with
  | '.' :: rest =>
    let (fraction, rest) ← digitRun Char.isDigit rest
    let (exponent, rest) := (readExponent rest).getD (0, rest)
    return (← signed (whole ++ fraction) (exponent - fraction.length), rest)
  | rest =>
    let (exponent, rest) ← readExponent rest
    return (← signed whole exponent, rest)

/-- Infinity or no number, by name. -/
def readSpecial (cs : List Char) : Option (Json × List Char) :=
  let (negative, rest) := sign cs
  let signed (x : Float) : Json := .float (if negative then -x else x)
  match rest with
  | 'i' :: 'n' :: 'f' :: rest => some (signed (1 / 0), rest)
  | 'n' :: 'a' :: 'n' :: rest => some (signed (0 / 0), rest)
  | _ => none

/-! ## Integers -/

/-- The value of a digit of either case. -/
def digitValue (c : Char) : Nat :=
  if c.isDigit then c.toNat - '0'.toNat
  else if c.isLower then c.toNat - 'a'.toNat + 10
  else c.toNat - 'A'.toNat + 10

/-- Whether a character is a hexadecimal digit. -/
def isHexDigit (c : Char) : Bool := c.isDigit || ('a' ≤ c && c ≤ 'f') || ('A' ≤ c && c ≤ 'F')

/-- The most digits that a number of 64 bits has in any base. -/
def maxDigits : Nat := 64

/-- A number of a base after the mark of that base. -/
def readBased (base : Nat) (isDigit : Char → Bool) (cs : List Char) :
    Option (Json × List Char) := do
  let (ds, rest) ← digitRun isDigit cs
  let ds := ds.dropWhile (· = '0')
  if maxDigits < ds.length then none
  let n := ds.foldl (fun n c => n * base + digitValue c) 0
  if n < bound63 then some (.int n, rest) else none

/-- An integer of 64 bits. -/
def readInteger : List Char → Option (Json × List Char)
  | '0' :: 'x' :: rest => readBased 16 isHexDigit rest
  | '0' :: 'o' :: rest => readBased 8 (fun c => '0' ≤ c && c ≤ '7') rest
  | '0' :: 'b' :: rest => readBased 2 (fun c => c = '0' || c = '1') rest
  | cs => do
    let (negative, rest) := sign cs
    let (ds, rest) ← wholeDigits rest
    if maxDigits < ds.length then none
    let n : Int := if negative then -(digitsValue ds : Int) else digitsValue ds
    if -(bound63 : Int) ≤ n && n < bound63 then some (.int n, rest) else none

/-- A number. -/
def readNumber (cs : List Char) : Option (Json × List Char) :=
  (readFloat cs).orElse fun _ => (readInteger cs).orElse fun _ => readSpecial cs

end LanguageClient.Toml
