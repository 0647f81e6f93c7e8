import LanguageClient.Text.Numeral

/-!
# Dates and times of TOML

A date, a time of day, or both, with the distance to universal time if both are there; it obeys the
calendar and the clock. What is read is kept as its normal text: `T` stands between date and time,
`Z` is a capital, and of the fraction of a second nine digits count, without zeros at the end.
-/

namespace LanguageClient.Toml

/-- A number of exactly `count` digits between two bounds. -/
def fixedDigits (count low high : Nat) (cs : List Char) : Option (Nat × List Char) :=
  let ds := cs.take count
  let n := digitsValue ds
  if ds.length = count && ds.all Char.isDigit && low ≤ n && n ≤ high then some (n, cs.drop count)
  else none

/-- The rest after a character that must be there. -/
def expect (c : Char) : List Char → Option (List Char)
  | d :: rest => if d = c then some rest else none
  | [] => none

/-- How many days a month has. -/
def daysIn (year month : Nat) : Nat :=
  if month = 2 then
    if year % 4 = 0 && (year % 100 ≠ 0 || year % 400 = 0) then 29 else 28
  else if month ∈ [4, 6, 9, 11] then 30
  else 31

/-- The text of a number with leading zeros. -/
def padded (width n : Nat) : List Char :=
  let ds := Nat.toDigits 10 n
  List.replicate (width - ds.length) '0' ++ ds

/-! ## Parts -/

/-- A date; its text and the rest. -/
def readDate (cs : List Char) : Option (List Char × List Char) := do
  let (year, cs) ← fixedDigits 4 0 9999 cs
  let cs ← expect '-' cs
  let (month, cs) ← fixedDigits 2 1 12 cs
  let cs ← expect '-' cs
  let (day, cs) ← fixedDigits 2 1 (daysIn year month) cs
  return (padded 4 year ++ '-' :: padded 2 month ++ '-' :: padded 2 day, cs)

/-- The fraction of a second: nine digits count, and zeros at the end are not written. -/
def readSecondFraction (cs : List Char) : List Char × List Char :=
  match cs with
  | '.' :: rest =>
    let ds := rest.takeWhile Char.isDigit
    if ds.isEmpty then ([], cs)
    else
      let kept := ((ds.take 9).reverse.dropWhile (· = '0')).reverse
      (if kept.isEmpty then [] else '.' :: kept, rest.dropWhile Char.isDigit)
  | _ => ([], cs)

/-- A time of day; its text and the rest. -/
def readTime (cs : List Char) : Option (List Char × List Char) := do
  let (hour, cs) ← fixedDigits 2 0 23 cs
  let cs ← expect ':' cs
  let (minute, cs) ← fixedDigits 2 0 59 cs
  let cs ← expect ':' cs
  let (second, cs) ← fixedDigits 2 0 60 cs
  let (fraction, cs) := readSecondFraction cs
  return (padded 2 hour ++ ':' :: padded 2 minute ++ ':' :: padded 2 second ++ fraction, cs)

/-- The text of a distance to universal time; no distance has a plus. -/
def shiftText (negative : Bool) (minutes : Nat) : List Char :=
  (if negative && minutes ≠ 0 then '-' else '+') ::
    padded 2 (minutes / 60) ++ ':' :: padded 2 (minutes % 60)

/-- The distance to universal time after a sign; its text and the rest. -/
def readShift (negative : Bool) (cs : List Char) : Option (List Char × List Char) := do
  let (hour, cs) ← fixedDigits 2 0 23 cs
  let cs ← expect ':' cs
  let (minute, cs) ← fixedDigits 2 0 59 cs
  return (shiftText negative (hour * 60 + minute), cs)

/-- The distance to universal time, if one is given. -/
def readOffset (cs : List Char) : Option (List Char × List Char) :=
  match cs with
  | 'Z' :: rest => some (['Z'], rest)
  | 'z' :: rest => some (['Z'], rest)
  | '+' :: rest => readShift false rest
  | '-' :: rest => readShift true rest
  | cs => some ([], cs)

/-- Whether a character may stand between date and time. -/
def isTimeMark (c : Char) : Bool := c = 'T' || c = 't' || c = ' '

/-! ## Whole dates -/

/-- A date, a time or both; its text and the rest. -/
def readDateTime (cs : List Char) : Option (List Char × List Char) :=
  match readDate cs with
  | some (date, mark :: rest) =>
    match isTimeMark mark, readTime rest with
    | true, some (time, rest) =>
      (readOffset rest).map fun (offset, rest) => (date ++ 'T' :: time ++ offset, rest)
    | _, _ => some (date, mark :: rest)
  | some (date, []) => some (date, [])
  | none => readTime cs

/-- The date, time or both that a whole string spells, as its text. -/
def dateTimeOfText (cs : List Char) : Option (List Char) :=
  match readDateTime cs with
  | some (text, []) => some text
  | _ => none

end LanguageClient.Toml
