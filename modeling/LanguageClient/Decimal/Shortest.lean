import LanguageClient.Bounds

/-!
# Shortest decimals

A finite binary64 number is `significand * 2 ^ exponent`. Among the decimals that round to it the
shortest are those with the fewest digits, and of these the nearest is taken. The search is exact:
for one digit, two, and so on it tests the two neighbours of the value on that decimal grid.
-/

namespace LanguageClient.Decimal

/-- A positive number `significand * 2 ^ exponent`, with whether the spacing of the binary numbers
halves below it. -/
structure Binary where
  significand : Nat
  exponent : Int
  narrowBelow : Bool
  deriving Repr

/-- A decimal `digits * 10 ^ exponent`. -/
structure Scaled where
  digits : Nat
  exponent : Int
  deriving Repr, DecidableEq

/-- The bits of a positive finite binary64 number, without the sign, as a binary number. -/
def Binary.ofBits (bits : Nat) : Binary :=
  let fraction := bits % bound52
  let biased : Nat := bits / bound52
  if biased = 0 then ⟨fraction, -1074, false⟩
  else ⟨bound52 + fraction, Int.ofNat biased - 1075, fraction = 0 && 1 < biased⟩

/-- Numerators over one denominator: the value and the ends of the interval that rounds to it. -/
structure Interval where
  low : Nat
  value : Nat
  high : Nat
  den : Nat
  closed : Bool

/-- The interval of numbers that round to `b`; its ends belong to it when the significand is
even. -/
def Binary.interval (b : Binary) : Interval :=
  let up := b.exponent.toNat
  let down := (-b.exponent).toNat
  let unit := Nat.pow 2 up
  { low := (4 * b.significand - if b.narrowBelow then 1 else 2) * unit
    value := 4 * b.significand * unit
    high := (4 * b.significand + 2) * unit
    den := 4 * Nat.pow 2 down
    closed := b.significand % 2 = 0 }

/-- Whether `digits * 10 ^ exponent` lies in an interval. -/
def Interval.holds (i : Interval) (s : Scaled) : Bool :=
  let x := s.digits * Nat.pow 10 s.exponent.toNat * i.den
  let scale := Nat.pow 10 (-s.exponent).toNat
  if i.closed then i.low * scale ≤ x && x ≤ i.high * scale
  else i.low * scale < x && x < i.high * scale

/-- The last point of the grid of step `10 ^ exponent` at or below the interval's value. -/
def Interval.floorOn (i : Interval) (exponent : Int) : Nat :=
  i.value * Nat.pow 10 (-exponent).toNat / (i.den * Nat.pow 10 exponent.toNat)

/-- Whether the value is at least as near to `k` steps of `10 ^ exponent` as to `k + 1`. -/
def Interval.nearerBelow (i : Interval) (k : Nat) (exponent : Int) : Bool :=
  let v := i.value * Nat.pow 10 (-exponent).toNat
  let step := i.den * Nat.pow 10 exponent.toNat
  2 * v < (2 * k + 1) * step || (2 * v = (2 * k + 1) * step && k % 2 = 0)

/-- The exponent of the first digit of the value: `10 ^ magnitude ≤ value < 10 ^ (magnitude + 1)`,
searched upwards from `guess`. -/
def Interval.magnitude (i : Interval) (guess : Int) : Nat → Int
  | 0 => guess
  | fuel + 1 =>
    if i.floorOn (guess + 1) = 0 then guess else Interval.magnitude i (guess + 1) fuel

/-- The shortest decimal of the interval with at least `17 - fuel` digits. -/
def Interval.search (i : Interval) (magnitude : Int) : Nat → Scaled
  | 0 => ⟨i.floorOn (magnitude - 16), magnitude - 16⟩
  | fuel + 1 =>
    let exponent := magnitude - (16 - fuel : Int)
    let k := i.floorOn exponent
    let below : Scaled := ⟨k, exponent⟩
    let above : Scaled := ⟨k + 1, exponent⟩
    match i.holds below, i.holds above with
    | true, false => below
    | false, true => above
    | true, true => if i.nearerBelow k exponent then below else above
    | false, false => Interval.search i magnitude fuel

/-- Removes the zeros at the end of the digits. -/
def Scaled.strip : Nat → Scaled → Scaled
  | 0, s => s
  | fuel + 1, s =>
    if s.digits % 10 = 0 && s.digits ≠ 0 then Scaled.strip fuel ⟨s.digits / 10, s.exponent + 1⟩
    else s

/-- The shortest decimal that reads back as the positive finite number with these bits. -/
def shortest (bits : Nat) : Scaled :=
  let b := Binary.ofBits bits
  let i := b.interval
  -- 0.30103 is a little more than the logarithm of two, so the guess is never too high
  let guess : Int := (b.exponent + b.significand.log2) * 30103 / 100000 - 2
  (i.search (i.magnitude guess 6) 17).strip 20

end LanguageClient.Decimal
