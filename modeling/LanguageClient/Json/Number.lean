import LanguageClient.Bounds
import LanguageClient.Decimal.Shortest

/-!
# Number texts

How JSON writes a number that is no 64-bit integer: the fewest digits that read back, positional
from `1e-5` up to `1e16` and with a signed exponent elsewhere; a whole number keeps `.0`. Numbers
that are not finite have no text of their own and appear as `null`.
-/

namespace LanguageClient.Json

/-- The decimal digits of a natural number. -/
def natDigits (n : Nat) : List Char := Nat.toDigits 10 n

/-- The decimal text of an integer. -/
def intText : Int → List Char
  | .ofNat n => natDigits n
  | .negSucc n => '-' :: natDigits (n + 1)

/-- The text of the positive number `digits * 10 ^ exponent`. -/
def scaledText (s : Decimal.Scaled) : List Char :=
  let digits := natDigits s.digits
  -- the decimal point stands after the first `point` digits
  let point : Int := s.exponent + digits.length
  if -5 < point && point ≤ 16 then
    if point ≤ 0 then '0' :: '.' :: List.replicate (-point).toNat '0' ++ digits
    else
      let whole := digits.take point.toNat
      let fraction := digits.drop point.toNat
      whole ++ List.replicate (point.toNat - digits.length) '0' ++ '.' ::
        if fraction.isEmpty then ['0'] else fraction
  else
    let power := point - 1
    let head := digits.take 1
    let tail := digits.drop 1
    let mantissa := if tail.isEmpty then head else head ++ '.' :: tail
    mantissa ++ 'e' :: (if power < 0 then '-' else '+') :: natDigits power.natAbs

/-- The text of a binary64 number. -/
def floatText (x : Float) : List Char :=
  let bits := x.toBits.toNat
  let magnitude := bits % bound63
  if magnitude ≥ 0x7FF * bound52 then "null".toList
  else
    let text := if magnitude = 0 then "0.0".toList else scaledText (Decimal.shortest magnitude)
    if bits ≥ bound63 then '-' :: text else text

end LanguageClient.Json
