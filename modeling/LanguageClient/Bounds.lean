/-!
# Bounds of machine words

How many values the words of 32 and 64 bits have, with and without a sign.
-/

namespace LanguageClient

/-- `2 ^ 31`: words of 32 bits with a sign reach from its negative to below it. -/
abbrev bound31 : Nat := 0x80000000

/-- `2 ^ 32`: words of 32 bits are below it. -/
abbrev bound32 : Nat := 0x100000000

/-- `2 ^ 52`: fractions of binary64 numbers are below it. -/
abbrev bound52 : Nat := 0x10000000000000

/-- `2 ^ 63`: words of 64 bits with a sign reach from its negative to below it. -/
abbrev bound63 : Nat := 0x8000000000000000

/-- `2 ^ 64`: words of 64 bits are below it. -/
abbrev bound64 : Nat := 0x10000000000000000

end LanguageClient
