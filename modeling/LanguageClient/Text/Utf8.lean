/-!
# UTF-8

Bytes and the characters they spell. `pieces` cuts any byte string into well-formed characters and
malformed runs; a malformed run is the longest prefix of a character that the following byte breaks
off, or a single byte that starts none. Strict reading refuses malformed runs, lenient reading puts
U+FFFD for each.
-/

namespace LanguageClient

/-- A byte string. -/
abbrev Bytes := List UInt8

namespace Utf8

/-- The bytes of a text. -/
def encode (cs : List Char) : Bytes := cs.flatMap String.utf8EncodeChar

/-- The bytes of a text. -/
def ofString (s : String) : Bytes := encode s.toList

/-- A byte that continues a character. -/
def isContinuation (b : UInt8) : Bool := 0x80 ≤ b && b ≤ 0xBF

/-- Whether `b` may follow the leading byte `a`: overlong forms, surrogates and code points past
the last one are cut off here. -/
def mayFollow (a b : UInt8) : Bool :=
  if a < 0xC2 || 0xF4 < a then false
  else if a = 0xE0 then 0xA0 ≤ b && b ≤ 0xBF
  else if a = 0xED then 0x80 ≤ b && b ≤ 0x9F
  else if a = 0xF0 then 0x90 ≤ b && b ≤ 0xBF
  else if a = 0xF4 then 0x80 ≤ b && b ≤ 0x8F
  else isContinuation b

/-- The six payload bits of a continuation byte. -/
def payload (b : UInt8) : Nat := b.toNat % 64

/-- Cuts a byte string into characters, with `none` for each malformed run. -/
def pieces : Bytes → List (Option Char)
  | [] => []
  | a :: rest =>
    if a < 0x80 then some (Char.ofNat a.toNat) :: pieces rest
    else match rest with
      | [] => [none]
      | b :: rest₂ =>
        if !mayFollow a b then none :: pieces (b :: rest₂)
        else if a < 0xE0 then
          some (Char.ofNat (a.toNat % 32 * 64 + payload b)) :: pieces rest₂
        else match rest₂ with
          | [] => [none]
          | c :: rest₃ =>
            if !isContinuation c then none :: pieces (c :: rest₃)
            else if a < 0xF0 then
              some (Char.ofNat ((a.toNat % 16 * 64 + payload b) * 64 + payload c)) :: pieces rest₃
            else match rest₃ with
              | [] => [none]
              | d :: rest₄ =>
                if !isContinuation d then none :: pieces (d :: rest₄)
                else
                  some (Char.ofNat
                    (((a.toNat % 8 * 64 + payload b) * 64 + payload c) * 64 + payload d))
                  :: pieces rest₄

/-- The character put for a malformed run. -/
def replacement : Char := Char.ofNat 0xFFFD

/-- Reads bytes leniently. -/
def lossy (bs : Bytes) : List Char := (pieces bs).map (·.getD replacement)

/-- Reads bytes strictly: `none` if a run is malformed. -/
def decode? (bs : Bytes) : Option (List Char) := (pieces bs).mapM id

end Utf8

end LanguageClient
