import LanguageClient.Path.Basic
import LanguageClient.Text.Utf8

/-!
# File URIs

How a path is written as a `file:` URI and read back. Writing keeps letters, digits and `/ . - _ ~`
and puts every other byte as a triplet; reading takes a triplet of either case for its byte and
leaves anything else as it stands.
-/

namespace LanguageClient.Uri

/-- What starts the URI of a file. -/
def scheme : List Char := "file://".toList

/-- The characters that stand for themselves. -/
def isPlain (c : Char) : Bool :=
  c.isAlphanum || c = '/' || c = '.' || c = '-' || c = '_' || c = '~'

/-- The upper-case digit of a number below sixteen. -/
def hexDigit (n : Nat) : Char :=
  if n < 10 then Char.ofNat ('0'.toNat + n) else Char.ofNat ('A'.toNat + (n - 10))

/-- A byte as a triplet. -/
def triplet (b : UInt8) : List Char := ['%', hexDigit (b.toNat / 16), hexDigit (b.toNat % 16)]

/-- A character as it stands in a URI. -/
def encodeChar (c : Char) : List Char :=
  if isPlain c then [c] else (Utf8.encode [c]).flatMap triplet

/-- The URI of an absolute path, given by its characters. -/
def encode (path : List Char) : List Char := scheme ++ path.flatMap encodeChar

/-- The value of a hexadecimal digit byte of either case. -/
def digitValue (b : UInt8) : Option UInt8 :=
  if 0x30 ≤ b && b ≤ 0x39 then some (b - 0x30)
  else if 0x41 ≤ b && b ≤ 0x46 then some (b - 0x41 + 10)
  else if 0x61 ≤ b && b ≤ 0x66 then some (b - 0x61 + 10)
  else none

/-- Puts the byte that each triplet names in its place. -/
def decodeBytes : Bytes → Bytes
  | [] => []
  | a :: rest =>
    if a = 0x25 then
      match rest with
      | h :: l :: rest' =>
        match digitValue h, digitValue l with
        | some h, some l => (h * 16 + l) :: decodeBytes rest'
        | _, _ => a :: decodeBytes (h :: l :: rest')
      | rest => a :: decodeBytes rest
    else a :: decodeBytes rest

/-- The characters after the scheme, if the URI names a file. -/
def afterScheme? (uri : List Char) : Option (List Char) :=
  if scheme.isPrefixOf uri then some (uri.drop scheme.length) else none

/-- The characters of the path a URI names; one that names no file is taken as a path. -/
def decode (uri : List Char) : List Char :=
  match afterScheme? uri with
  | none => uri
  | some encoded => Utf8.lossy (decodeBytes (Utf8.encode encoded))

/-- The URI of a path; one that is not absolute is taken from the root. A process takes such a path
from its current directory, so that this is the URI it writes when it runs at the root; elsewhere
the two differ by that directory in front. -/
def ofPath (p : Path) : String := String.ofList (encode (Path.join ⟨"/"⟩ p).text.toList)

/-- The path that a URI names. -/
def toPath (uri : String) : Path := ⟨String.ofList (decode uri.toList)⟩

end LanguageClient.Uri
