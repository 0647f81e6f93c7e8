import LanguageClient.Bounds
import LanguageClient.Json.Parser
import LanguageClient.Json.Printer
import LanguageClient.Text.Blank
import LanguageClient.Text.Numeral
import LanguageClient.Text.Utf8

/-!
# Frames

A frame is a header block, closed by an empty line, whose `Content-Length` says how many bytes of
JSON follow. The decoder takes a server's output in any pieces: it holds what is not yet a whole
frame and gives every result as soon as its last byte is there. A header that is read is gone
whether or not it was sound, which is how the stream finds back after a bad frame; output that
shows no header for too long is dropped as noise.
-/

namespace LanguageClient

/-- Why some bytes were no frame. -/
inductive FrameError where
  | missingLength
  | invalidLength (value : String)
  | tooLarge (length : Nat)
  | noHeader (dropped : Nat)
  | malformedBody
  deriving DecidableEq, Repr, Inhabited

namespace FrameError

/-- The wording of a framing error, apart from what the JSON reader would add. -/
def message : FrameError → String
  | missingLength => "Missing Content-Length header"
  | invalidLength value => s!"Invalid Content-Length: {value}"
  | tooLarge length => s!"Frame of {length} bytes exceeds the limit"
  | noHeader dropped => s!"Discarded {dropped} bytes of output with no frame header"
  | malformedBody => "Invalid JSON body"

end FrameError

namespace Frame

/-- The longest body that is accepted, in bytes. -/
def maxLength : Nat := 64 * 1024 * 1024

/-- How many bytes may wait for the end of a header. -/
def maxHeader : Nat := 8 * 1024

/-- The bytes of the empty line that closes a header, with the line break before it. -/
def terminator : Bytes := [13, 10, 13, 10]

/-- The bytes that frame a JSON text. -/
def wrap (body : Bytes) : Bytes :=
  Utf8.encode ("Content-Length: ".toList ++ Json.natDigits body.length) ++ terminator ++ body

/-- The frame of a JSON value. -/
def encode (v : Json) : Bytes := wrap (Utf8.encode (Json.chars v))

/-- Where the first terminator of a byte string starts. -/
def findTerminator : Bytes → Option Nat
  | [] => none
  | a :: rest =>
    if terminator.isPrefixOf (a :: rest) then some 0 else (findTerminator rest).map (· + 1)

/-- Where the last line break of a byte string starts. -/
def lastLineBreak : Bytes → Option Nat
  | [] => none
  | a :: rest =>
    match lastLineBreak rest with
    | some i => some (i + 1)
    | none => if [13, 10].isPrefixOf (a :: rest) then some 0 else none

/-- The lines of a header. -/
def headerLines : List Char → List (List Char)
  | [] => [[]]
  | '\r' :: '\n' :: rest => [] :: headerLines rest
  | c :: rest =>
    match headerLines rest with
    | [] => [[c]]
    | line :: lines => (c :: line) :: lines

/-- The value of a line that gives the length. -/
def lengthValue? (line : List Char) : Option (List Char) := do
  let (name, value) ← splitAtFirst ':' line
  if (trimBlanks name).map Char.toLower = "content-length".toList then some (trimBlanks value)
  else none

/-- The length that header lines give: the last one counts, and each must be a number. -/
def lengthOf (found : Option Nat) : List (List Char) → Except FrameError (Option Nat)
  | [] => .ok found
  | line :: rest =>
    match lengthValue? line with
    | none => lengthOf found rest
    | some value =>
      match readNatural bound64 value with
      | none => .error (.invalidLength (String.ofList value))
      | some n => lengthOf (some n) rest

/-- The length of the body that a header announces. -/
def contentLength (header : Bytes) : Except FrameError Nat :=
  match lengthOf none (headerLines (Utf8.lossy header)) with
  | .error e => .error e
  | .ok none => .error .missingLength
  | .ok (some n) => if maxLength < n then .error (.tooLarge n) else .ok n

end Frame

/-- What a decoder holds between two pieces of output. Bytes that only wait are held with the last
one first and beside their number, so that a piece costs no more than its own length. -/
inductive Framer where
  /-- Looks for the end of a header: the bytes that were searched for it, and those that follow. -/
  | seeking (searched : Bytes) (count : Nat) (fresh : Bytes)
  /-- Collects a body of a length: the bytes that have arrived. -/
  | collecting (length : Nat) (arrived : Bytes) (count : Nat)
  deriving Repr, DecidableEq

namespace Framer

/-- What the decoder makes of one frame. -/
abbrev Result := Except FrameError Json

/-- A decoder at the start of a stream. -/
def empty : Framer := .seeking [] 0 []

instance : Inhabited Framer := ⟨empty⟩

/-- The bytes not yet used. -/
def buffer : Framer → Bytes
  | seeking searched _ fresh => searched.reverseAux fresh
  | collecting _ arrived _ => arrived.reverse

/-- How many bytes are not yet used. -/
def size : Framer → Nat
  | seeking _ count fresh => count + fresh.length
  | collecting _ _ count => count

/-- The length of the body whose header was read. -/
def awaited : Framer → Option Nat
  | seeking _ _ _ => none
  | collecting length _ _ => some length

/-- How many bytes of the buffer were searched for a terminator. -/
def scanned : Framer → Nat
  | seeking _ count _ => count
  | collecting _ _ _ => 0

/-- The decoder with more output behind what it holds. -/
def push : Framer → Bytes → Framer
  | seeking searched count fresh, bytes => seeking searched count (fresh ++ bytes)
  | collecting length arrived count, bytes =>
    collecting length (bytes.reverseAux arrived) (count + bytes.length)

/-- How much of a buffer without terminator is dropped: all up to the last line break, if that may
still start a header, else all but the last three bytes. -/
def noiseLength (buffer : Bytes) : Nat :=
  match Frame.lastLineBreak buffer with
  | some i =>
    if 0 < i && buffer.length - i ≤ Frame.maxHeader then i else buffer.length - 3
  | none => buffer.length - 3

/-- The step of a decoder that has searched all its bytes in vain. -/
def dropNoise (searched : Bytes) (count : Nat) : Option Result × Framer :=
  if count ≤ Frame.maxHeader then (none, seeking searched count [])
  else
    let dropped := noiseLength searched.reverse
    let kept := count - dropped
    (some (.error (.noHeader dropped)), seeking (searched.take kept) kept [])

/-- The step of a decoder whose buffer starts with a body of `n` bytes, as far as it is there. -/
def takeBody (buffer : Bytes) (n : Nat) : Option Result × Framer :=
  let body := buffer.take n
  let count := body.length
  if count < n then (none, collecting n buffer.reverse count)
  else
    let result := match Json.ofBytes? body with
      | some v => .ok v
      | none => .error .malformedBody
    (some result, seeking [] 0 (buffer.drop n))

/-- The next result, if the buffer holds one, and the decoder after it. The last three bytes that
were searched may begin a terminator. -/
def next : Framer → Option Result × Framer
  | collecting n arrived count =>
    if count < n then (none, collecting n arrived count) else takeBody arrived.reverse n
  | seeking searched count fresh =>
    let overlap := (searched.take 3).reverse
    match Frame.findTerminator (overlap ++ fresh) with
    | none => dropNoise (fresh.reverseAux searched) (count + fresh.length)
    | some i =>
      let header := (searched.reverseAux fresh).take (count - overlap.length + i)
      let rest := fresh.drop (i + 4 - overlap.length)
      match Frame.contentLength header with
      | .error e => (some (.error e), seeking [] 0 rest)
      | .ok n => takeBody rest n

/-- The next results, at most `limit` of them. -/
def take : Nat → Framer → List Result × Framer
  | 0, f => ([], f)
  | limit + 1, f =>
    match f.next with
    | (none, f) => ([], f)
    | (some r, f) =>
      let (rs, f) := take limit f
      (r :: rs, f)

/-- Every result that the buffer holds; each uses up at least one of its bytes. -/
def drain (f : Framer) : List Result × Framer := take (f.size + 1) f

/-- Takes a piece of output and gives every result that is complete with it. -/
def feed (f : Framer) (bytes : Bytes) : List Result × Framer := (f.push bytes).drain

end Framer

end LanguageClient
