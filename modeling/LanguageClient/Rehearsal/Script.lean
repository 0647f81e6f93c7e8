import LanguageClient.Json.Printer
import LanguageClient.Text.Numeral
import LanguageClient.Text.Utf8

/-!
# Scripted servers

A scripted server counts the messages it reads and follows a script: after each message it writes
what the script says, to its error output first, and may then hang or exit. Without an exit in the
script it ends when it is told to, or at the end of its input.
-/

namespace LanguageClient

/-- What a scripted server does after a message. -/
structure Cue where
  stderr : Option Bytes
  stdout : Option Bytes
  hangs : Bool
  exitCode : Option Nat
  deriving DecidableEq, Repr, Inhabited

/-- What a scripted server does after each message, counted from one. -/
abbrev Script := Nat → Cue

/-- How a scripted server goes on. -/
inductive Course where
  | reading
  /-- Does nothing any more and exits at a moment. -/
  | hanging (moment : Nat)
  | ended
  deriving DecidableEq, Repr, Inhabited

/-- A running scripted server. -/
structure ScriptedServer where
  course : Course
  /-- How many messages it has read. -/
  count : Nat
  deriving DecidableEq, Repr, Inhabited

namespace Script

/-- How long a server hangs, in milliseconds. -/
def hangTime : Nat := 8000

/-- The code that the text of an exit means: its last eight bits, and 2 for what is no number. -/
def exitCodeOf (bytes : Bytes) : Nat :=
  let digits := (Utf8.lossy bytes).reverse.dropWhile (· = '\n') |>.reverse
  if digits.isEmpty || !digits.all Char.isDigit then 2 else digitsValue digits % 256

/-- The script by which a server says nothing. -/
def silent : Script := fun _ => ⟨none, none, false, none⟩

/-- The script that files hold: after message `n` a server writes out `en` and `on`, hangs if there
is `hn`, and exits with the code in `xn`. -/
def ofFiles (file : String → Option Bytes) : Script := fun n =>
  ⟨file s!"e{n}", file s!"o{n}", (file s!"h{n}").isSome, (file s!"x{n}").map exitCodeOf⟩

/-- Whether one text stands in another. -/
def occursIn (needle : List Char) : List Char → Bool
  | [] => needle.isEmpty
  | c :: rest => needle.isPrefixOf (c :: rest) || occursIn needle rest

/-- Whether a message tells a server to end. -/
def isFarewell (message : Json) : Bool :=
  occursIn "\"method\":\"exit\"".toList message.chars

end Script

end LanguageClient
