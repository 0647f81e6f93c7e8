import LanguageClient.Text.Measure
import LanguageClient.Text.Utf8

/-!
# Server logs

What a server wrote to its error output, bounded: when it grows past the limit the oldest output
goes first, in whole characters.
-/

namespace LanguageClient

/-- Unique for each launch of a server, so that late output of an old one reaches no new one. The
numbers have no bound here; a counter of 64 bits agrees with them until it overflows. -/
abbrev ConnectionId := Nat

/-- How a connection is named in texts. -/
def ConnectionId.display (id : ConnectionId) : String := s!"#{id}"

/-- The captured output of one connection. -/
structure ServerLog where
  connection : ConnectionId
  limit : Nat
  text : List Char
  deriving DecidableEq, Repr, Inhabited

namespace ServerLog

/-- A log without output. -/
def new (connection : ConnectionId) (limit : Nat) : ServerLog := ⟨connection, limit, []⟩

/-- Adds output; malformed bytes show as replacement characters. -/
def append (log : ServerLog) (bytes : Bytes) : ServerLog :=
  let text := log.text ++ Utf8.lossy bytes
  { log with text := Text.dropAtLeast (Text.byteLength text - log.limit) text }

end ServerLog

end LanguageClient
