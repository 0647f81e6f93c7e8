import LanguageClient.Path.Basic
import LanguageClient.System.Access
import LanguageClient.Text.Utf8

/-!
# Access to files

The few things that are done with files, for any way `m` of doing them: with the files of the system
the program runs on, or with a file tree in memory.
-/

namespace LanguageClient

/-- A way to use files. Relative paths are seen from the working folder. -/
class FileAccess (m : Type → Type) where
  /-- The path to the same place that has no `.`, no `..` and no links. -/
  canonical : Path → m (Except AccessFault Path)
  /-- Whether there is anything at a path. -/
  isPresent : Path → m Bool
  isFile : Path → m Bool
  read : Path → m (Except AccessFault Bytes)
  write : Path → Bytes → m (Except AccessFault Unit)
  /-- Makes a folder, and those around it that are missing. -/
  makeFolders : Path → m (Except AccessFault Unit)
  /-- Whether a program of this name is on the search path. -/
  findsProgram : String → m Bool

namespace FileAccess

variable {m : Type → Type} [Monad m] [FileAccess m]

/-- The text that bytes spell. -/
def textOf (bytes : Bytes) : Except AccessFault String :=
  match Utf8.decode? bytes with
  | some cs => .ok (String.ofList cs)
  | none => .error .malformedText

/-- Reads a file of text. -/
def readText (path : Path) : m (Except AccessFault String) := do
  return (← read path).bind textOf

/-- Replaces the contents of a file by a text. -/
def writeText (path : Path) (text : String) : m (Except AccessFault Unit) :=
  write path (Utf8.ofString text)

end FileAccess

end LanguageClient
