import LanguageClient.Command.Location
import LanguageClient.System.FileAccess

/-!
# Finding files

The files that a command names, as seen from the project's root. They have to be there.
-/

namespace LanguageClient

variable {m : Type → Type} [Monad m] [FileAccess m]

/-- The file that is meant by a path below `root`. -/
def resolveFile (root file : Path) : ExceptT LocationError m Path := do
  match ← FileAccess.canonical (m := m) (root.join file) with
  | .ok path => return path
  | .error fault => throw (.noFile file.text fault)

/-- The place with its file found. -/
def FileLocation.resolve (root : Path) (l : FileLocation) :
    ExceptT LocationError m FileLocation := do
  return { l with file := ← resolveFile root l.file }

/-- The place that a user names, with its file found. -/
def FileLocation.find (root : Path) (text : String) : ExceptT LocationError m FileLocation := do
  (← ExceptT.mk (pure (FileLocation.read text))).resolve root

end LanguageClient
