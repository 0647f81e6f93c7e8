import LanguageClient.Server.Catalog
import LanguageClient.Session.Basic
import LanguageClient.Text.Blank

/-!
# Choosing a server

A server asked for by the user is looked up by name or program, and is else a program with
arguments; without one the file's language decides.
-/

namespace LanguageClient

/-- Why no server can be chosen. -/
inductive TargetError where
  | empty
  | unknownLanguage (file : String)
  deriving DecidableEq, Repr, Inhabited

/-- The words for why no server can be chosen. -/
def TargetError.message : TargetError → String
  | empty => "--server cannot be empty"
  | unknownLanguage file => s!"Cannot infer a language for {file}. Use --server to pick one."

/-- The server for a file. -/
def StartTarget.choose (catalog : Catalog) (server : Option String) (file : Path) :
    Except TargetError StartTarget :=
  match server with
  | some server =>
    match catalog.find server with
    | some config => .ok (.command (some config.identity) config.command config.args)
    | none =>
      match words server with
      | [] => .error .empty
      | program :: args => .ok (.command none program args)
  | none =>
    match file.language with
    | some language => .ok (.fileType language)
    | none => .error (.unknownLanguage file.text)

end LanguageClient
