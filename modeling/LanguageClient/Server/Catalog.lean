import LanguageClient.Path.Basic
import LanguageClient.Server.Config
import LanguageClient.Text.Numeral

/-!
# The catalog of servers

Which servers are known, in order of precedence: those configured, then every built-in one whose
identity none of them takes. A document's language is told by its extension.
-/

namespace LanguageClient

/-- The language of each extension. -/
def languageOfExtension (extension : String) : Option String :=
  if extension ∈ ["rs"] then some "rust"
  else if extension ∈ ["c", "h"] then some "c"
  else if extension ∈ ["cpp", "cc", "cxx", "hpp", "hxx"] then some "cpp"
  else if extension ∈ ["zig"] then some "zig"
  else if extension ∈ ["go"] then some "go"
  else if extension ∈ ["ts", "mts", "cts"] then some "typescript"
  else if extension ∈ ["tsx"] then some "typescriptreact"
  else if extension ∈ ["js", "mjs", "cjs"] then some "javascript"
  else if extension ∈ ["jsx"] then some "javascriptreact"
  else if extension ∈ ["py", "pyi"] then some "python"
  else if extension ∈ ["lua"] then some "lua"
  else if extension ∈ ["rb"] then some "ruby"
  else if extension ∈ ["php"] then some "php"
  else if extension ∈ ["sh", "bash"] then some "shellscript"
  else none

/-- The language of a document. Case does not count; beyond ASCII no letter's small form spells an
extension of the list. -/
def Path.language (p : Path) : Option String :=
  p.extension.bind fun e => languageOfExtension (lowercased e)

namespace ServerConfig

/-- Whether a server takes the document at a path; one of no known language is for servers that
take every document. -/
def serves (c : ServerConfig) (p : Path) : Bool :=
  match p.language with
  | some language => c.handles language
  | none => c.fileTypes.isEmpty

/-- A built-in configuration. -/
def builtIn (name command : String) (args fileTypes : List String) : ServerConfig :=
  ⟨name, command, args, fileTypes, false, none, none⟩

/-- The servers known without configuration. -/
def defaults : List ServerConfig :=
  [builtIn "rust-analyzer" "rust-analyzer" [] ["rust"],
    builtIn "clangd" "clangd" ["--background-index"] ["c", "cpp"],
    builtIn "gopls" "gopls" [] ["go"],
    builtIn "zls" "zls" [] ["zig"],
    builtIn "pyright" "pyright-langserver" ["--stdio"] ["python"],
    builtIn "typescript-language-server" "typescript-language-server" ["--stdio"]
      ["typescript", "typescriptreact", "javascript", "javascriptreact"],
    builtIn "lua-language-server" "lua-language-server" [] ["lua"]]

end ServerConfig

/-- The known servers in order of precedence. -/
structure Catalog where
  servers : List ServerConfig
  deriving Repr, Inhabited

namespace Catalog

/-- The catalog of the configured servers and the built-in ones that they do not shadow. -/
def ofConfigured (configured : List ServerConfig) : Catalog :=
  ⟨configured ++ ServerConfig.defaults.filter fun d =>
    !configured.any fun s => s.identity = d.identity⟩

/-- The first server that lists a language. -/
def forLanguage (c : Catalog) (language : String) : Option ServerConfig :=
  c.servers.find? fun s => !s.fileTypes.isEmpty && s.handles language

/-- The first server of an identity, else the first with that program. -/
def find (c : Catalog) (key : String) : Option ServerConfig :=
  match c.servers.find? fun s => s.identity = key with
  | some s => some s
  | none => c.servers.find? fun s => s.command = key

/-- The configuration for a program given by hand: what is known of the program, under the given
name and with the given arguments. -/
def forCommand (c : Catalog) (name : Option String) (command : String) (args : List String) :
    ServerConfig :=
  let known := (c.find command).getD (.bare command [])
  { known with command := command, args := args, name := name.getD known.name }

end Catalog

end LanguageClient
