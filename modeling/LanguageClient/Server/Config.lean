import LanguageClient.Json.Decode

/-!
# Server configurations

How one language server is launched and which languages it handles. A server is known by its name,
or by its program when it has none.
-/

namespace LanguageClient

/-- How to launch one language server. -/
structure ServerConfig where
  name : String
  command : String
  args : List String
  /-- The languages handled; none means every document. -/
  fileTypes : List String
  /-- Whether completions need filtering by what is typed. -/
  filtersCompletions : Bool
  settings : Option Json
  initializationOptions : Option Json
  deriving Repr, Inhabited

namespace ServerConfig

/-- The configuration of a program that nothing else is known of. -/
def bare (command : String) (args : List String) : ServerConfig :=
  ⟨"", command, args, [], false, none, none⟩

/-- What the server's connection is known by. -/
def identity (c : ServerConfig) : String := if c.name = "" then c.command else c.name

/-- Whether the server handles documents of a language. -/
def handles (c : ServerConfig) (language : String) : Bool :=
  c.fileTypes.isEmpty || c.fileTypes.contains language

/-- Reads a configuration. -/
def decoder : Decoder ServerConfig :=
  (Layout.start ServerConfig.mk
    |>.also (.defaulted "name" Decoder.string "")
    |>.also (.required "command" Decoder.string)
    |>.also (.defaulted "args" (Decoder.list Decoder.string) [])
    |>.also (.defaulted "file_types" (Decoder.list Decoder.string) [])
    |>.also (.defaulted "completion_quirks" Decoder.bool false)
    |>.also (.defaulted "settings" (Decoder.optional Decoder.any) none)
    |>.also (.defaulted "initialization_options" (Decoder.optional Decoder.any) none)).decoder
      "ServerConfig"

def toJson (c : ServerConfig) : Json :=
  Json.object ([("name", .str c.name), ("command", .str c.command), ("args", Json.strings c.args),
      ("file_types", Json.strings c.fileTypes), ("completion_quirks", .bool c.filtersCompletions)]
    ++ (c.settings.map fun v => ("settings", v)).toList
    ++ (c.initializationOptions.map fun v => ("initialization_options", v)).toList)

end ServerConfig

end LanguageClient
