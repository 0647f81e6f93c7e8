import LanguageClient.Server.Config

/-!
# Settings

What the configuration files can set: a few numbers that hold for the whole client, and servers
beside the built-in ones.
-/

namespace LanguageClient

/-- The settings that hold for every server. -/
structure Settings where
  /-- How long an answer is waited for, in seconds. -/
  requestTimeout : Nat
  /-- How long first diagnostics are waited for, in seconds. -/
  diagnosticsWait : Nat
  /-- How long a server has to exit before it is killed, in milliseconds. -/
  shutdownGrace : Nat
  /-- How many bytes of a server's error output are kept. -/
  logLimit : Nat
  tabSize : Nat
  insertSpaces : Bool
  deriving DecidableEq, Repr

namespace Settings

/-- What holds when nothing is set. -/
def default : Settings := ⟨30, 5, 2000, 256 * 1024, 4, true⟩

instance : Inhabited Settings := ⟨default⟩

/-- Reads settings; what is absent is as by default. -/
def decoder : Decoder Settings :=
  (Layout.start Settings.mk
    |>.also (.defaulted "request_timeout_secs" Decoder.u64 default.requestTimeout)
    |>.also (.defaulted "diagnostics_wait_secs" Decoder.u64 default.diagnosticsWait)
    |>.also (.defaulted "shutdown_grace_ms" Decoder.u64 default.shutdownGrace)
    |>.also (.defaulted "stderr_log_limit" Decoder.usize default.logLimit)
    |>.also (.defaulted "tab_size" Decoder.u32 default.tabSize)
    |>.also (.defaulted "insert_spaces" Decoder.bool default.insertSpaces)).decoder "LspSettings"

/-- The settings by key, in the order of a written file. -/
def fields (s : Settings) : List (String × Json) :=
  [("request_timeout_secs", .int s.requestTimeout),
    ("diagnostics_wait_secs", .int s.diagnosticsWait),
    ("shutdown_grace_ms", .int s.shutdownGrace),
    ("stderr_log_limit", .int s.logLimit),
    ("tab_size", .int s.tabSize),
    ("insert_spaces", .bool s.insertSpaces)]

end Settings

/-- What configuration files say. -/
structure Configuration where
  settings : Settings
  servers : List ServerConfig
  deriving Repr, Inhabited

namespace Configuration

/-- What holds without configuration files. -/
def default : Configuration := ⟨.default, []⟩

/-- Reads a configuration. -/
def decoder : Decoder Configuration :=
  (Layout.start Configuration.mk
    |>.also (.defaulted "lsp" Settings.decoder .default)
    |>.also (.defaulted "servers" (Decoder.list ServerConfig.decoder) [])).decoder "LspcConfig"

def toJson (c : Configuration) : Json :=
  Json.object ([("lsp", Json.object c.settings.fields)] ++
    if c.servers.isEmpty then [] else [("servers", .arr (c.servers.map ServerConfig.toJson))])

end Configuration

end LanguageClient
