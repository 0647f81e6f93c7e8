import LanguageClient.System.Access

/-!
# Faults of configuration

Why no configuration could be had from the configuration files and the environment.
-/

namespace LanguageClient

/-- Why a configuration cannot be used. -/
inductive ConfigurationError where
  /-- A file is no TOML, or says something of the wrong type. -/
  | parse (reason : String)
  | notFound (reason : String)
  | invalidValue (key reason : String)
  | access (fault : AccessFault)
  deriving DecidableEq, Repr, Inhabited

/-- The words for a configuration that cannot be used. -/
def ConfigurationError.message : ConfigurationError → String
  | parse reason => s!"Config parse error: {reason}"
  | notFound reason => reason
  | invalidValue key reason => s!"Invalid value for '{key}': {reason}"
  | access fault => fault.message

end LanguageClient
