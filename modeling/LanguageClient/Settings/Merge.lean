import LanguageClient.Settings.Basic
import LanguageClient.Toml.Parser

/-!
# Merging configuration tables

The table of the project's file is laid over that of the user's. Settings are merged key by key,
servers of the project come before those of the user, and all else is taken from the project where
it says anything. Settings that are no table and servers that are no array have no say in the
project's file.
-/

namespace LanguageClient

namespace Configuration

/-- The fields of a table. -/
def tableFields : Json → Option (List (String × Json))
  | .obj fields => some fields
  | _ => none

/-- Lays fields over others; those of equal key are replaced. -/
def extend (base overlay : List (String × Json)) : List (String × Json) :=
  overlay.foldl (fun acc f => Json.insertField f.1 f.2 acc) base

/-- The settings of two tables. -/
def mergeSettings (base overlay : Option Json) : Option Json :=
  match overlay.bind tableFields with
  | none => base
  | some fields => some (.obj (extend ((base.bind tableFields).getD []) fields))

/-- The servers of two tables. -/
def mergeServers (base overlay : Option Json) : Option Json :=
  match overlay.bind Json.items? with
  | none => base
  | some items => some (.arr (items ++ (base.bind Json.items?).getD []))

/-- The fields of the user's table with those of the project's laid over them. -/
def mergeFields (base overlay : List (String × Json)) : List (String × Json) :=
  let lsp := mergeSettings ((Json.obj base).get? "lsp") ((Json.obj overlay).get? "lsp")
  let servers := mergeServers ((Json.obj base).get? "servers") ((Json.obj overlay).get? "servers")
  let others := overlay.filter fun f => f.1 ≠ "lsp" && f.1 ≠ "servers"
  extend base (others ++ (lsp.map fun v => ("lsp", v)).toList ++
    (servers.map fun v => ("servers", v)).toList)

/-- The user's table with the project's laid over it. -/
def mergeTables (base overlay : Json) : Json :=
  match base, overlay with
  | .obj base, .obj overlay => .obj (mergeFields base overlay)
  | base, _ => base

end Configuration

end LanguageClient
