import LanguageClient.Proofs.Settings.Reading
import LanguageClient.Server.Catalog

/-!
# Whose setting counts

What the table of the project's file laid over that of the user's comes to: under `lsp` and under
`servers` stands what the two tables give there together, and it is read with the project's settings
before the user's and these before the defaults, and with the project's servers before the user's
and these before the built-in ones (`Configuration.ofTable_mergeTables`).
-/

namespace LanguageClient

open Layout (Given)

namespace Configuration

variable {user project : Json} {overlay : List (String × Json)} {key : String}

/-! ## Look-ups in a merged table -/

/-- Of fields laid over others the last ones count. -/
theorem get?_extend (base overlay : List (String × Json)) (key : String) :
    (Json.obj (extend base overlay)).get? key =
      ((overlay.reverse.find? (·.1 = key)).map (·.2)).or ((Json.obj base).get? key) := by
  rw [Json.get?, extend, Json.find?_foldl_insertField, Json.get?]
  cases overlay.reverse.find? (·.1 = key) <;> rfl

/-- Of a table's fields laid over others each counts. -/
theorem get?_extend_of_sorted (h : overlay.Pairwise fun f g => f.1 < g.1)
    (base : List (String × Json)) (key : String) :
    (Json.obj (extend base overlay)).get? key =
      ((Json.obj overlay).get? key).or ((Json.obj base).get? key) := by
  rw [get?_extend, Json.find?_reverse_of_sorted h]
  rfl

theorem find?_field (k : String) (value : Option Json) :
    (value.map fun v => (k, v)).toList.reverse.find? (·.1 = key) =
      if k = key then value.map fun v => (k, v) else none := by
  cases value <;> by_cases h : k = key <;> simp [h]

/-- The fields that are neither settings nor servers are looked up under other keys alone. -/
theorem find?_others (overlay : List (String × Json)) (key : String) :
    (overlay.filter fun f => f.1 ≠ "lsp" && f.1 ≠ "servers").reverse.find? (·.1 = key) =
      if key = "lsp" ∨ key = "servers" then none else overlay.reverse.find? (·.1 = key) := by
  rw [← List.filter_reverse, List.find?_filter]
  split
  · next hkey =>
    refine List.find?_eq_none.2 fun f _ => ?_
    rcases hkey with rfl | rfl <;> simp +contextual
  · next hkey =>
    rw [not_or] at hkey
    congr 1
    funext f
    by_cases h : f.1 = key <;> simp [h, hkey]

/-- **What two tables give together under a key**: their settings and their servers are merged, and
under other keys the table that is laid over counts. -/
theorem get?_mergeFields (h : overlay.Pairwise fun f g => f.1 < g.1)
    (base : List (String × Json)) (key : String) :
    (Json.obj (mergeFields base overlay)).get? key =
      if key = "lsp" then
        mergeSettings ((Json.obj base).get? key) ((Json.obj overlay).get? key)
      else if key = "servers" then
        mergeServers ((Json.obj base).get? key) ((Json.obj overlay).get? key)
      else ((Json.obj overlay).get? key).or ((Json.obj base).get? key) := by
  rw [mergeFields, get?_extend, List.reverse_append, List.reverse_append, List.find?_append,
    List.find?_append, find?_field, find?_field, find?_others]
  by_cases hlsp : key = "lsp"
  · subst hlsp
    simp only [String.reduceEq, or_false, Option.or_none, Option.none_or, ↓reduceIte,
      Option.map_map, Function.comp_def, Option.map_id_fun', id_eq, mergeSettings]
    -- without settings of the project's those of the user's are put in their own place
    split
    · exact Option.or_self
    · rfl
  · by_cases hservers : key = "servers"
    · subst hservers
      simp only [String.reduceEq, or_true, Option.or_self, Option.or_none, ↓reduceIte,
        Option.map_map, Function.comp_def, Option.map_id_fun', id_eq, mergeServers]
      split
      · exact Option.or_self
      · rfl
    · rw [if_neg (Ne.symm hservers), if_neg (Ne.symm hlsp), if_neg (not_or.2 ⟨hlsp, hservers⟩),
        if_neg hlsp, if_neg hservers, Json.find?_reverse_of_sorted h]
      rfl

/-- **A setting is the project's before it is the user's.** -/
theorem setting?_mergeTables (huser : user.IsTable) (hproject : project.IsTable)
    (huserSettings : ∀ v, user.get? "lsp" = some v → v.IsTable)
    (hprojectSettings : ∀ v, project.get? "lsp" = some v → v.IsTable) (key : String) :
    setting? (mergeTables user project) key = (setting? project key).or (setting? user key) := by
  obtain ⟨base, rfl, -⟩ := huser.exists_fields
  obtain ⟨overlay, rfl, hoverlay⟩ := hproject.exists_fields
  rw [mergeTables, setting?, get?_mergeFields hoverlay, if_pos rfl, setting?, setting?]
  generalize (Json.obj base).get? "lsp" = below at huserSettings
  generalize (Json.obj overlay).get? "lsp" = above at hprojectSettings
  cases above with
  | none => rfl
  | some v =>
    obtain ⟨fields, rfl, hsorted⟩ := (hprojectSettings v rfl).exists_fields
    cases below with
    | none => exact get?_extend_of_sorted hsorted [] key
    | some w =>
      obtain ⟨fields', rfl, -⟩ := (huserSettings w rfl).exists_fields
      exact get?_extend_of_sorted hsorted fields' key

theorem isObject_mergeTables (huser : user.IsTable) (hproject : project.IsTable) :
    (mergeTables user project).isObject = true := by
  obtain ⟨base, rfl, -⟩ := huser.exists_fields
  obtain ⟨overlay, rfl, -⟩ := hproject.exists_fields
  rfl

/-- The settings of a merged table stand in a table. -/
theorem isObject_of_get?_mergeTables (huser : user.IsTable) (hproject : project.IsTable)
    (huserSettings : ∀ v, user.get? "lsp" = some v → v.IsTable) (v : Json)
    (hv : (mergeTables user project).get? "lsp" = some v) : v.isObject = true := by
  obtain ⟨base, rfl, -⟩ := huser.exists_fields
  obtain ⟨overlay, rfl, hoverlay⟩ := hproject.exists_fields
  rw [mergeTables, get?_mergeFields hoverlay, if_pos rfl, mergeSettings] at hv
  split at hv
  · exact (huserSettings v hv).isObject
  · cases hv
    rfl

/-! ## What a merged table is read as -/

/-- **Servers are the project's and behind them the user's.** -/
theorem given_servers_mergeTables {ofUser ofProject : List ServerConfig} (huser : user.IsTable)
    (hproject : project.IsTable)
    (hofUser : Given (Decoder.list ServerConfig.decoder) (some []) (user.get? "servers") ofUser)
    (hofProject :
      Given (Decoder.list ServerConfig.decoder) (some []) (project.get? "servers") ofProject) :
    Given (Decoder.list ServerConfig.decoder) (some [])
      ((mergeTables user project).get? "servers") (ofProject ++ ofUser) := by
  obtain ⟨base, rfl, -⟩ := huser.exists_fields
  obtain ⟨overlay, rfl, hoverlay⟩ := hproject.exists_fields
  rw [mergeTables, get?_mergeFields hoverlay, if_neg (by decide), if_pos rfl]
  rcases hofProject with ⟨v, hv, hread⟩ | ⟨hnone, hempty⟩
  · rw [hv]
    cases v with
    | arr items =>
      rcases hofUser with ⟨w, hw, hread'⟩ | ⟨hnone', hempty'⟩
      · rw [hw]
        cases w with
        | arr items' => exact .inl ⟨_, rfl, mapM_append_eq_ok hread hread'⟩
        | _ => cases hread'
      · rw [hnone', ← Option.some.inj hempty', List.append_nil]
        refine .inl ⟨.arr (items ++ []), rfl, ?_⟩
        rwa [List.append_nil]
    | _ => cases hread
  · rw [hnone, ← Option.some.inj hempty, List.nil_append]
    exact hofUser

/-- The server of a language is the first that lists it, of those configured and then of the
built-in ones that have another identity than all of them. -/
theorem forLanguage_ofConfigured (configured : List ServerConfig) (language : String) :
    (Catalog.ofConfigured configured).forLanguage language =
      (configured.find? (language ∈ ·.fileTypes)).or
        ((ServerConfig.defaults.filter fun d =>
          ∀ s ∈ configured, s.identity ≠ d.identity).find? (language ∈ ·.fileTypes)) := by
  have hlists : (fun s : ServerConfig => !s.fileTypes.isEmpty && s.handles language) =
      (decide <| language ∈ ·.fileTypes) := by
    funext s
    cases htypes : s.fileTypes with
    | nil => simp
    | cons l more => simp [ServerConfig.handles, htypes]
  have hfree : (fun d : ServerConfig => !configured.any fun s => s.identity = d.identity) =
      fun d => decide (∀ s ∈ configured, s.identity ≠ d.identity) := by
    funext d
    rw [Bool.eq_iff_iff]
    simp
  rw [Catalog.forLanguage, Catalog.ofConfigured, hlists, hfree, List.find?_append]

/-- **The project's file counts before the user's, and this before what holds by default.** Two
tables that are configurations by themselves make one configuration. Each setting in it is the
project's if that has it, else the user's if that has it, else the default; its servers are the
project's and behind them the user's; and the server of a language is the first that lists it of
these and of the built-in servers that have another identity than all of them. -/
theorem ofTable_mergeTables {ofUser ofProject : Configuration} (huser : user.IsTable)
    (hproject : project.IsTable) (huserSettings : ∀ v, user.get? "lsp" = some v → v.IsTable)
    (hprojectSettings : ∀ v, project.get? "lsp" = some v → v.IsTable)
    (hofUser : ofTable user = .ok ofUser) (hofProject : ofTable project = .ok ofProject) :
    ∃ merged, ofTable (mergeTables user project) = .ok merged ∧
      (merged.settings.fields = Settings.default.fields.map fun f =>
        (f.1, ((setting? project f.1).or (setting? user f.1)).getD f.2)) ∧
      merged.servers = ofProject.servers ++ ofUser.servers ∧
      ∀ language, (Catalog.ofConfigured merged.servers).forLanguage language =
        (ofProject.servers.find? (language ∈ ·.fileTypes)).or
          ((ofUser.servers.find? (language ∈ ·.fileTypes)).or
            ((ServerConfig.defaults.filter fun d =>
              ∀ s ∈ ofProject.servers ++ ofUser.servers, s.identity ≠ d.identity).find?
                (language ∈ ·.fileTypes))) := by
  obtain ⟨hsettings, hservers⟩ := (ofTable_eq_ok_iff huser.isObject).1 hofUser
  obtain ⟨hsettings', hservers'⟩ := (ofTable_eq_ok_iff hproject.isObject).1 hofProject
  have hobject := isObject_of_get?_mergeTables huser hproject huserSettings
  have hkeys : setting? (mergeTables user project) = fun key =>
      (setting? project key).or (setting? user key) :=
    funext (setting?_mergeTables huser hproject huserSettings hprojectSettings)
  have hsound : Settings.Sound (setting? (mergeTables user project)) := by
    rw [hkeys]
    refine (Settings.sound_or_iff ?_).2 ?_
    · exact (exists_given_settings_iff fun w hw => (huserSettings w hw).isObject).1 ⟨_, hsettings⟩
    · exact (exists_given_settings_iff fun w hw => (hprojectSettings w hw).isObject).1
        ⟨_, hsettings'⟩
  obtain ⟨settings, hmerged⟩ := (exists_given_settings_iff hobject).2 hsound
  refine ⟨⟨settings, ofProject.servers ++ ofUser.servers⟩,
    (ofTable_eq_ok_iff (isObject_mergeTables huser hproject)).2
      ⟨hmerged, given_servers_mergeTables huser hproject hservers hservers'⟩, ?_, rfl, ?_⟩
  · have hfields := ((given_settings_iff hobject).1 hmerged).2
    rwa [hkeys] at hfields
  · intro language
    rw [forLanguage_ofConfigured, List.find?_append, Option.or_assoc]

end Configuration

namespace Sample

/-- A server that is configured for one language. -/
def serverFor (name command language : String) : ServerConfig :=
  ⟨name, command, [], [language], false, none, none⟩

/-- A table with an indentation, a time to exit and a server for Python. -/
def userTable : Json :=
  .obj [("lsp", .obj [("shutdown_grace_ms", .int 100), ("tab_size", .int 8)]),
    ("servers", .arr [(serverFor "pyright" "pylsp" "python").toJson])]

/-- A table with another indentation and a server for C. -/
def projectTable : Json :=
  .obj [("lsp", .obj [("tab_size", .int 2)]), ("servers", .arr [(serverFor "" "ccls" "c").toJson])]

end Sample

namespace Configuration

/-- The project's indentation, the user's time to exit and the default time to wait hold together.
Python has the user's server, which hides the built-in one, and Rust a built-in one. -/
theorem ofTable_mergeTables_sample :
    ∃ merged, ofTable (mergeTables Sample.userTable Sample.projectTable) = .ok merged ∧
      merged.settings = ⟨30, 5, 100, 262144, 2, true⟩ ∧
      merged.servers =
        [Sample.serverFor "" "ccls" "c", Sample.serverFor "pyright" "pylsp" "python"] ∧
      ["c", "python", "rust"].map (fun language =>
        ((Catalog.ofConfigured merged.servers).forLanguage language).map ServerConfig.command) =
          [some "ccls", some "pylsp", some "rust-analyzer"] := by
  have huser : ofTable Sample.userTable = .ok
      ⟨⟨30, 5, 100, 262144, 8, true⟩, [Sample.serverFor "pyright" "pylsp" "python"]⟩ := rfl
  have hproject : ofTable Sample.projectTable = .ok
      ⟨⟨30, 5, 2000, 262144, 2, true⟩, [Sample.serverFor "" "ccls" "c"]⟩ := rfl
  have huserSettings : ∀ v, Sample.userTable.get? "lsp" = some v → v.IsTable := by
    rintro v hv
    obtain rfl := Option.some.inj hv
    decide
  have hprojectSettings : ∀ v, Sample.projectTable.get? "lsp" = some v → v.IsTable := by
    rintro v hv
    obtain rfl := Option.some.inj hv
    decide
  obtain ⟨merged, hmerged, hfields, hservers, hlanguage⟩ := ofTable_mergeTables (by decide)
    (by decide) huserSettings hprojectSettings huser hproject
  refine ⟨merged, hmerged, Settings.fields_injective hfields, hservers, ?_⟩
  simp only [List.map_cons, List.map_nil, hlanguage]
  rfl

end Configuration
end LanguageClient
