import LanguageClient.Proofs.Settings.Precedence
import LanguageClient.Rehearsal.World

/-!
# Mistakes in the project's file

A mistake that the project's file makes within its settings, or within one of its servers, is
reported: it is still there when the project's table is laid over the user's. That the settings are
no table or the servers no array is not reported (`Configuration.mergeTables_refused_iff`): these are
left out before anything is read.
-/

namespace LanguageClient

namespace Configuration

variable {user project : Json} {below above : Option Json} {fields : List (String × Json)}

/-- Whether a field of the project's table is laid over the user's: settings have to be a table for
that and servers an array. -/
def isHeeded (f : String × Json) : Bool :=
  (f.1 ≠ "lsp" || f.2.isObject) && (f.1 ≠ "servers" || f.2.items?.isSome)

/-- What of the project's table is laid over the user's. -/
def heeded : Json → Json
  | .obj fields => .obj (fields.filter isHeeded)
  | v => v

/-! ## What is heeded -/

theorem get?_heeded (h : project.IsTable) (key : String) :
    (heeded project).get? key = (project.get? key).filter fun v => isHeeded (key, v) := by
  obtain ⟨fields, rfl, hsorted⟩ := h.exists_fields
  rw [heeded, Json.get?, Json.find?_filter_of_sorted hsorted, Json.get?]
  cases hfind : fields.find? (·.1 = key) with
  | none => rfl
  | some f =>
    obtain rfl : f.1 = key := by simpa using List.find?_some hfind
    cases hkeep : isHeeded f <;> simp [Option.filter, hkeep]

theorem isObject_heeded (h : project.IsTable) : (heeded project).isObject = true := by
  obtain ⟨fields, rfl, -⟩ := h.exists_fields
  rfl

/-- A table is heeded as a whole when each of its sections has its shape. -/
theorem heeded_eq_self_iff (h : project.IsTable) :
    heeded project = project ↔
      (∀ v, project.get? "lsp" = some v → v.isObject = true) ∧
        ∀ v, project.get? "servers" = some v → v.items?.isSome = true := by
  obtain ⟨fields, rfl, hsorted⟩ := h.exists_fields
  have hget : ∀ key v, (Json.obj fields).get? key = some v ↔ (key, v) ∈ fields := by
    intro key v
    rw [Json.get?, Option.map_eq_some_iff]
    constructor
    · rintro ⟨⟨k, w⟩, hfind, rfl⟩
      obtain rfl : k = key := by simpa using List.find?_some hfind
      exact List.mem_of_find?_eq_some hfind
    · exact fun hmem => ⟨_, Json.find?_of_mem hsorted hmem, rfl⟩
  simp only [heeded, Json.obj.injEq, List.filter_eq_self, hget, Prod.forall, isHeeded,
    Bool.and_eq_true, Bool.or_eq_true, decide_eq_true_eq]
  constructor
  · exact fun hall =>
      ⟨fun v hv => (hall _ v hv).1.resolve_left fun hne => hne rfl,
        fun v hv => (hall _ v hv).2.resolve_left fun hne => hne rfl⟩
  · rintro ⟨hlsp, hservers⟩ key v hv
    refine ⟨?_, ?_⟩
    · by_cases hkey : key = "lsp"
      · exact .inr (hlsp v (hkey ▸ hv))
      · exact .inl hkey
    · by_cases hkey : key = "servers"
      · exact .inr (hservers v (hkey ▸ hv))
      · exact .inl hkey

theorem mergeSettings_filter :
    mergeSettings below (above.filter fun v => isHeeded ("lsp", v)) =
      mergeSettings below above := by
  rcases above with _ | v
  · rfl
  · cases v <;> rfl

theorem mergeServers_filter :
    mergeServers below (above.filter fun v => isHeeded ("servers", v)) =
      mergeServers below above := by
  rcases above with _ | v
  · rfl
  · cases v <;> rfl

/-- **What is not heeded has no say.** -/
theorem mergeTables_heeded (huser : user.IsTable) (hproject : project.IsTable) :
    mergeTables user (heeded project) = mergeTables user project := by
  have hlsp := get?_heeded hproject "lsp"
  have hservers := get?_heeded hproject "servers"
  obtain ⟨base, rfl, -⟩ := huser.exists_fields
  obtain ⟨overlay, rfl, -⟩ := hproject.exists_fields
  have hothers : ((overlay.filter isHeeded).filter fun f => f.1 ≠ "lsp" && f.1 ≠ "servers") =
      overlay.filter fun f => f.1 ≠ "lsp" && f.1 ≠ "servers" := by
    rw [List.filter_filter]
    refine List.filter_congr fun f _ => ?_
    by_cases h : f.1 = "lsp" <;> by_cases h' : f.1 = "servers" <;> simp [isHeeded, h, h']
  simp only [heeded] at hlsp hservers
  simp only [heeded, mergeTables, mergeFields, hlsp, hservers, hothers, mergeSettings_filter,
    mergeServers_filter]

/-! ## What is refused -/

/-- Over settings that can be read those of a table are refused when they are by themselves. -/
theorem takes_mergeSettings_iff (hbelow : ∀ v, below = some v → Settings.decoder.Takes v)
    (habove : ∀ v, above = some v → v.isObject = true → v.IsTable) :
    (∀ v, mergeSettings below above = some v → Settings.decoder.Takes v) ↔
      ∀ v, (above.filter fun v => isHeeded ("lsp", v)) = some v → Settings.decoder.Takes v := by
  rcases above with _ | v
  · exact ⟨fun _ _ => nofun, fun _ => hbelow⟩
  · cases v with
    | obj fields =>
      have hsorted : fields.Pairwise fun f g => f.1 < g.1 := habove _ rfl rfl
      have hlower : Settings.Sound fun key =>
          (Json.obj ((below.bind tableFields).getD [])).get? key := by
        rcases below with _ | w
        · exact Settings.sound_none
        · cases w with
          | obj base => exact Settings.takes_obj_iff.1 (hbelow _ rfl)
          | _ => exact Settings.sound_none
      have hmerged : mergeSettings below (some (.obj fields)) =
          some (.obj (extend ((below.bind tableFields).getD []) fields)) := rfl
      have hkept : ((some (Json.obj fields)).filter fun v => isHeeded ("lsp", v)) =
          some (.obj fields) := rfl
      simp only [hmerged, hkept, Option.some.injEq, forall_eq', Settings.takes_obj_iff,
        get?_extend_of_sorted hsorted]
      exact Settings.sound_or_iff hlower
    | _ => exact ⟨fun _ _ => nofun, fun _ => hbelow⟩

/-- Before servers that can be read those of an array are refused when they are by themselves. -/
theorem takes_mergeServers_iff
    (hbelow : ∀ v, below = some v → (Decoder.list ServerConfig.decoder).Takes v) :
    (∀ v, mergeServers below above = some v → (Decoder.list ServerConfig.decoder).Takes v) ↔
      ∀ v, (above.filter fun v => isHeeded ("servers", v)) = some v →
        (Decoder.list ServerConfig.decoder).Takes v := by
  rcases above with _ | v
  · exact ⟨fun _ _ => nofun, fun _ => hbelow⟩
  · cases v with
    | arr items =>
      have hlower : ∀ item ∈ (below.bind Json.items?).getD [], ServerConfig.decoder.Takes item := by
        rcases below with _ | w
        · exact fun _ => nofun
        · obtain ⟨items', rfl, hall⟩ := Decoder.takes_list_iff.1 (hbelow w rfl)
          exact hall
      have hmerged : mergeServers below (some (.arr items)) =
          some (.arr (items ++ (below.bind Json.items?).getD [])) := rfl
      have hkept : ((some (Json.arr items)).filter fun v => isHeeded ("servers", v)) =
          some (.arr items) := rfl
      simp only [hmerged, hkept, Option.some.injEq, forall_eq', Decoder.takes_list_iff,
        Json.arr.injEq, exists_eq_left', List.forall_mem_append]
      exact and_iff_left hlower
    | _ => exact ⟨fun _ _ => nofun, fun _ => hbelow⟩

/-- **Over a table that is a configuration the project's is refused for what of it is heeded.** -/
theorem exists_ofTable_mergeTables_iff {ofUser : Configuration} (huser : user.IsTable)
    (hproject : project.IsTable)
    (hsettings : ∀ v, project.get? "lsp" = some v → v.isObject = true → v.IsTable)
    (hofUser : ofTable user = .ok ofUser) :
    (∃ c, ofTable (mergeTables user project) = .ok c) ↔ ∃ c, ofTable (heeded project) = .ok c := by
  obtain ⟨hlsp, hservers⟩ := (exists_ofTable_iff huser.isObject).1 ⟨_, hofUser⟩
  rw [exists_ofTable_iff (isObject_mergeTables huser hproject),
    exists_ofTable_iff (isObject_heeded hproject), get?_heeded hproject, get?_heeded hproject,
    ← takes_mergeSettings_iff hlsp hsettings, ← takes_mergeServers_iff hservers]
  obtain ⟨base, rfl, -⟩ := huser.exists_fields
  obtain ⟨overlay, rfl, hoverlay⟩ := hproject.exists_fields
  rw [mergeTables, get?_mergeFields hoverlay, get?_mergeFields hoverlay, if_pos rfl,
    if_neg (by decide), if_pos rfl]

end Configuration

/-! ## Reading the files -/

/-- The table of a file; one that is not there has no keys. -/
def World.table (w : World) (path : Path) : Except ConfigurationError Json :=
  if w.isPresent path then
    match (w.read path).bind FileAccess.textOf with
    | .ok text => Configuration.tableOfText text
    | .error fault => .error (.access fault)
  else .ok Json.emptyObject

namespace Configuration

/-- What comes after something that succeeds and leaves the state as it is. -/
theorem run_bind_of_run_ok {α β ε σ : Type} {x : ExceptT ε (StateM σ) α} {a : α} {s : σ}
    (h : x.run.run s = (.ok a, s)) (k : α → ExceptT ε (StateM σ) β) :
    (x >>= k).run.run s = (k a).run.run s := by
  rw [ExceptT.run_bind, StateT.run_bind, h]
  rfl

variable {files : ConfigurationFiles} {timeout : Option String} {w : World}

theorem run_readTable (path : Path) (w : World) :
    (readTable path : ExceptT ConfigurationError (StateM World) Json).run.run w =
      (w.table path, w) := by
  refine (run_bind_of_run_ok (a := w.isPresent path) rfl _).trans ?_
  rw [World.table]
  cases w.isPresent path with
  | false => rfl
  | true =>
    refine (run_bind_of_run_ok (a := (w.read path).bind FileAccess.textOf) rfl _).trans ?_
    cases (w.read path).bind FileAccess.textOf <;> rfl

/-- What is loaded from two files that hold tables. No file changes. -/
theorem run_load (huser : w.table files.user = .ok user)
    (hproject : w.table files.project = .ok project) :
    (load files timeout .project : ExceptT ConfigurationError (StateM World) Configuration).run.run
        w =
      ((ofTable (mergeTables user project)).bind (·.overrideTimeout timeout), w) := by
  have huserRun := huser ▸ run_readTable files.user w
  have hprojectRun := hproject ▸ run_readTable files.project w
  refine (run_bind_of_run_ok huserRun _).trans ((run_bind_of_run_ok hprojectRun _).trans ?_)
  beta_reduce
  cases ofTable (mergeTables user project) <;> rfl

/-- Whether the environment's time to wait can be read does not depend on what was configured. -/
theorem exists_overrideTimeout_iff (timeout : Option String) (c c' : Configuration) :
    (∃ r, c.overrideTimeout timeout = .ok r) ↔ ∃ r, c'.overrideTimeout timeout = .ok r := by
  cases timeout with
  | none => simp [overrideTimeout]
  | some text =>
    simp only [overrideTimeout]
    cases readNatural bound64 (trimBlanks text.toList) <;> simp

/-- **A mistake in the project's file is reported where the file is heeded**, and only there. Over a
user's table that is a configuration, the project's is refused exactly when what of it is heeded is
no configuration by itself, which is all of it if its settings are a table and its servers an array;
what is not heeded has no say in what is read. Loading from files of these tables fails for just
that, or for a time to wait in the environment that is none. -/
theorem mergeTables_refused_iff {ofUser : Configuration} (huser : user.IsTable)
    (hproject : project.IsTable)
    (hsettings : ∀ v, project.get? "lsp" = some v → v.isObject = true → v.IsTable)
    (hofUser : ofTable user = .ok ofUser) :
    ((∃ e, ofTable (mergeTables user project) = .error e) ↔
      ∃ e, ofTable (heeded project) = .error e) ∧
    (heeded project = project ↔
      (∀ v, project.get? "lsp" = some v → v.isObject = true) ∧
        ∀ v, project.get? "servers" = some v → v.items?.isSome = true) ∧
    mergeTables user project = mergeTables user (heeded project) ∧
    ∀ (files : ConfigurationFiles) (timeout : Option String) (w : World),
      w.table files.user = .ok user → w.table files.project = .ok project →
      ((∃ e, ((load files timeout .project :
          ExceptT ConfigurationError (StateM World) Configuration).run.run w).1 = .error e) ↔
        (∃ e, ofTable (heeded project) = .error e) ∨
          ∃ e, Configuration.default.overrideTimeout timeout = .error e) := by
  have hrefused : (∃ e, ofTable (mergeTables user project) = .error e) ↔
      ∃ e, ofTable (heeded project) = .error e := by
    rw [exists_eq_error_iff, exists_eq_error_iff,
      exists_ofTable_mergeTables_iff huser hproject hsettings hofUser]
  refine ⟨hrefused, heeded_eq_self_iff hproject, (mergeTables_heeded huser hproject).symm, ?_⟩
  intro files timeout w hfile hfile'
  rw [run_load hfile hfile', ← hrefused]
  cases hmerged : ofTable (mergeTables user project) with
  | error e => simp [Except.bind]
  | ok c =>
    have htime := not_congr (exists_overrideTimeout_iff timeout c default)
    rw [← exists_eq_error_iff, ← exists_eq_error_iff] at htime
    simpa [Except.bind] using htime

end Configuration

namespace Sample

/-- A table whose settings are no table. -/
def misshapen : Json := .obj [("lsp", .bool true)]

/-- One that lists besides a server that is none. -/
def misshapenTwice : Json := .obj [("lsp", .bool true), ("servers", .arr [.int 3])]

/-- Two configuration files. -/
def configurationFiles : ConfigurationFiles := ⟨⟨"/home/config.toml"⟩, ⟨"/work/config.toml"⟩⟩

/-- A world in which only the project has a file. -/
def misshapenWorld : World :=
  .new (.withFile .empty configurationFiles.project (Utf8.ofString "lsp = true\n")) ⟨"/work"⟩ []
    .silent

theorem table_user : misshapenWorld.table configurationFiles.user = .ok Json.emptyObject := by
  have hpresent : misshapenWorld.isPresent configurationFiles.user = false := by decide +kernel
  rw [World.table, hpresent]
  rfl

theorem parse?_misshapen : Toml.parse? "lsp = true\n".toList = some misshapen := by
  -- tables have no decidable equality, so the kernel only looks at what was read
  have hread : ((Toml.parse? "lsp = true\n".toList).bind Configuration.tableFields).map
      (List.map fun f => (f.1, f.2.bool?)) = some [("lsp", some true)] := by decide +kernel
  obtain ⟨fields, hfields, hkeys⟩ := Option.map_eq_some_iff.1 hread
  obtain ⟨t, ht, htable⟩ := Option.bind_eq_some_iff.1 hfields
  obtain ⟨⟨key, v⟩, rfl, hf⟩ := List.map_eq_singleton_iff.1 hkeys
  cases t with
  | obj fields' =>
    obtain rfl := Option.some.inj htable
    cases v with
    | bool b =>
      obtain ⟨rfl, hb⟩ := Prod.mk.inj hf
      obtain rfl := Option.some.inj hb
      exact ht
    | _ => cases hf
  | _ => cases htable

theorem table_project : misshapenWorld.table configurationFiles.project = .ok misshapen := by
  have hpresent : misshapenWorld.isPresent configurationFiles.project = true := by decide +kernel
  have hread : (misshapenWorld.read configurationFiles.project).bind FileAccess.textOf =
      .ok "lsp = true\n" := by decide +kernel
  rw [World.table, hpresent, if_pos rfl, hread]
  simp only [Configuration.tableOfText, parse?_misshapen]

end Sample

namespace Configuration

/-- Settings that are a truth value go unreported, also where they are loaded; a server that is none
is reported beside them. -/
theorem mergeTables_refused_iff_misshapen :
    (∃ e, ofTable Sample.misshapen = .error e) ∧
      (¬ ∃ e, ofTable (mergeTables Json.emptyObject Sample.misshapen) = .error e) ∧
      (¬ ∃ e, ((load Sample.configurationFiles none .project :
        ExceptT ConfigurationError (StateM World) Configuration).run.run
          Sample.misshapenWorld).1 = .error e) ∧
      ∃ e, ofTable (mergeTables Json.emptyObject Sample.misshapenTwice) = .error e := by
  have huser : ofTable Json.emptyObject = .ok default := rfl
  have htable : Sample.misshapen.IsTable := by decide
  have htable' : Sample.misshapenTwice.IsTable := by decide
  have hsettings : ∀ v, Sample.misshapen.get? "lsp" = some v → v.isObject = true → v.IsTable := by
    rintro v hv hobject
    obtain rfl := Option.some.inj hv
    cases hobject
  have hheeded : ¬ ∃ e, ofTable (heeded Sample.misshapen) = .error e := by
    rintro ⟨e, he⟩
    cases he
  obtain ⟨hrefused, -, -, hload⟩ := mergeTables_refused_iff (by decide) htable hsettings huser
  obtain ⟨hrefused', -⟩ := mergeTables_refused_iff (by decide) htable' hsettings huser
  refine ⟨⟨_, rfl⟩, fun h => hheeded (hrefused.1 h), ?_, hrefused'.2 ⟨_, rfl⟩⟩
  rw [hload _ _ _ Sample.table_user Sample.table_project]
  rintro (h | ⟨e, he⟩)
  · exact hheeded h
  · cases he

end Configuration
end LanguageClient
