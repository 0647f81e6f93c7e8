import LanguageClient.Command.Target
import LanguageClient.Proofs.Session.Deed

/-!
# Which server a name starts

A server that is asked for by name is looked up twice: by the name, for its program and arguments,
and then by the program, for everything else. The second look-up may come to another entry of the
catalog (`Catalog.StandsFor`), whose file types, settings and options are then taken for the server
that was named (`Turn.matches_start_iff`).
-/

namespace LanguageClient

namespace ServerConfig

/-- Whether a configuration is another one, as far as it can be told: servers are known by their
identity, not by their name. -/
structure Matches (d c : ServerConfig) : Prop where
  identity : d.identity = c.identity
  command : d.command = c.command
  args : d.args = c.args
  fileTypes : d.fileTypes = c.fileTypes
  filtersCompletions : d.filtersCompletions = c.filtersCompletions
  settings : d.settings = c.settings
  initializationOptions : d.initializationOptions = c.initializationOptions

/-- Whether two configurations treat their servers alike, however these are launched. -/
structure Alike (d c : ServerConfig) : Prop where
  fileTypes : d.fileTypes = c.fileTypes
  filtersCompletions : d.filtersCompletions = c.filtersCompletions
  settings : d.settings = c.settings
  initializationOptions : d.initializationOptions = c.initializationOptions

end ServerConfig

namespace Catalog

variable {catalog : Catalog} {key : String} {c k : ServerConfig}

/-- Whether an entry stands for a key: it is the first of that identity or, where no entry has the
identity, the first with that program. -/
inductive StandsFor (catalog : Catalog) (key : String) (k : ServerConfig) : Prop where
  | named {before after : List ServerConfig} (hservers : catalog.servers = before ++ k :: after)
      (hk : k.identity = key) (hfirst : ∀ s ∈ before, s.identity ≠ key)
  | running {before after : List ServerConfig} (hservers : catalog.servers = before ++ k :: after)
      (hk : k.command = key) (hfirst : ∀ s ∈ before, s.command ≠ key)
      (hnone : ∀ s ∈ catalog.servers, s.identity ≠ key)

/-- **What is found under a key is what stands for it.** -/
theorem standsFor_iff : catalog.StandsFor key k ↔ catalog.find key = some k := by
  have hnamed : ∀ s, catalog.servers.find? (fun s => s.identity = key) = some s ↔
      s.identity = key ∧ ∃ before after, catalog.servers = before ++ s :: after ∧
        ∀ s ∈ before, s.identity ≠ key := by
    simp [List.find?_eq_some_iff_append]
  constructor
  · intro h
    cases h with
    | named hservers hk hfirst =>
      rw [find, (hnamed k).2 ⟨hk, _, _, hservers, hfirst⟩]
    | running hservers hk hfirst hnone =>
      have hnobody : catalog.servers.find? (fun s => s.identity = key) = none := by
        simpa using hnone
      rw [find, hnobody]
      exact List.find?_eq_some_iff_append.2
        ⟨by simpa using hk, _, _, hservers, by simpa using hfirst⟩
  · intro h
    unfold find at h
    split at h
    · next s hs =>
      obtain rfl := Option.some.inj h
      obtain ⟨hk, before, after, hservers, hfirst⟩ := (hnamed s).1 hs
      exact .named hservers hk hfirst
    · next hnone =>
      obtain ⟨hk, before, after, hservers, hfirst⟩ := List.find?_eq_some_iff_append.1 h
      exact .running hservers (by simpa using hk) (by simpa using hfirst) (by simpa using hnone)

/-- An entry that is found is found again by its program, or another one with it. -/
theorem exists_find_command (h : catalog.find key = some c) :
    ∃ k, catalog.find c.command = some k := by
  have hmem : c ∈ catalog.servers := by
    cases standsFor_iff.2 h with
    | named hservers => simp [hservers]
    | running hservers => simp [hservers]
  unfold find
  split
  · exact ⟨_, rfl⟩
  · rw [← Option.isSome_iff_exists, List.find?_isSome]
    exact ⟨c, hmem, by simp⟩

end Catalog

theorem ServerConfig.identity_rename (k c : ServerConfig) :
    { k with command := c.command, args := c.args, name := c.identity }.identity = c.identity := by
  by_cases hname : c.name = "" <;> simp [identity, hname]

namespace Turn

variable {t : Turn} {target : StartTarget} {config : ServerConfig}

/-! ## What is launched -/

@[simp] theorem launched_report (t : Turn) (f : Failure) : (t.report f).launched = t.launched := by
  simp [launched, report, notice, tell, emit]

@[simp] theorem launched_launching (t : Turn) (config : ServerConfig) :
    (t.launching config).launched = t.launched ++ [(t.session.nextConnection, config)] := by
  simp [launched, launching, emit]

@[simp] theorem launched_advance (t : Turn) (identity : String) (c : Connection)
    (messages : List Json) : (t.advance identity c messages).launched = t.launched := by
  simp [launched, advance, keep, write, List.filterMap_map]

@[simp] theorem launched_teardown (t : Turn) (identity : String) :
    (t.teardown identity).launched = t.launched := by
  cases hc : t.connection identity with
  | none => simp [teardown, hc]
  | some c => simp [teardown_eq hc, launched, List.filterMap_map]

/-- A server that is started is launched, whatever becomes of it. -/
theorem launched_start (hconfig : t.configFor target = .ok config)
    (hfree : Registry.ensureAvailable t.session.connections config.identity = .ok ())
    (launch : Launcher) :
    (t.start launch target).launched = t.launched ++ [(t.session.nextConnection, config)] := by
  cases hlaunch : launch config with
  | refused reason => simp [start_refused hconfig hfree hlaunch]
  | running wireOpen =>
    have hentered :
        ((t.entered config wireOpen).withLog config t.session.nextConnection).launched =
          t.launched ++ [(t.session.nextConnection, config)] := by
      change (t.entered config wireOpen).launched = _
      simp [entered]
    rw [start_running hconfig hfree hlaunch, started]
    split
    · exact hentered
    · simpa using hentered

/-! ## What a name starts -/

/-- **A name starts the server that it names under its identity, with its program and arguments.**
The rest of its configuration is taken from the entry that stands for the program, so that it is the
configured one just when these two entries are alike. -/
theorem matches_start_iff {key : String} {c : ServerConfig}
    (hfind : t.session.catalog.find key = some c) (file : Path) :
    ∃ target config known,
      StartTarget.choose t.session.catalog (some key) file = .ok target ∧
      t.configFor target = .ok config ∧
      (∀ launch, Registry.ensureAvailable t.session.connections c.identity = .ok () →
        (t.start launch target).launched = t.launched ++ [(t.session.nextConnection, config)]) ∧
      config.identity = c.identity ∧ config.command = c.command ∧ config.args = c.args ∧
      t.session.catalog.StandsFor c.command known ∧ (config.Matches c ↔ known.Alike c) := by
  obtain ⟨known, hknown⟩ := Catalog.exists_find_command hfind
  have hidentity := ServerConfig.identity_rename known c
  have hconfig : t.configFor (.command (some c.identity) c.command c.args) =
      .ok { known with command := c.command, args := c.args, name := c.identity } := by
    simp [configFor, Catalog.forCommand, hknown]
  refine ⟨_, _, known, by simp [StartTarget.choose, hfind], hconfig, fun launch hfree => ?_,
    hidentity, rfl, rfl, Catalog.standsFor_iff.2 hknown, ?_⟩
  · exact launched_start hconfig (by rwa [hidentity]) launch
  · constructor
    · exact fun h => ⟨h.fileTypes, h.filtersCompletions, h.settings, h.initializationOptions⟩
    · exact fun h => ⟨hidentity, rfl, rfl, h.fileTypes, h.filtersCompletions, h.settings,
        h.initializationOptions⟩

end Turn

namespace Sample

/-- A server of a program that is configured twice, with other options each time. -/
def twin (name : String) : ServerConfig :=
  { ServerConfig.bare "sh" [] with name := name, initializationOptions := some (.str name) }

/-- A session to which both are known. -/
def twins : Turn :=
  ⟨.new ⟨"/"⟩ .default 1 (.ofConfigured [twin "alpha", twin "beta"]), .empty, []⟩

end Sample

namespace Turn

/-- The second of two servers of one program is started with the options of the first. -/
theorem matches_start_twins :
    Sample.twins.session.catalog.find "beta" = some (Sample.twin "beta") ∧
      ∃ target config known,
        StartTarget.choose Sample.twins.session.catalog (some "beta") ⟨"/a.rs"⟩ = .ok target ∧
        Sample.twins.configFor target = .ok config ∧
        Sample.twins.session.catalog.StandsFor "sh" known ∧
        known.initializationOptions = some (.str "alpha") ∧
        ¬ config.Matches (Sample.twin "beta") := by
  have hfind : Sample.twins.session.catalog.find "beta" = some (Sample.twin "beta") := by rfl
  obtain ⟨target, config, known, htarget, hconfig, -, -, -, -, hknown, hiff⟩ :=
    matches_start_iff (t := Sample.twins) hfind ⟨"/a.rs"⟩
  have hoptions : known.initializationOptions = some (.str "alpha") := by
    have hsh : Sample.twins.session.catalog.find "sh" = some (Sample.twin "alpha") := by rfl
    have hfound := Catalog.standsFor_iff.1 hknown
    rw [show (Sample.twin "beta").command = "sh" from rfl, hsh] at hfound
    cases hfound
    rfl
  refine ⟨hfind, target, config, known, htarget, hconfig, hknown, hoptions, fun hmatches => ?_⟩
  have hsame := (hiff.1 hmatches).initializationOptions
  rw [hoptions] at hsame
  simp [Sample.twin] at hsame

end Turn
end LanguageClient
