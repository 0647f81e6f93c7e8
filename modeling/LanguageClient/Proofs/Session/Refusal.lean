import LanguageClient.Proofs.Session.Endurance

/-!
# Starts that come to nothing

A start is refused when no server is known for the language, when the identity is taken, or when the
server cannot be launched (`Turn.Refusal`). All that is left of it then is a notice, and the number
of the launch that was tried (`Turn.Declined`). A server that runs and cannot be sent its handshake
is gone again at once, and its identity is as free as before (`Turn.Startable`). Every other start
brings up a server (`Turn.start_declined`).
-/

namespace LanguageClient.Turn

variable {named : Path → Prop} {t : Turn} {launch : Launcher} {target : StartTarget}
  {config : ServerConfig} {identity : String} {f : Failure}

/-! ## What can go wrong -/

/-- The ways in which a start is refused, with the failures that they are. -/
inductive Refusal (t : Turn) (launch : Launcher) : StartTarget → Failure → Prop where
  /-- No server is known for the language. -/
  | unserved {language : String} (unknown : t.session.catalog.forLanguage language = none) :
      Refusal t launch (.fileType language) (.noServerForLanguage language)
  /-- A server is there under the identity. -/
  | taken {target : StartTarget} {config : ServerConfig} {c : Connection}
      (hconfig : t.configFor target = .ok config) (hc : t.connection config.identity = some c) :
      Refusal t launch target (.duplicateStart config.identity)
  /-- The server cannot be launched. -/
  | unlaunched {target : StartTarget} {config : ServerConfig} {reason : String}
      (hconfig : t.configFor target = .ok config) (vacant : t.connection config.identity = none)
      (hlaunch : launch config = .refused reason) :
      Refusal t launch target (.serverStart reason)

/-- Whether a server is launched to which the handshake cannot be written. -/
structure Unsent (t : Turn) (launch : Launcher) (target : StartTarget) (config : ServerConfig) :
    Prop where
  named : t.configFor target = .ok config
  vacant : t.connection config.identity = none
  launched : launch config = .running false

/-! ## What is left -/

/-- Whether all that has come between two turns is the notice of one failure, told to the host: the
session is the same up to the number of the next launch, which may have gone on, the buffers are the
same, and nothing was written. -/
structure Declined (t t' : Turn) (f : Failure) : Prop where
  session : t'.session = { t.session with nextConnection := t'.session.nextConnection }
  number : t.session.nextConnection ≤ t'.session.nextConnection
  buffers : t'.buffers = t.buffers
  written : t'.written = t.written
  told : t'.told = t.told ++ [.notify f.level f.message]

/-- Whether every start of a server under an identity brings it up, with nothing told to the host,
as long as it can be launched and its wire takes messages. -/
def Startable (t : Turn) (identity : String) : Prop :=
  ∀ launch target config, t.configFor target = .ok config → config.identity = identity →
    launch config = .running true →
      (t.start launch target).Runs identity t.session.nextConnection ∧
        (t.start launch target).told = t.told

@[simp] theorem told_report (t : Turn) (f : Failure) :
    (t.report f).told = t.told ++ [.notify f.level f.message] := by
  simp [told, report, notice, tell, emit]

@[simp] theorem told_launching (t : Turn) (config : ServerConfig) :
    (t.launching config).told = t.told := by
  simp [told, launching, emit]

@[simp] theorem told_advance (t : Turn) (identity : String) (c : Connection)
    (messages : List Json) : (t.advance identity c messages).told = t.told := by
  simp [told, advance, keep, write, List.filterMap_map]

@[simp] theorem written_report (t : Turn) (f : Failure) : (t.report f).written = t.written := by
  simp [written, report, notice, tell, emit]

theorem declined_report (t : Turn) (f : Failure) : Declined t (t.report f) f where
  session := rfl
  number := Nat.le_refl _
  buffers := rfl
  written := written_report t f
  told := told_report t f

theorem declined_launching (t : Turn) (config : ServerConfig) (f : Failure) :
    Declined t ((t.launching config).report f) f where
  session := rfl
  number := Nat.le_succ _
  buffers := rfl
  written := (written_report _ f).trans (written_launching t config)
  told := by rw [told_report, told_launching]

/-! ## The ways that a start can take -/

theorem ensureAvailable_of_vacant (h : t.connection identity = none) :
    Registry.ensureAvailable t.session.connections identity = .ok () := by
  have hnone : t.session.connections.get? identity = none := h
  rw [Registry.ensureAvailable, hnone]

/-- No connection of a session has stopped, so that each keeps its identity taken. -/
theorem ensureAvailable_of_taken {c : Connection} (ht : t.session.Aligned)
    (hc : t.connection identity = some c) :
    Registry.ensureAvailable t.session.connections identity =
      .error (.duplicateStart identity) := by
  have hsome : t.session.connections.get? identity = some c := hc
  simp only [Registry.ensureAvailable, hsome, if_neg (ht.running identity c hc)]

theorem Refusal.declined (ht : t.session.Aligned) (h : Refusal t launch target f) :
    Declined t (t.start launch target) f := by
  cases h with
  | unserved unknown =>
    simp only [start, configFor, unknown]
    exact declined_report t _
  | taken hconfig hc =>
    simp only [start, hconfig, ensureAvailable_of_taken ht hc]
    exact declined_report t _
  | unlaunched hconfig vacant hlaunch =>
    rw [start_refused hconfig (ensureAvailable_of_vacant vacant) hlaunch]
    exact declined_launching t _ _

theorem Unsent.vacates (ht : t.Regular named) (h : Unsent t launch target config) :
    (t.start launch target).connection config.identity = none := by
  have hfree := ensureAvailable_of_vacant h.vacant
  obtain ⟨hclears, -⟩ := clears_start ht h.named hfree h.launched
  exact congrArg Part.connection (hclears.unknown config.identity rfl)

/-- A server whose handshake can be written comes up. -/
theorem runs_start (hconfig : t.configFor target = .ok config)
    (vacant : t.connection config.identity = none) (hlaunch : launch config = .running true) :
    (t.start launch target).Runs config.identity t.session.nextConnection ∧
      (t.start launch target).told = t.told := by
  have hstarted : t.start launch target =
      (t.entered config true).withLog config t.session.nextConnection :=
    start_running hconfig (ensureAvailable_of_vacant vacant) hlaunch
  rw [hstarted]
  constructor
  · refine ⟨(t.newcomer config true).2, ?_, t.newcomer_id config true⟩
    have hentered := connection_entered t config true config.identity
    rw [if_pos rfl] at hentered
    exact hentered
  · change (t.entered config true).told = t.told
    simp [entered]

theorem startable_of_vacant (vacant : t.connection identity = none) : t.Startable identity := by
  rintro launch target config hconfig rfl hlaunch
  exact runs_start hconfig vacant hlaunch

/-- A start is refused, its handshake cannot be written, or it brings up a server. -/
theorem start_ways (t : Turn) (launch : Launcher) (target : StartTarget) :
    (∃ f, Refusal t launch target f) ∨ (∃ config, Unsent t launch target config) ∨
      ∃ config, t.configFor target = .ok config ∧ t.connection config.identity = none ∧
        launch config = .running true := by
  cases hconfig : t.configFor target with
  | error e =>
    cases target with
    | command name command args => cases hconfig
    | fileType language =>
      cases hknown : t.session.catalog.forLanguage language with
      | none => exact .inl ⟨_, .unserved hknown⟩
      | some config =>
        simp only [configFor, hknown] at hconfig
        cases hconfig
  | ok config =>
    cases hc : t.connection config.identity with
    | some c => exact .inl ⟨_, .taken hconfig hc⟩
    | none =>
      cases hlaunch : launch config with
      | refused reason => exact .inl ⟨_, .unlaunched hconfig hc hlaunch⟩
      | running wireOpen =>
        cases wireOpen with
        | false => exact .inr (.inl ⟨config, hconfig, hc, hlaunch⟩)
        | true => exact .inr (.inr ⟨config, rfl, hc, hlaunch⟩)

/-- **A start that is refused changes nothing.** At whatever time of a run, a start that is refused
leaves the session as it was, up to the number of the next launch, writes nothing and tells the host
of the one failure. One whose handshake cannot be written leaves its identity free for the next.
Every other start brings up a server. -/
theorem start_declined (ht : t.Reached) (launch : Launcher) (target : StartTarget) :
    let t' := t.move (.event launch (.action (.start target)))
    (∀ f, Refusal t launch target f → Declined t t' f) ∧
    (∀ config, Unsent t launch target config →
      t'.connection config.identity = none ∧ t'.Startable config.identity) ∧
    ((∃ f, Refusal t launch target f) ∨ (∃ config, Unsent t launch target config) ∨
      ∃ config, t.configFor target = .ok config ∧ t.connection config.identity = none ∧
        t'.Runs config.identity t.session.nextConnection ∧ t'.told = t.told) := by
  have hregular := ht.steady.toRegular
  refine ⟨fun f h => h.declined hregular.aligned, fun config h => ?_, ?_⟩
  · exact ⟨h.vacates hregular, startable_of_vacant (h.vacates hregular)⟩
  · refine (start_ways t launch target).imp_right (Or.imp_right ?_)
    rintro ⟨config, hconfig, vacant, hlaunch⟩
    exact ⟨config, hconfig, vacant, runs_start hconfig vacant hlaunch⟩

/-- A server that has a document open is started once more; another one cannot be sent the
handshake. -/
theorem start_declined_taken :
    let t := Sample.start.run Sample.opening
    let again := t.move (.event Sample.launch (.action (.start (.command none "s" []))))
    let deaf := t.move (.event (fun _ => .running false) (.action (.start (.command none "r" []))))
    t.hasOpen "s" Sample.path = true ∧ t.Declined again (.duplicateStart "s") ∧
      deaf.connection "r" = none ∧ deaf.Startable "r" := by
  intro t again deaf
  have ht : t.Reached := reached_sample Sample.opening
  have hrun : t.hasOpen "s" Sample.path = true ∧ (t.connection "s").isSome = true ∧
      (t.connection "r").isNone = true ∧ (t.session.catalog.forCommand none "s" []).identity = "s" ∧
      (t.session.catalog.forCommand none "r" []).identity = "r" := by decide +kernel
  obtain ⟨hopen, hstands, hvacant, hs, hr⟩ := hrun
  obtain ⟨c, hc⟩ := Option.isSome_iff_exists.1 hstands
  have hconfig : t.configFor (.command none "s" []) =
      .ok (t.session.catalog.forCommand none "s" []) := rfl
  have htaken : Refusal t Sample.launch (.command none "s" []) _ := .taken hconfig (hs.symm ▸ hc)
  have hdeclined := (start_declined ht Sample.launch _).1 _ htaken
  rw [hs] at hdeclined
  have hunsent : Unsent t (fun _ => .running false) (.command none "r" [])
      (t.session.catalog.forCommand none "r" []) := by
    refine ⟨rfl, ?_, rfl⟩
    rw [hr]
    exact Option.isNone_iff_eq_none.1 hvacant
  have hvacated := (start_declined ht _ _).2.1 _ hunsent
  rw [hr] at hvacated
  exact ⟨hopen, hdeclined, hvacated⟩

end LanguageClient.Turn
