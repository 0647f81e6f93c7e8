import LanguageClient.Proofs.Json.Sequence
import LanguageClient.Settings.Load

/-!
# What a configuration is read from

A configuration is read from a table when each setting in it has a value of its kind and each server
can be read (`Configuration.ofTable_eq_ok_iff`). What is read is told key by key
(`Settings.fields`): the value that the table gives to a key, or else the default.
-/

namespace LanguageClient

open Layout (Given)

/-- Whether a value is a table: an object that gives each of its keys once, in ascending order. -/
def Json.IsTable : Json → Prop
  | .obj fields => fields.Pairwise fun f g => f.1 < g.1
  | _ => False

instance : DecidablePred Json.IsTable
  | .obj fields => inferInstanceAs (Decidable (fields.Pairwise fun f g => f.1 < g.1))
  | .null | .bool _ | .int _ | .float _ | .str _ | .arr _ => .isFalse id

theorem Json.IsTable.exists_fields {v : Json} (h : v.IsTable) :
    ∃ fields, v = .obj fields ∧ fields.Pairwise fun f g => f.1 < g.1 := by
  cases v with
  | obj fields => exact ⟨fields, rfl, h⟩
  | _ => exact h.elim

theorem Json.isObject_iff {v : Json} : v.isObject = true ↔ ∃ fields, v = .obj fields := by
  cases v <;> simp [isObject]

theorem Json.IsTable.isObject {v : Json} (h : v.IsTable) : v.isObject = true := by
  obtain ⟨fields, rfl, -⟩ := h.exists_fields
  rfl

namespace Settings

/-- What each key can have for a value. -/
def kinds : List (String × (Json → Prop)) :=
  [("request_timeout_secs", Decoder.u64.Takes),
    ("diagnostics_wait_secs", Decoder.u64.Takes),
    ("shutdown_grace_ms", Decoder.u64.Takes),
    ("stderr_log_limit", Decoder.usize.Takes),
    ("tab_size", Decoder.u32.Takes),
    ("insert_spaces", Decoder.bool.Takes)]

/-- Whether every setting that `lookup` finds has a value of its kind. -/
def Sound (lookup : String → Option Json) : Prop :=
  ∀ k ∈ kinds, ∀ v, lookup k.1 = some v → k.2 v

theorem sound_none : Sound fun _ => none := fun _ _ _ hv => nomatch hv

/-- Over sound settings only those that are laid over them can be unsound. -/
theorem sound_or_iff {upper lower : String → Option Json} (hlower : Sound lower) :
    (Sound fun key => (upper key).or (lower key)) ↔ Sound upper := by
  constructor
  · intro h k hk v hv
    exact h k hk v (Option.or_eq_some_iff.2 (.inl hv))
  · intro h k hk v hv
    rcases Option.or_eq_some_iff.1 hv with hv | ⟨-, hv⟩
    · exact h k hk v hv
    · exact hlower k hk v hv

variable {v : Json} {s : Settings} {fields : List (String × Json)}

theorem decoder_eq_ok_iff :
    decoder v = .ok s ↔ v.IsRecord 6 ∧
      Given Decoder.u64 (some default.requestTimeout) (v.slot "request_timeout_secs" 0)
        s.requestTimeout ∧
      Given Decoder.u64 (some default.diagnosticsWait) (v.slot "diagnostics_wait_secs" 1)
        s.diagnosticsWait ∧
      Given Decoder.u64 (some default.shutdownGrace) (v.slot "shutdown_grace_ms" 2)
        s.shutdownGrace ∧
      Given Decoder.usize (some default.logLimit) (v.slot "stderr_log_limit" 3) s.logLimit ∧
      Given Decoder.u32 (some default.tabSize) (v.slot "tab_size" 4) s.tabSize ∧
      Given Decoder.bool (some default.insertSpaces) (v.slot "insert_spaces" 5)
        s.insertSpaces := by
  simp only [decoder, Layout.defaulted, Layout.decoder_eq_ok_iff, Layout.reads_also_field,
    Layout.reads_start]
  constructor
  · rintro ⟨hrecord, _, _, ⟨_, _, ⟨_, _, ⟨_, _, ⟨_, _, ⟨_, _, rfl, htimeout, rfl⟩, hwait, rfl⟩,
      hgrace, rfl⟩, hlog, rfl⟩, htab, rfl⟩, hspaces, rfl⟩
    exact ⟨hrecord, htimeout, hwait, hgrace, hlog, htab, hspaces⟩
  · rintro ⟨hrecord, htimeout, hwait, hgrace, hlog, htab, hspaces⟩
    exact ⟨hrecord, _, _, ⟨_, _, ⟨_, _, ⟨_, _, ⟨_, _, ⟨_, _, rfl, htimeout, rfl⟩, hwait, rfl⟩,
      hgrace, rfl⟩, hlog, rfl⟩, htab, rfl⟩, hspaces, rfl⟩

/-- **Settings are read from a table when each of its keys has a value of its kind**, and have these
values, or the defaults where there are none. -/
theorem decoder_obj_iff :
    decoder (.obj fields) = .ok s ↔
      (Sound fun key => (Json.obj fields).get? key) ∧
        s.fields = default.fields.map fun f => (f.1, ((Json.obj fields).get? f.1).getD f.2) := by
  simp only [decoder_eq_ok_iff, Json.IsRecord, Json.slot, true_and, Decoder.keeps_u32.given_iff,
    Decoder.keeps_u64.given_iff, Decoder.keeps_usize.given_iff, Decoder.keeps_bool.given_iff,
    Sound, kinds, List.forall_mem_cons, List.not_mem_nil, false_implies, implies_true, and_true,
    Settings.fields, List.map_cons, List.map_nil, List.cons.injEq, Prod.mk.injEq]
  tauto

theorem takes_obj_iff :
    decoder.Takes (.obj fields) ↔ Sound fun key => (Json.obj fields).get? key := by
  constructor
  · rintro ⟨s, hs⟩
    exact (decoder_obj_iff.1 hs).1
  · intro hsound
    obtain ⟨htimeout, hwait, hgrace, hlog, htab, hspaces, -⟩ := by
      simpa only [Sound, kinds, List.forall_mem_cons] using hsound
    obtain ⟨timeout, htimeout⟩ := (Layout.exists_given_some_iff default.requestTimeout).2 htimeout
    obtain ⟨wait, hwait⟩ := (Layout.exists_given_some_iff default.diagnosticsWait).2 hwait
    obtain ⟨grace, hgrace⟩ := (Layout.exists_given_some_iff default.shutdownGrace).2 hgrace
    obtain ⟨log, hlog⟩ := (Layout.exists_given_some_iff default.logLimit).2 hlog
    obtain ⟨tab, htab⟩ := (Layout.exists_given_some_iff default.tabSize).2 htab
    obtain ⟨spaces, hspaces⟩ := (Layout.exists_given_some_iff default.insertSpaces).2 hspaces
    exact ⟨⟨timeout, wait, grace, log, tab, spaces⟩, decoder_eq_ok_iff.2
      ⟨trivial, htimeout, hwait, hgrace, hlog, htab, hspaces⟩⟩

theorem fields_injective {s s' : Settings} (h : s.fields = s'.fields) : s = s' := by
  obtain ⟨timeout, wait, grace, log, tab, spaces⟩ := s
  simp only [fields, List.cons.injEq, Prod.mk.injEq, Json.int.injEq, Json.bool.injEq,
    Int.natCast_inj, true_and, and_true] at h
  obtain ⟨rfl, rfl, rfl, rfl, rfl, rfl⟩ := h
  rfl

end Settings

namespace Configuration

variable {t : Json} {c : Configuration} {fields : List (String × Json)}

/-- The value that a table gives to a setting. -/
def setting? (t : Json) (key : String) : Option Json := (t.get? "lsp").bind (·.get? key)

/-- Settings that are given as a table, or not at all, are told key by key. -/
theorem given_settings_iff {s : Settings} (h : ∀ v, t.get? "lsp" = some v → v.isObject = true) :
    Given Settings.decoder (some .default) (t.get? "lsp") s ↔
      Settings.Sound (setting? t) ∧
        s.fields = Settings.default.fields.map fun f => (f.1, (setting? t f.1).getD f.2) := by
  unfold setting?
  generalize t.get? "lsp" = value at h
  cases value with
  | none =>
    have hsame : (Settings.default.fields.map fun f => (f.1, f.2)) = Settings.default.fields :=
      List.map_id _
    simp only [Given, reduceCtorEq, false_and, exists_false, true_and, false_or, Option.some.injEq,
      Option.bind_none, Option.getD_none, Settings.sound_none, hsame]
    exact ⟨fun hs => hs ▸ rfl, fun hs => (Settings.fields_injective hs).symm⟩
  | some v =>
    cases v with
    | obj fields =>
      simp only [Given, Option.some.injEq, exists_eq_left', reduceCtorEq, false_and, or_false,
        Option.bind_some]
      exact Settings.decoder_obj_iff
    | _ => simp [Json.isObject] at h

theorem exists_given_settings_iff (h : ∀ v, t.get? "lsp" = some v → v.isObject = true) :
    (∃ s, Given Settings.decoder (some .default) (t.get? "lsp") s) ↔
      Settings.Sound (setting? t) := by
  rw [Layout.exists_given_some_iff]
  unfold setting?
  generalize t.get? "lsp" = value at h
  cases value with
  | none => simp [Settings.sound_none]
  | some v =>
    cases v with
    | obj fields => simpa using Settings.takes_obj_iff
    | _ => simp [Json.isObject] at h

/-- **A table is read as a configuration by its settings and its servers.** -/
theorem ofTable_eq_ok_iff (ht : t.isObject = true) :
    ofTable t = .ok c ↔
      Given Settings.decoder (some .default) (t.get? "lsp") c.settings ∧
        Given (Decoder.list ServerConfig.decoder) (some []) (t.get? "servers") c.servers := by
  obtain ⟨fields, rfl⟩ := Json.isObject_iff.1 ht
  simp only [ofTable, mapError_eq_ok_iff, decoder, Layout.defaulted, Layout.decoder_eq_ok_iff,
    Layout.reads_also_field, Layout.reads_start, Json.IsRecord, Json.slot, true_and]
  constructor
  · rintro ⟨_, _, ⟨_, _, rfl, hsettings, rfl⟩, hservers, rfl⟩
    exact ⟨hsettings, hservers⟩
  · rintro ⟨hsettings, hservers⟩
    exact ⟨_, _, ⟨_, _, rfl, hsettings, rfl⟩, hservers, rfl⟩

/-- A table is a configuration when its settings and its servers are taken. -/
theorem exists_ofTable_iff (ht : t.isObject = true) :
    (∃ c, ofTable t = .ok c) ↔
      (∀ v, t.get? "lsp" = some v → Settings.decoder.Takes v) ∧
        ∀ v, t.get? "servers" = some v → (Decoder.list ServerConfig.decoder).Takes v := by
  rw [← Layout.exists_given_some_iff Settings.default,
    ← Layout.exists_given_some_iff ([] : List ServerConfig)]
  simp only [ofTable_eq_ok_iff ht]
  constructor
  · rintro ⟨c, hsettings, hservers⟩
    exact ⟨⟨_, hsettings⟩, _, hservers⟩
  · rintro ⟨⟨settings, hsettings⟩, servers, hservers⟩
    exact ⟨⟨settings, servers⟩, hsettings, hservers⟩

end Configuration
end LanguageClient
