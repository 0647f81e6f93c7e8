import LanguageClient.Connection.Basic
import LanguageClient.Proofs.Json.Sequence

/-!
# Diagnostics with odd severities and codes

What becomes of a publication when the severities and codes of some of its diagnostics are replaced
by other values (`Notification.Regrades`). Any value may stand for a code, but only an integer of 64
bits or `null` for a severity, so the publication is accepted just when every severity in it is one
of these (`ServerNotification.accepted_iff_gradable`); then nothing else in it has changed, and
otherwise the client drops it with all its diagnostics.
-/

namespace LanguageClient

open Layout (Given)

theorem forall₂_getElem? {α β : Type} {R : α → β → Prop} {xs : List α} {ys : List β}
    (h : List.Forall₂ R xs ys) {i : Nat} {y : β} (hy : ys[i]? = some y) :
    ∃ x, xs[i]? = some x ∧ R x y := by
  induction h generalizing i with
  | nil => cases hy
  | @cons x y' xs ys hxy _ ih =>
    cases i with
    | zero =>
      obtain rfl : y' = y := Option.some.inj hy
      exact ⟨x, rfl, hxy⟩
    | succ i => exact ih hy

/-! ## Records that differ in some fields -/

namespace Json

/-- Whether two records are given in one form and agree in every field but those of `free`, each of
which is named by its key and its place. -/
inductive SameBut (free : List (String × Nat)) : Json → Json → Prop
  | object {fields fields' : List (String × Json)}
      (h : ∀ key ∉ free.map (·.1), (obj fields).get? key = (obj fields').get? key) :
      SameBut free (.obj fields) (.obj fields')
  | array {items items' : List Json}
      (h : ∀ place ∉ free.map (·.2), items[place]? = items'[place]?) :
      SameBut free (.arr items) (.arr items')

variable {free : List (String × Nat)} {v v' : Json}

theorem SameBut.slot_eq (h : SameBut free v v') {key : String} {place : Nat}
    (hkey : key ∉ free.map (·.1)) (hplace : place ∉ free.map (·.2)) :
    v.slot key place = v'.slot key place := by
  cases h with
  | object h => exact h key hkey
  | array h => exact h place hplace

theorem SameBut.isRecord_iff (h : SameBut free v v') {width : Nat}
    (hwidth : width ∉ free.map (·.2)) : v.IsRecord width ↔ v'.IsRecord width := by
  cases h with
  | object h => exact Iff.rfl
  | array h =>
    simp only [IsRecord]
    rw [← List.getElem?_eq_none_iff, h width hwidth, List.getElem?_eq_none_iff]

end Json

/-! ## Diagnostics -/

namespace PublishedDiagnostic

theorem decoder_eq_ok_iff {v : Json} {d : PublishedDiagnostic} :
    decoder v = .ok d ↔ v.IsRecord 5 ∧
      Given Range.decoder none (v.slot "range" 0) d.range ∧
      Given (Decoder.optional Decoder.i64) (some none) (v.slot "severity" 1) d.severity ∧
      Given (Decoder.optional Decoder.any) (some none) (v.slot "code" 2) d.code ∧
      Given (Decoder.optional Decoder.string) (some none) (v.slot "source" 3) d.source ∧
      Given Decoder.string (some "") (v.slot "message" 4) d.message := by
  simp only [decoder, Layout.required, Layout.defaulted, Layout.decoder_eq_ok_iff,
    Layout.reads_also_field, Layout.reads_start]
  constructor
  · rintro ⟨hrecord, _, _, ⟨_, _, ⟨_, _, ⟨_, _, ⟨_, _, rfl, hrange, rfl⟩, hseverity, rfl⟩, hcode,
      rfl⟩, hsource, rfl⟩, hmessage, rfl⟩
    exact ⟨hrecord, hrange, hseverity, hcode, hsource, hmessage⟩
  · rintro ⟨hrecord, hrange, hseverity, hcode, hsource, hmessage⟩
    exact ⟨hrecord, _, _, ⟨_, _, ⟨_, _, ⟨_, _, ⟨_, _, rfl, hrange, rfl⟩, hseverity, rfl⟩, hcode,
      rfl⟩, hsource, rfl⟩, hmessage, rfl⟩

/-- The fields that grade a diagnostic: its severity and its code. -/
def grading : List (String × Nat) := [("severity", 1), ("code", 2)]

/-- Whether a diagnostic has a severity that can be read: none, `null` or an integer of 64 bits. -/
def gradable (v : Json) : Bool :=
  match v.slot "severity" 1 with
  | none => true
  | some .null => true
  | some (.int n) => -(bound63 : Int) ≤ n && n < bound63
  | some _ => false

theorem exists_given_severity_iff (v : Json) :
    (∃ s, Given (Decoder.optional Decoder.i64) (some none) (v.slot "severity" 1) s) ↔
      gradable v = true := by
  unfold gradable
  cases v.slot "severity" 1 with
  | none => simp [Given]
  | some w =>
    cases w with
    | int n =>
      have hread : Decoder.optional Decoder.i64 (.int n) =
          if -(bound63 : Int) ≤ n && n ≤ bound63 - 1 then .ok (some n)
          else .error (.outOfRange n "i64") := by
        simp only [Decoder.optional, Decoder.i64, Decoder.integer]
        split <;> rfl
      simp only [Given, Option.some.injEq, exists_eq_left', reduceCtorEq, false_and, or_false,
        hread, Bool.and_eq_true, decide_eq_true_eq, Int.le_sub_one_iff]
      split <;> simp_all
    | _ => simp [Given, Decoder.optional, Decoder.i64, Decoder.integer]

theorem exists_given_code (value : Option Json) :
    ∃ c, Given (Decoder.optional Decoder.any) (some none) value c := by
  cases value with
  | none => exact ⟨none, .inr ⟨rfl, rfl⟩⟩
  | some w =>
    cases w with
    | null => exact ⟨none, .inl ⟨_, rfl, rfl⟩⟩
    | _ => exact ⟨some _, .inl ⟨_, rfl, rfl⟩⟩

/-- A diagnostic whose severity and code were replaced is read if it has a severity that can be. -/
theorem exists_decoder_eq_ok_iff {v v' : Json} (h : v.SameBut grading v') {d : PublishedDiagnostic}
    (hd : decoder v = .ok d) : (∃ d', decoder v' = .ok d') ↔ gradable v' = true := by
  obtain ⟨hrecord, hrange, -, -, hsource, hmessage⟩ := decoder_eq_ok_iff.1 hd
  rw [h.isRecord_iff (by decide)] at hrecord
  rw [h.slot_eq (by decide) (by decide)] at hrange hsource hmessage
  constructor
  · rintro ⟨d', hd'⟩
    exact (exists_given_severity_iff v').1 ⟨_, (decoder_eq_ok_iff.1 hd').2.2.1⟩
  · intro hgradable
    obtain ⟨severity, hseverity⟩ := (exists_given_severity_iff v').2 hgradable
    obtain ⟨code, hcode⟩ := exists_given_code (v'.slot "code" 2)
    exact ⟨⟨d.range, severity, code, d.source, d.message⟩,
      decoder_eq_ok_iff.2 ⟨hrecord, hrange, hseverity, hcode, hsource, hmessage⟩⟩

/-- What is read of it besides is what was read before. -/
theorem eq_of_sameBut {v v' : Json} (h : v.SameBut grading v') {d d' : PublishedDiagnostic}
    (hd : decoder v = .ok d) (hd' : decoder v' = .ok d') :
    d'.range = d.range ∧ d'.source = d.source ∧ d'.message = d.message := by
  obtain ⟨-, hrange, -, -, hsource, hmessage⟩ := decoder_eq_ok_iff.1 hd
  obtain ⟨-, hrange', -, -, hsource', hmessage'⟩ := decoder_eq_ok_iff.1 hd'
  rw [h.slot_eq (by decide) (by decide)] at hrange hsource hmessage
  exact ⟨hrange'.unique hrange, hsource'.unique hsource, hmessage'.unique hmessage⟩

end PublishedDiagnostic

/-! ## Publications -/

namespace Publication

open PublishedDiagnostic (grading gradable)

theorem decoder_eq_ok_iff {v : Json} {p : Publication} :
    decoder v = .ok p ↔ v.IsRecord 3 ∧ Given Decoder.string none (v.slot "uri" 0) p.uri ∧
      Given (Decoder.optional Decoder.i32) (some none) (v.slot "version" 1) p.version ∧
      Given (Decoder.list PublishedDiagnostic.decoder) (some []) (v.slot "diagnostics" 2)
        p.diagnostics := by
  simp only [decoder, Layout.required, Layout.defaulted, Layout.decoder_eq_ok_iff,
    Layout.reads_also_field, Layout.reads_start]
  constructor
  · rintro ⟨hrecord, _, _, ⟨_, _, ⟨_, _, rfl, huri, rfl⟩, hversion, rfl⟩, hlist, rfl⟩
    exact ⟨hrecord, huri, hversion, hlist⟩
  · rintro ⟨hrecord, huri, hversion, hlist⟩
    exact ⟨hrecord, _, _, ⟨_, _, ⟨_, _, rfl, huri, rfl⟩, hversion, rfl⟩, hlist, rfl⟩

/-- The diagnostics that the parameters of a publication give, as they are given. -/
def items (params : Json) : List Json :=
  ((params.slot "diagnostics" 2).bind Json.items?).getD []

/-- Whether one list of diagnostics is another with severities and codes replaced. -/
inductive Relisted : Option Json → Option Json → Prop
  | absent : Relisted none none
  | list {ds ds' : List Json} (h : List.Forall₂ (Json.SameBut grading) ds ds') :
      Relisted (some (.arr ds)) (some (.arr ds'))

/-- Whether the parameters of one publication are those of another with the severities and codes of
diagnostics replaced. -/
structure Regrades (params params' : Json) : Prop where
  record : params.SameBut [("diagnostics", 2)] params'
  list : Relisted (params.slot "diagnostics" 2) (params'.slot "diagnostics" 2)

/-- Whether two publications are the same but for severities and codes, and a diagnostic that is
given as it was before is kept as before. -/
structure KeepsRest (params params' : Json) (p p' : Publication) : Prop where
  uri : p'.uri = p.uri
  version : p'.version = p.version
  length : p'.diagnostics.length = p.diagnostics.length
  rest : ∀ {i : Nat} {d d' : PublishedDiagnostic}, p.diagnostics[i]? = some d →
    p'.diagnostics[i]? = some d' →
      d'.range = d.range ∧ d'.source = d.source ∧ d'.message = d.message
  same : ∀ {i : Nat} {d d' : PublishedDiagnostic}, p.diagnostics[i]? = some d →
    p'.diagnostics[i]? = some d' → (items params')[i]? = (items params)[i]? →
      Diagnostic.ofPublished d' = Diagnostic.ofPublished d

variable {params params' : Json} {p p' : Publication}

theorem Relisted.forall₂_items
    (h : Relisted (params.slot "diagnostics" 2) (params'.slot "diagnostics" 2)) :
    List.Forall₂ (Json.SameBut grading) (items params) (items params') := by
  unfold items
  generalize params.slot "diagnostics" 2 = value at h
  generalize params'.slot "diagnostics" 2 = value' at h
  cases h with
  | absent => exact .nil
  | list h => exact h

/-- What is read of a publication is read of the diagnostics that it gives. -/
theorem forall₂_items (h : decoder params = .ok p) :
    List.Forall₂ (fun v d => PublishedDiagnostic.decoder v = .ok d) (items params)
      p.diagnostics := by
  obtain ⟨-, -, -, hlist⟩ := decoder_eq_ok_iff.1 h
  unfold items
  rcases hlist with ⟨v, hv, hread⟩ | ⟨hnone, hempty⟩
  · rw [hv]
    cases v with
    | arr ds => exact mapM_eq_ok_iff.1 hread
    | _ => cases hread
  · rw [hnone, ← Option.some.inj hempty]
    exact .nil

theorem exists_given_list_iff
    (h : Relisted (params.slot "diagnostics" 2) (params'.slot "diagnostics" 2)) :
    (∃ ds, Given (Decoder.list PublishedDiagnostic.decoder) (some [])
        (params'.slot "diagnostics" 2) ds) ↔
      ∀ v ∈ items params', ∃ d, PublishedDiagnostic.decoder v = .ok d := by
  rw [← exists_mapM_eq_ok_iff, items]
  generalize params.slot "diagnostics" 2 = value at h
  generalize params'.slot "diagnostics" 2 = value' at h ⊢
  cases h with
  | absent => simp [Given, pure, Except.pure]
  | list h => simp [Given, Decoder.list, Json.items?]

/-- A publication with severities and codes replaced is read when each severity can be. -/
theorem exists_decoder_iff_gradable (h : Regrades params params') (hp : decoder params = .ok p) :
    (∃ p', decoder params' = .ok p') ↔ ∀ v ∈ items params', gradable v = true := by
  obtain ⟨hrecord, huri, hversion, -⟩ := decoder_eq_ok_iff.1 hp
  rw [h.record.isRecord_iff (by decide)] at hrecord
  rw [h.record.slot_eq (by decide) (by decide)] at huri hversion
  have hread : (∃ p', decoder params' = .ok p') ↔
      ∀ v ∈ items params', ∃ d, PublishedDiagnostic.decoder v = .ok d := by
    rw [← exists_given_list_iff h.list]
    constructor
    · rintro ⟨p', hp'⟩
      exact ⟨_, (decoder_eq_ok_iff.1 hp').2.2.2⟩
    · rintro ⟨ds, hds⟩
      exact ⟨⟨p.uri, p.version, ds⟩, decoder_eq_ok_iff.2 ⟨hrecord, huri, hversion, hds⟩⟩
  rw [hread]
  refine forall₂_congr fun v' hv' => ?_
  obtain ⟨i, hi⟩ := List.mem_iff_getElem?.1 hv'
  obtain ⟨v, hv, hsame⟩ := forall₂_getElem? h.list.forall₂_items hi
  obtain ⟨d, -, hd⟩ := forall₂_getElem? (forall₂_items hp).flip hv
  exact PublishedDiagnostic.exists_decoder_eq_ok_iff hsame hd

theorem keepsRest_of_regrades (h : Regrades params params') (hp : decoder params = .ok p)
    (hp' : decoder params' = .ok p') : KeepsRest params params' p p' := by
  obtain ⟨-, huri, hversion, -⟩ := decoder_eq_ok_iff.1 hp
  obtain ⟨-, huri', hversion', -⟩ := decoder_eq_ok_iff.1 hp'
  rw [h.record.slot_eq (by decide) (by decide)] at huri hversion
  refine ⟨huri'.unique huri, hversion'.unique hversion, ?_, ?_, ?_⟩
  · rw [← (forall₂_items hp').length_eq, ← (forall₂_items hp).length_eq,
      h.list.forall₂_items.length_eq]
  · intro i d d' hd hd'
    obtain ⟨v, hv, hread⟩ := forall₂_getElem? (forall₂_items hp) hd
    obtain ⟨v', hv', hread'⟩ := forall₂_getElem? (forall₂_items hp') hd'
    obtain ⟨w, hw, hsame⟩ := forall₂_getElem? h.list.forall₂_items hv'
    obtain rfl := Option.some.inj (hv.symm.trans hw)
    exact PublishedDiagnostic.eq_of_sameBut hsame hread hread'
  · intro i d d' hd hd' hitem
    obtain ⟨v, hv, hread⟩ := forall₂_getElem? (forall₂_items hp) hd
    obtain ⟨v', hv', hread'⟩ := forall₂_getElem? (forall₂_items hp') hd'
    obtain rfl := Option.some.inj (hv'.symm.trans (hitem.trans hv))
    rw [Except.ok.inj (hread'.symm.trans hread)]

end Publication

/-! ## Notifications -/

namespace ServerNotification

open PublishedDiagnostic (gradable)

theorem ofNotification_eq_published_iff {n : Notification} {p : Publication} :
    ofNotification n = .ok (.published p) ↔
      n.method = Wire.publishDiagnostics ∧ Publication.decoder n.params = .ok p := by
  unfold ofNotification
  split
  · next hmethod => cases Publication.decoder n.params <;> simp [hmethod, Functor.map, Except.map]
  · next hmethod =>
    split
    · cases MessageParams.decoder n.params <;> simp [hmethod, Functor.map, Except.map]
    · split
      · cases MessageParams.decoder n.params <;> simp [hmethod, Functor.map, Except.map]
      · simp [hmethod]

/-- **A publication whose severities and codes are replaced is accepted just when each severity in
it is absent, `null` or an integer of 64 bits**, whatever the codes are. It then is the same but for
severities and codes, with every diagnostic that was not touched as it was; otherwise the client
makes nothing of the message. -/
theorem accepted_iff_gradable {n n' : Notification} {p : Publication}
    (hread : ofNotification n = .ok (.published p)) (hmethod : n'.method = n.method)
    (h : Publication.Regrades n.params n'.params) :
    ((∃ p', ofNotification n' = .ok (.published p')) ↔
      ∀ v ∈ Publication.items n'.params, gradable v = true) ∧
    (∀ p', ofNotification n' = .ok (.published p') →
      Publication.KeepsRest n.params n'.params p p') ∧
    ((∃ v ∈ Publication.items n'.params, gradable v = false) →
      ∀ (c : Connection) (v : Json), Message.decoder v = .ok (.notification n') →
        c.receiveValue v = (⟨[], []⟩, c)) := by
  obtain ⟨hpublish, hp⟩ := ofNotification_eq_published_iff.1 hread
  rw [hpublish] at hmethod
  have haccepted : (∃ p', ofNotification n' = .ok (.published p')) ↔
      ∀ v ∈ Publication.items n'.params, gradable v = true := by
    simp only [ofNotification_eq_published_iff, hmethod, true_and]
    exact Publication.exists_decoder_iff_gradable h hp
  refine ⟨haccepted, ?_, ?_⟩
  · intro p' hread'
    exact Publication.keepsRest_of_regrades h hp (ofNotification_eq_published_iff.1 hread').2
  · rintro ⟨odd, hodd, hungradable⟩ c v hv
    rw [Connection.receiveValue, hv]
    cases hread' : Publication.decoder n'.params with
    | error e =>
      have herror : ofNotification n' = .error e := by
        rw [ofNotification, if_pos hmethod, hread']
        rfl
      simp only [herror]
    | ok p' =>
      have hgradable := haccepted.1 ⟨p', ofNotification_eq_published_iff.2 ⟨hmethod, hread'⟩⟩
      have hodd' := hgradable odd hodd
      rw [hungradable] at hodd'
      cases hodd'

/-- Two diagnostics on the first line of a file, the first with a severity and a code as given. -/
def publishing (severity code : Json) : Notification :=
  let place : Json := .obj [("character", .int 0), ("line", .int 0)]
  let range : Json := .obj [("end", place), ("start", place)]
  let odd : Json := .obj [("code", code), ("message", .str "odd"), ("range", range),
    ("severity", severity)]
  let plain : Json := .obj [("message", .str "plain"), ("range", range), ("severity", .int 2)]
  ⟨protocolVersion, Wire.publishDiagnostics,
    .obj [("diagnostics", .arr [odd, plain]), ("uri", .str "file:///a.rs")]⟩

theorem regrades_publishing (severity code severity' code' : Json) :
    Publication.Regrades (publishing severity code).params (publishing severity' code').params := by
  refine ⟨.object fun key hkey => ?_, .list (.cons (.object fun key hkey => ?_)
    (.cons (.object fun _ _ => rfl) .nil))⟩
  · have hne : "diagnostics" ≠ key := by simpa [eq_comm] using hkey
    simp [Json.get?, hne]
  · have hne : "severity" ≠ key ∧ "code" ≠ key := by
      simpa [PublishedDiagnostic.grading, eq_comm] using hkey
    simp [Json.get?, List.find?, hne.1, hne.2]

/-- A severity that is no number in use and a code that is an array are taken, a severity in words
is not. -/
theorem accepted_iff_gradable_odd :
    (∃ p, ofNotification (publishing (.int 99) (.arr [.bool true])) = .ok (.published p)) ∧
      ¬ ∃ p, ofNotification (publishing (.str "high") .null) = .ok (.published p) := by
  have hread : ∃ p, ofNotification (publishing (.int 1) (.str "E1")) = .ok (.published p) :=
    ⟨_, rfl⟩
  obtain ⟨p, hp⟩ := hread
  have hmethod (severity code : Json) :
      (publishing severity code).method = (publishing (.int 1) (.str "E1")).method := rfl
  constructor
  · refine (accepted_iff_gradable hp (hmethod _ _) (regrades_publishing _ _ _ _)).1.2 ?_
    decide
  · rw [(accepted_iff_gradable hp (hmethod _ _) (regrades_publishing _ _ _ _)).1]
    decide

end ServerNotification
end LanguageClient
