import LanguageClient.Proofs.Session.Deed
import LanguageClient.Proofs.Session.Lifecycle

/-!
# How documents are named on the wire

One document can be named by paths that are written differently, such as `/a/b` and `/a//b`, and a
session takes them for the same. The URI in a message is made of the path as it is written where the
message comes from: in the action, in the request that is answered, or where a view was bound. So all
messages about a document name it, but they carry the URI that the document was opened with exactly
when they come from a path that is written as in the opening (`Turn.uri?_eq_opened_iff`).
-/

namespace LanguageClient

namespace Moment

/-- The messages that are written to one launch of a server at a moment. -/
def writes (mo : Moment) (id : ConnectionId) : List Json := Turn.messagesTo id mo.done

/-- Whether a moment writes a message about a document, whose path is written in this way there. -/
structure Addresses (mo : Moment) (id : ConnectionId) (m : Json) (path : Path) : Prop where
  written : m ∈ mo.writes id
  spells : mo.Spells path
  uri : Mirror.uri? m = some (Uri.ofPath path)

variable {named : Path → Prop} {mo : Moment} {path : Path}

/-- What a moment is about was named by the host. -/
theorem Occurs.named_of_spells (h : mo.Occurs named) (ht : mo.before.Regular named)
    (hspells : mo.Spells path) : named path := by
  cases h with
  | hears hc => exact hspells.elim
  | @acts t identity c item rest hc awaits =>
    cases item with
    | response request outcome =>
      rcases hspells with hpath | ⟨-, hpath⟩
      · exact awaits.asked request outcome path List.mem_cons_self hpath
      · obtain ⟨view, -, hview⟩ := Option.bind_eq_some_iff.1 hpath
        exact ht.coherent.viewed view path hview
    | notification n => exact hspells.elim
    | messageRequest m => exact hspells.elim
  | @moves t m names silent =>
    cases m with
    | event launch e =>
      cases e with
      | action a =>
        rcases hspells with hpath | hpath
        · exact names path hpath
        · obtain ⟨view, -, hview⟩ := Option.bind_eq_some_iff.1 hpath
          exact ht.coherent.viewed view path hview
      | _ => exact hspells.elim
    | edit other changes cursor selection =>
      obtain rfl : other = path := hspells
      exact names
    | _ => exact hspells.elim

end Moment

namespace Turn

variable {named : Path → Prop} {mo : Moment} {t t' : Turn} {path : Path} {place : Place}
  {id : ConnectionId} {m : Json} {ms : List Moment} {earlier later : List Json}

/-- Whether an effect is no message about a document, or names it as the moment does. -/
def Addressed (mo : Moment) (e : Effect) : Prop :=
  ∀ id m, e = .write id m →
    Lifecycle.place? m = none ∨ ∃ path, mo.Spells path ∧ Mirror.uri? m = some (Uri.ofPath path)

theorem Usual.addressed {e : Effect} (h : Usual mo.Spells t e) : Addressed mo e := by
  intro id m heq
  cases h with
  | remarks | replaces | halts => cases heq
  | replies id' r =>
    cases heq
    exact .inl (Lifecycle.place?_response r)
  | speaks hc active spells about =>
    cases heq
    exact .inr ⟨_, spells, about.uri⟩

/-- Messages that speak of no document name none. -/
theorem addressed_of_writes {messages : List Json} (h : ∀ m ∈ messages, Lifecycle.place? m = none)
    {e : Effect} (he : e ∈ messages.map (.write id)) : Addressed mo e := by
  obtain ⟨m, hm, rfl⟩ := List.mem_map.1 he
  intro id' m' heq
  cases heq
  exact .inl (h m hm)

/-- What writes no message names no document. -/
theorem addressed_of_ne {e : Effect} (h : ∀ id m, e ≠ .write id m) : Addressed mo e :=
  fun id m heq => absurd heq (h id m)

theorem addressed_tells {α : Type} (l : List α) (f : α → Callback) {e : Effect}
    (he : e ∈ l.map fun a => .tell (f a)) : Addressed mo e := by
  obtain ⟨a, -, rfl⟩ := List.mem_map.1 he
  exact addressed_of_ne fun _ _ => nofun

/-- Whatever a deed writes about a document names it as the moment does. -/
theorem Deed.addressed (h : Deed named mo t t') :
    ∃ more, t'.effects = t.effects ++ more ∧ ∀ e ∈ more, Addressed mo e := by
  cases h with
  | routine h regular =>
    obtain ⟨more, heffects, hmore⟩ := h.effects
    exact ⟨more, heffects, fun e he => (hmore e he).addressed⟩
  | @publishes identity p hmo =>
    cases h : t.accepts identity p with
    | true =>
      rw [published_of_accepts h]
      exact ⟨_, rfl, fun e => addressed_tells _ _⟩
    | false =>
      rw [published_of_not_accepts h]
      exact ⟨[], by simp, by simp⟩
  | binds | unbinds => exact ⟨[], (List.append_nil _).symm, by simp⟩
  | @shows view identity diagnostics handles =>
    exact ⟨[_], rfl, List.forall_mem_singleton.2 (addressed_of_ne fun _ _ => nofun)⟩
  | @launches config free =>
    exact ⟨[_], rfl, List.forall_mem_singleton.2 (addressed_of_ne fun _ _ => nofun)⟩
  | @enters config wireOpen free =>
    refine ⟨_, List.append_assoc _ _ _, List.forall_mem_append.2 ⟨?_, fun e => ?_⟩⟩
    · exact List.forall_mem_singleton.2 (addressed_of_ne fun _ _ => nofun)
    · refine addressed_of_writes fun m hm => ?_
      obtain ⟨-, rfl⟩ := Connection.mem_asked hm
      exact Lifecycle.place?_handshake _ _ _ _
  | @greets identity c request result capabilities info hmo hc pending answered wire method read =>
    refine ⟨_, List.append_assoc _ _ _, List.forall_mem_append.2 ⟨fun e => ?_, ?_⟩⟩
    · exact addressed_of_writes fun m => Connection.place?_of_mem_greetings
    · exact List.forall_mem_singleton.2 (addressed_of_ne fun _ _ => nofun)
  | @ends identity c messages hc h =>
    have hwritten : (t.write c.id messages).connection identity = some c := hc
    rw [teardown_eq hwritten]
    refine ⟨_, List.append_assoc _ _ _, List.forall_mem_append.2 ⟨fun e => ?_, ?_⟩⟩
    · refine addressed_of_writes fun m hm => ?_
      rcases h with rfl | rfl
      · cases hm
      · exact Connection.place?_of_mem_shutdown hm
    · exact List.forall_mem_cons.2
        ⟨addressed_of_ne fun _ _ => nofun, fun e => addressed_tells _ _⟩

/-- Whatever is written about a document at a moment names it as the moment does. -/
theorem addresses_of_mem_writes (ht : mo.before.Regular (·.isAbsolute = true))
    (hmo : mo.Occurs (·.isAbsolute = true)) (hm : m ∈ mo.writes id)
    (hplace : Lifecycle.place? m = some place) :
    ∃ path, mo.Addresses id m path ∧ path.isAbsolute = true ∧ path.place = place := by
  have hnamed := (effects_of_occurs (Q := Addressed mo) ht hmo fun _ _ _ hdeed => hdeed.addressed).2
  rcases hnamed _ (mem_messagesTo.1 hm) id m rfl with hnone | ⟨path, hspells, huri⟩
  · rw [hnone] at hplace
    cases hplace
  · have habsolute := hmo.named_of_spells ht hspells
    refine ⟨path, ⟨hm, hspells, huri⟩, habsolute, ?_⟩
    rw [Lifecycle.place?_of_uri? habsolute huri] at hplace
    exact Option.some.inj hplace

/-! ## The moments of messages -/

theorem messagesTo_flatMap (id : ConnectionId) (ms : List Moment) :
    messagesTo id (ms.flatMap Moment.done) = ms.flatMap (·.writes id) :=
  List.filterMap_flatMap

/-- Each of the messages that are written at some moments is written at one of them. -/
theorem exists_moment (h : ms.flatMap (·.writes id) = earlier ++ m :: later) :
    ∃ ms' mo xs, ms' ++ [mo] <+: ms ∧ xs ++ [m] <+: mo.writes id ∧
      earlier = ms'.flatMap (·.writes id) ++ xs := by
  induction ms generalizing earlier with
  | nil => simp at h
  | cons mo ms ih =>
    have hlater : ∀ earlier', ms.flatMap (·.writes id) = earlier' ++ m :: later →
        earlier = mo.writes id ++ earlier' → ∃ ms' mo' xs, ms' ++ [mo'] <+: mo :: ms ∧
          xs ++ [m] <+: mo'.writes id ∧ earlier = ms'.flatMap (·.writes id) ++ xs := by
      intro earlier' h' heq
      obtain ⟨ms', mo', xs, hms, hxs, hearlier⟩ := ih h'
      refine ⟨mo :: ms', mo', xs, ?_, hxs, ?_⟩
      · exact List.cons_prefix_cons.2 ⟨rfl, hms⟩
      · rw [heq, hearlier, List.flatMap_cons, List.append_assoc]
    rw [List.flatMap_cons, List.append_eq_append_iff] at h
    rcases h with ⟨earlier', heq, h'⟩ | ⟨here, heq, h'⟩
    · exact hlater earlier' h' heq
    · cases here with
      | nil =>
        rw [List.append_nil] at heq
        exact hlater [] h'.symm (by rw [heq, List.append_nil])
      | cons first here =>
        obtain ⟨rfl, -⟩ := List.cons.inj h'
        refine ⟨[], mo, earlier, ?_, ?_, rfl⟩
        · exact List.cons_prefix_cons.2 ⟨rfl, List.nil_prefix⟩
        · rw [heq]
          exact ⟨here, by simp⟩

/-! ## Runs -/

/-- **A message about a document names it as its path is written where the message comes from.**
After every run in which the host names absolute paths, each message about a document was written at
a moment of the course that is about this document and spells its path as the message does; while the
document is open, this is the URI that it was opened with exactly when the moment at which it was
opened spelled the path in the same way. -/
theorem uri?_eq_opened_iff {root : Path} {settings : Settings} {processId : Nat} {catalog : Catalog}
    {buffers : Buffers} {moves : List Move}
    (hmoves : ∀ m ∈ moves, m.Names (·.isAbsolute = true))
    (hwritten : (run ⟨.new root settings processId catalog, buffers, []⟩ moves).writtenTo id =
      earlier ++ m :: later) (hplace : Lifecycle.place? m = some place) :
    ∃ ms mo path, ms ++ [mo] <+: course ⟨.new root settings processId catalog, buffers, []⟩ moves ∧
      ms.flatMap (·.writes id) <+: earlier ∧
      earlier ++ [m] <+: (ms ++ [mo]).flatMap (·.writes id) ∧
      mo.Addresses id m path ∧ path.place = place ∧
      ∀ uri, Address.opened place earlier = some uri →
        ∃ mo' ∈ ms ++ [mo], ∃ m' ∈ earlier, ∃ path', Mirror.method? m' = some Wire.didOpen ∧
          Mirror.uri? m' = some uri ∧ mo'.Addresses id m' path' ∧ path'.place = place ∧
          (Mirror.uri? m = some uri ↔ path = path') := by
  have hstart : Regular (·.isAbsolute = true)
      ⟨.new root settings processId catalog, buffers, []⟩ :=
    regular_new root settings processId catalog buffers
  have hleads := leads_course hstart.coherent hmoves
  have hall := hleads.effects_eq hstart
  rw [List.nil_append] at hall
  rw [writtenTo_eq, hall, messagesTo_flatMap] at hwritten
  obtain ⟨ms, mo, xs, hms, hxs, hearlier⟩ := exists_moment hwritten
  have hmem : ∀ mo' ∈ ms ++ [mo], mo'.Occurs (·.isAbsolute = true) ∧
      mo'.before.Regular (·.isAbsolute = true) :=
    fun mo' hmo' => hleads.mem hstart (hms.subset hmo')
  obtain ⟨hoccurs, hregular⟩ := hmem mo (by simp)
  have hwrites : m ∈ mo.writes id := hxs.subset (by simp)
  obtain ⟨path, haddresses, habsolute, hpath⟩ :=
    addresses_of_mem_writes hregular hoccurs hwrites hplace
  refine ⟨ms, mo, path, hms, ?_, ?_, haddresses, hpath, fun uri hopened => ?_⟩
  · rw [hearlier]
    exact List.prefix_append _ _
  · rw [hearlier, List.append_assoc, List.flatMap_append, List.prefix_append_right_inj]
    simpa using hxs
  -- the opening is one of the messages before, and was written at this moment or an earlier one
  · obtain ⟨m', hm', hplace', hmethod, huri⟩ := Address.mem_of_opened hopened
    have hmoment : ∃ mo' ∈ ms ++ [mo], m' ∈ mo'.writes id := by
      rw [hearlier, List.mem_append, List.mem_flatMap] at hm'
      rcases hm' with ⟨mo', hmo', hm'⟩ | hm'
      · exact ⟨mo', List.mem_append_left _ hmo', hm'⟩
      · exact ⟨mo, by simp, hxs.subset (List.mem_append_left _ hm')⟩
    obtain ⟨mo', hmo', hwrites'⟩ := hmoment
    obtain ⟨hoccurs', hregular'⟩ := hmem mo' hmo'
    obtain ⟨path', haddresses', habsolute', hpath'⟩ :=
      addresses_of_mem_writes hregular' hoccurs' hwrites' hplace'
    refine ⟨mo', hmo', m', hm', path', hmethod, huri, haddresses', hpath', ?_⟩
    rw [haddresses.uri, ← huri, haddresses'.uri, Option.some_inj]
    constructor
    · exact Uri.ofPath_injective habsolute habsolute'
    · rintro rfl
      rfl

end Turn

namespace Sample

/-- The small run opens its document, and then an edit writes its path with one stroke more. -/
def respelled : List Move := opening ++ [.edit ⟨"//a"⟩ [.full "y"] 0 none]

theorem names_respelled : ∀ m ∈ respelled, m.Names (·.isAbsolute = true) := by
  intro m hm
  simp only [respelled, opening, List.cons_append, List.nil_append, List.mem_cons,
    List.not_mem_nil, or_false] at hm
  rcases hm with rfl | rfl | rfl | rfl
  · intro path hpath
    cases hpath
  · trivial
  · intro path hpath
    obtain rfl := Option.some.inj hpath
    rfl
  · show Path.isAbsolute _ = true
    decide

/-- What the server of the small run is told of the edit carries another URI than the opening. -/
theorem written_respelled : ∃ earlier m, (start.run respelled).writtenTo 1 = earlier ++ [m] ∧
    Lifecycle.place? m = some path.place ∧ Mirror.method? m = some Wire.didChange ∧
    Mirror.uri? m = some "file:////a" ∧ Address.opened path.place earlier = some "file:///a" := by
  have hlast : ((start.run respelled).writtenTo 1).getLast?.map
      (fun m => (Lifecycle.place? m, Mirror.method? m, Mirror.uri? m)) =
        some (some path.place, some Wire.didChange, some "file:////a") := by
    decide +kernel
  have hopened : Address.opened path.place ((start.run respelled).writtenTo 1).dropLast =
      some "file:///a" := by
    decide +kernel
  obtain ⟨m, hm, hfacts⟩ := Option.map_eq_some_iff.1 hlast
  obtain ⟨hplace, hfacts⟩ := Prod.mk.inj hfacts
  obtain ⟨hmethod, huri⟩ := Prod.mk.inj hfacts
  obtain ⟨earlier, hwritten⟩ := List.getLast?_eq_some_iff.1 hm
  rw [hwritten, List.dropLast_concat] at hopened
  exact ⟨earlier, m, hwritten, hplace, hmethod, huri, hopened⟩

end Sample

namespace Turn

theorem uri?_eq_opened_iff_respelled :
    ∃ earlier m, (∀ m ∈ Sample.respelled, m.Names (·.isAbsolute = true)) ∧
      (Sample.start.run Sample.respelled).writtenTo 1 = earlier ++ [m] ∧
      Lifecycle.place? m = some Sample.path.place ∧
      ∃ ms mo path, ms ++ [mo] <+: Sample.start.course Sample.respelled ∧
        ms.flatMap (·.writes 1) <+: earlier ∧
        earlier ++ [m] <+: (ms ++ [mo]).flatMap (·.writes 1) ∧
        mo.Addresses 1 m path ∧ path.place = Sample.path.place ∧
        ∀ uri, Address.opened Sample.path.place earlier = some uri →
          ∃ mo' ∈ ms ++ [mo], ∃ m' ∈ earlier, ∃ path', Mirror.method? m' = some Wire.didOpen ∧
            Mirror.uri? m' = some uri ∧ mo'.Addresses 1 m' path' ∧
            path'.place = Sample.path.place ∧ (Mirror.uri? m = some uri ↔ path = path') := by
  obtain ⟨earlier, m, hwritten, hplace, -, -, -⟩ := Sample.written_respelled
  exact ⟨earlier, m, Sample.names_respelled, hwritten, hplace,
    uri?_eq_opened_iff Sample.names_respelled hwritten hplace⟩

/-- Not every message about an open document carries the URI that it was opened with: of two ways to
write one path, an edit may use the other. -/
theorem not_uri?_eq_opened : ¬ ∀ moves : List Move, (∀ m ∈ moves, m.Names (·.isAbsolute = true)) →
    ∀ id earlier m later place uri,
      (Sample.start.run moves).writtenTo id = earlier ++ m :: later →
      Lifecycle.place? m = some place → Address.opened place earlier = some uri →
      Mirror.uri? m = some uri := by
  intro h
  obtain ⟨earlier, m, hwritten, hplace, -, huri, hopened⟩ := Sample.written_respelled
  have hsame := h Sample.respelled Sample.names_respelled 1 earlier m [] Sample.path.place
    "file:///a" hwritten hplace hopened
  rw [huri] at hsame
  exact absurd (Option.some.inj hsame) (by decide)

end Turn
end LanguageClient
