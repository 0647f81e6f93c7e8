import LanguageClient.Proofs.Session.Portions
import LanguageClient.Proofs.Session.Routing

/-!
# Servers beside a broken wire

What an action of the host makes the session write to one server, when the wire to another one has
just broken. Two turns that differ in the wire of one connection alone and in what was written to it
are `Severed`. Servers are kept informed of documents one by one, and each goes its own way
(`Turn.inform`), so that the two turns stay so while views and documents are opened, changed, saved
and closed (`Severed.act`). Requests are sent in order of identity up to the first server that
cannot be reached: a broken wire keeps a request from all servers behind it (`Turn.Starves`), and
this is all that it keeps from another server (`Turn.writtenTo_act_cut_iff`).
-/

namespace LanguageClient

/-- The connection with its wire broken. -/
def Connection.severed (c : Connection) : Connection := { c with wireOpen := false }

theorem Connection.inquiry_ne_nil (c : Connection) (kind : RequestKind) (path : Path)
    (params : Json) (text : String) : c.inquiry kind path params text ≠ [] := by
  simp [inquiry]

namespace Turn

variable {named : Path → Prop} {t t' u : Turn} {key identity : String} {id : ConnectionId}
  {path : Path} {c d : Connection}

/-! ## Informing one server -/

/-- Informs a server of something about its documents, if there is something to say. -/
def inform (t : Turn) (identity : String)
    (news : Connection → Option (Notification × DocumentTable)) : Turn :=
  match t.connection identity with
  | none => t
  | some c =>
    match news c with
    | none => t
    | some (n, documents) => t.advance identity { c with documents := documents } (c.sent n)

/-- What an active server that takes a document and does not have it is told. -/
def opening (t : Turn) (path : Path) (c : Connection) : Option (Notification × DocumentTable) :=
  if !c.isActive || c.documents.isOpen path || !c.config.serves path then none
  else (t.bufferText path).bind fun text =>
    c.documents.openDocument path text (path.language.getD "plaintext")

/-- What an active server that has a document open is told of changes to it. -/
def changing (t : Turn) (identity : String) (path : Path) (changes : List ContentChange)
    (c : Connection) : Option (Notification × DocumentTable) :=
  if !c.isActive || !c.documents.isOpen path then none
  else (t.changesFor (CapabilityTable.sync t.session.capabilities identity).change path
    changes).bind (c.documents.change path)

/-- What an active server that takes a document is told of its save. -/
def saving (t : Turn) (identity : String) (path : Path) (c : Connection) :
    Option (Notification × DocumentTable) :=
  if !c.isActive || !c.config.serves path then none
  else
    let text := if (CapabilityTable.sync t.session.capabilities identity).includeText then
      t.bufferText path else none
    some (DocumentTable.save path text, c.documents)

theorem openDocument_eq_inform (t : Turn) (identity : String) (path : Path) :
    t.openDocument identity path = t.inform identity (t.opening path) := by
  unfold openDocument inform
  cases t.connection identity with
  | none => rfl
  | some c =>
    dsimp only [opening]
    split
    · rfl
    · cases t.bufferText path with
      | none => rfl
      | some text =>
        simp only [notify_keep, Option.bind_some]
        rfl

theorem closeDocument_eq_inform (t : Turn) (path : Path) (identity : String) :
    t.closeDocument path identity = t.inform identity (·.documents.close path) := by
  simp only [closeDocument, inform, notify_keep]
  rfl

theorem syncChangesTo_eq_inform (t : Turn) (path : Path) (changes : List ContentChange)
    (identity : String) :
    t.syncChangesTo path changes identity =
      t.inform identity (t.changing identity path changes) := by
  unfold syncChangesTo inform
  cases t.connection identity with
  | none => rfl
  | some c =>
    dsimp only [changing]
    split
    · rfl
    · cases t.changesFor (CapabilityTable.sync t.session.capabilities identity).change path
        changes with
      | none => rfl
      | some wanted =>
        simp only [notify_keep, Option.bind_some]
        rfl

theorem savedTo_eq_inform (t : Turn) (path : Path) (identity : String) :
    t.savedTo path identity = t.inform identity (t.saving identity path) := by
  unfold savedTo inform
  cases hc : t.connection identity with
  | none => rfl
  | some c =>
    dsimp only [saving]
    split
    · rfl
    · dsimp only
      rw [← notify_keep]
      change _ = (t.keep identity c).notify c _
      rw [keep_of_connection hc]

theorem viewClosed_eq_match (t : Turn) (view : ViewId) : t.viewClosed view =
    match t.session.views.unbind view with
    | none => t.withFocus (if t.session.focused = some view then none else t.session.focused)
    | some ((path, last), views) =>
      let u := (t.withFocus (if t.session.focused = some view then none
        else t.session.focused)).withViews views
      if last then u.shut path else u :=
  rfl

theorem viewFocused_eq_match (t : Turn) (view : ViewId) : t.viewFocused view =
    match t.session.views.pathOf view with
    | some path => (t.withFocus (some view)).openEverywhere path
    | none => t.withFocus (some view) :=
  rfl

/-! ## Two turns, in one of which a wire is broken -/

/-- Whether a turn is another one but for the wire to one server, which is broken, and what was
written to it. -/
structure Severed (key : String) (id : ConnectionId) (t t' : Turn) : Prop where
  session : t'.session =
    { t.session with connections := t.session.connections.modify key Connection.severed }
  buffers : t'.buffers = t.buffers
  written : ∀ other, other ≠ id → t'.writtenTo other = t.writtenTo other
  known : ∀ c, t.connection key = some c → c.id = id

namespace Severed

theorem connection (h : Severed key id t t') (identity : String) : t'.connection identity =
    if key = identity then (t.connection key).map Connection.severed
    else t.connection identity := by
  change t'.session.connections.get? identity = _
  rw [h.session]
  exact Table.get?_modify t.session.connections key identity Connection.severed

theorem identities (h : Severed key id t t') : t'.identities = t.identities := by
  refine Table.keys_eq_of_contains fun identity => ?_
  have hconnection := h.connection identity
  change t'.session.connections.get? identity = _ at hconnection
  rw [Table.contains, hconnection]
  split
  · next hkey =>
    rw [Option.isSome_map, hkey]
    rfl
  · rfl

theorem bufferText (h : Severed key id t t') : t'.bufferText = t.bufferText := by
  funext path
  rw [Turn.bufferText, buffer, h.buffers]
  rfl

/-! ### What is changed -/

theorem withFocus (h : Severed key id t t') (focused : Option ViewId) :
    Severed key id (t.withFocus focused) (t'.withFocus focused) :=
  ⟨by simp only [Turn.withFocus, h.session], h.buffers, h.written, h.known⟩

theorem withViews (h : Severed key id t t') (views : ViewTable) :
    Severed key id (t.withViews views) (t'.withViews views) :=
  ⟨by simp only [Turn.withViews, h.session], h.buffers, h.written, h.known⟩

theorem withDiagnostics (h : Severed key id t t') (diagnostics : DiagnosticStore) :
    Severed key id (t.withDiagnostics diagnostics) (t'.withDiagnostics diagnostics) :=
  ⟨by simp only [Turn.withDiagnostics, h.session], h.buffers, h.written, h.known⟩

theorem tell (h : Severed key id t t') (cb : Callback) :
    Severed key id (t.tell cb) (t'.tell cb) := by
  refine ⟨h.session, h.buffers, fun other hother => ?_, h.known⟩
  rw [writtenTo, written_tell, writtenTo, written_tell]
  exact h.written other hother

theorem advance_self (h : Severed key id t t') (hc : t.connection key = some c)
    (hid : d.id = c.id) (messages : List Json) :
    Severed key id (t.advance key d messages) (t'.advance key d.severed []) := by
  have hd : d.id = id := hid.trans (h.known c hc)
  refine ⟨?_, h.buffers, fun other hother => ?_, fun e he => ?_⟩
  · simp only [Turn.advance, keep, write, h.session, Table.modify_set, if_true]
  · have hleft := writtenTo_of_written_eq_of_ne (written_advance t key d messages)
      (hd ▸ Ne.symm hother)
    have hright : (t'.advance key d.severed []).writtenTo other = t'.writtenTo other :=
      writtenTo_of_written_eq_of_ne (written_advance t' key d.severed []) (hd ▸ Ne.symm hother)
    rw [hleft, hright, h.written other hother]
  · rw [connection_advance, if_pos rfl] at he
    cases he
    exact hd

theorem advance_of_ne (h : Severed key id t t') (hne : key ≠ identity) (d : Connection)
    (messages : List Json) :
    Severed key id (t.advance identity d messages) (t'.advance identity d messages) := by
  refine ⟨?_, h.buffers, fun other hother => ?_, fun e he => ?_⟩
  · simp only [Turn.advance, keep, write, h.session, Table.modify_set, if_neg hne]
  · by_cases hd : d.id = other
    · subst hd
      rw [writtenTo_of_written_eq_self (written_advance t identity d messages),
        writtenTo_of_written_eq_self (written_advance t' identity d messages), h.written _ hother]
    · rw [writtenTo_of_written_eq_of_ne (written_advance t identity d messages) hd,
        writtenTo_of_written_eq_of_ne (written_advance t' identity d messages) hd,
        h.written other hother]
  · rw [connection_advance, if_neg (Ne.symm hne)] at he
    exact h.known e he

/-- **What one server is told of, another one does not have to hear of.** -/
theorem inform (h : Severed key id t t')
    {news : Connection → Option (Notification × DocumentTable)}
    (hnews : ∀ c, news c.severed = news c) (identity : String) :
    Severed key id (t.inform identity news) (t'.inform identity news) := by
  have hconnection := h.connection identity
  unfold Turn.inform
  by_cases hkey : key = identity
  · subst hkey
    rw [if_pos rfl] at hconnection
    rw [hconnection]
    cases hc : t.connection key with
    | none => exact h
    | some c =>
      dsimp only [Option.map_some]
      rw [hnews]
      cases news c with
      | none => exact h
      | some told =>
        obtain ⟨n, documents⟩ := told
        have hsent : c.severed.sent n = [] :=
          Connection.sent_of_not_accepts (by simp [Connection.accepts, Connection.severed]) n
        dsimp only
        rw [hsent]
        exact h.advance_self (d := { c with documents := documents }) hc rfl _
  · rw [if_neg hkey] at hconnection
    rw [hconnection]
    cases t.connection identity with
    | none => exact h
    | some c =>
      dsimp only
      cases news c with
      | none => exact h
      | some told => exact h.advance_of_ne hkey _ _

theorem foldl {α : Type} {f : Turn → α → Turn}
    (hf : ∀ {u u'} a, Severed key id u u' → Severed key id (f u a) (f u' a)) (l : List α)
    (h : Severed key id t t') : Severed key id (l.foldl f t) (l.foldl f t') := by
  induction l generalizing t t' with
  | nil => exact h
  | cons a l ih => exact ih (hf a h)

/-! ### What the host does -/

theorem openDocument (h : Severed key id t t') (identity : String) (path : Path) :
    Severed key id (t.openDocument identity path) (t'.openDocument identity path) := by
  have hsame : t'.opening path = t.opening path := by
    funext c
    rw [opening, opening, h.bufferText]
  rw [openDocument_eq_inform, openDocument_eq_inform, hsame]
  exact h.inform (fun _ => rfl) identity

theorem openEverywhere (h : Severed key id t t') (path : Path) :
    Severed key id (t.openEverywhere path) (t'.openEverywhere path) := by
  rw [Turn.openEverywhere, Turn.openEverywhere, h.identities]
  exact h.foldl (fun identity hu => hu.openDocument identity path) _

theorem syncChanges (h : Severed key id t t') (path : Path) (changes : List ContentChange) :
    Severed key id (t.syncChanges path changes) (t'.syncChanges path changes) := by
  rw [Turn.syncChanges, Turn.syncChanges, h.identities]
  refine h.foldl (fun {u u'} identity hu => ?_) _
  have hsame : u'.changing identity path changes = u.changing identity path changes := by
    funext c
    simp only [changing, changesFor, hu.bufferText, hu.session]
  rw [syncChangesTo_eq_inform, syncChangesTo_eq_inform, hsame]
  exact hu.inform (fun _ => rfl) identity

theorem saved (h : Severed key id t t') (path : Path) :
    Severed key id (t.saved path) (t'.saved path) := by
  rw [Turn.saved, Turn.saved, h.identities]
  refine h.foldl (fun {u u'} identity hu => ?_) _
  have hsame : u'.saving identity path = u.saving identity path := by
    funext c
    simp only [saving, hu.bufferText, hu.session]
  rw [savedTo_eq_inform, savedTo_eq_inform, hsame]
  exact hu.inform (fun _ => rfl) identity

theorem shut (h : Severed key id t t') (path : Path) :
    Severed key id (t.shut path) (t'.shut path) := by
  have hclosed : Severed key id (t.identities.foldl (closeDocument · path) t)
      (t'.identities.foldl (closeDocument · path) t') := by
    rw [h.identities]
    refine h.foldl (fun identity hu => ?_) _
    rw [closeDocument_eq_inform, closeDocument_eq_inform]
    exact hu.inform (fun _ => rfl) identity
  rw [Turn.shut, Turn.shut, hclosed.session]
  exact hclosed.withDiagnostics _

theorem viewClosed (h : Severed key id t t') (view : ViewId) :
    Severed key id (t.viewClosed view) (t'.viewClosed view) := by
  have hfocused : t'.session.focused = t.session.focused := by rw [h.session]
  have hviews : t'.session.views = t.session.views := by rw [h.session]
  have hunfocused :=
    h.withFocus (if t.session.focused = some view then none else t.session.focused)
  rw [viewClosed_eq_match, viewClosed_eq_match, hfocused, hviews]
  cases t.session.views.unbind view with
  | none => exact hunfocused
  | some unbound =>
    obtain ⟨⟨path, last⟩, views⟩ := unbound
    have hunbound := hunfocused.withViews views
    cases last with
    | false => exact hunbound
    | true => exact hunbound.shut path

theorem showKnownDiagnostics (h : Severed key id t t') (view : ViewId) (path : Path) :
    Severed key id (t.showKnownDiagnostics view path) (t'.showKnownDiagnostics view path) := by
  have hdiagnostics : t'.session.diagnostics = t.session.diagnostics := by rw [h.session]
  rw [Turn.showKnownDiagnostics, Turn.showKnownDiagnostics, h.bufferText, hdiagnostics]
  exact foldl (f := fun u known => u.tell (.setDiagnostics view known.1
      (known.2.map (·.render ((t.bufferText path).map String.toList)))))
    (fun known hu => hu.tell _) (t.session.diagnostics.forPath path) h

theorem bindView (h : Severed key id t t') (view : ViewId) (path : Path) :
    Severed key id (t.bindView view path) (t'.bindView view path) := by
  have hviews : t'.session.views = t.session.views := by rw [h.session]
  have hbound := h.withViews (t.session.views.bind view path).2
  rw [Turn.bindView, Turn.bindView, hviews]
  refine showKnownDiagnostics ?_ view path
  split
  · exact hbound.openEverywhere path
  · exact hbound

theorem viewOpened (h : Severed key id t t') (view : ViewId) (path : Path) :
    Severed key id (t.viewOpened view path) (t'.viewOpened view path) := by
  have hviews : t'.session.views = t.session.views := by rw [h.session]
  unfold Turn.viewOpened
  rw [hviews]
  cases t.session.views.pathOf view with
  | none => exact h.bindView view path
  | some bound =>
    dsimp only
    by_cases hplace : bound.place = path.place
    · rw [if_pos hplace, if_pos hplace]
      exact h.bindView view path
    · rw [if_neg hplace, if_neg hplace]
      exact (h.viewClosed view).bindView view path

theorem viewFocused (h : Severed key id t t') (view : ViewId) :
    Severed key id (t.viewFocused view) (t'.viewFocused view) := by
  have hviews : t'.session.views = t.session.views := by rw [h.session]
  have hfocus := h.withFocus (some view)
  rw [viewFocused_eq_match, viewFocused_eq_match, hviews]
  cases t.session.views.pathOf view with
  | none => exact hfocus
  | some path => exact hfocus.openEverywhere path

theorem resync (h : Severed key id t t') (path : Path) :
    Severed key id (t.orReport (t.resync path)) (t'.orReport (t'.resync path)) := by
  rw [Turn.resync, Turn.resync, h.bufferText]
  cases t.bufferText path with
  | none => exact h.tell _
  | some text => exact h.syncChanges path _

end Severed

/-! ## What the host does with documents -/

end Turn

/-- Whether an action is about views and documents and asks nothing. -/
def Action.Tells : Action → Prop
  | viewOpened _ _ | viewFocused _ | viewClosed _ | edited _ _ | saved _ | resync _ => True
  | request _ _ | start _ | stop _ | stopAll | showLog _ | lineDiagnostics _ _ => False

namespace Turn

variable {named : Path → Prop} {t t' : Turn} {key : String} {id : ConnectionId}

theorem Severed.act (h : Severed key id t t') (launch : Launcher) {a : Action} (ha : a.Tells) :
    Severed key id (t.act launch a) (t'.act launch a) := by
  cases a with
  | viewOpened view path => exact h.viewOpened view path
  | viewFocused view => exact h.viewFocused view
  | viewClosed view => exact h.viewClosed view
  | edited path changes => exact h.syncChanges path changes
  | saved path => exact h.saved path
  | resync path => exact h.resync path
  | request | start | stop | stopAll | showLog | lineDiagnostics => cases ha

/-! ## Requests -/

variable {kind : RequestKind} {path : Path} {params : Json} {text identity : String}
  {identities : List String} {c d : Connection} {b : Buffer}

/-- Whether a request about a document gets to a server: servers are asked in order of identity, up
to the first that cannot be written to. -/
def Gets (t : Turn) (kind : RequestKind) (path : Path) (identity : String) : Prop :=
  t.Selects kind path identity ∧
    ∀ other, t.Selects kind path other → other ≤ identity → t.Reaches path other

/-- The front of a list as far as all have a property. -/
theorem exists_front {α : Type} (P : α → Prop) (l : List α) :
    ∃ first rest, l = first ++ rest ∧ (∀ a ∈ first, P a) ∧ ∀ a ∈ rest.head?, ¬ P a := by
  induction l with
  | nil => exact ⟨[], [], rfl, by simp, by simp⟩
  | cons a l ih =>
    by_cases ha : P a
    · obtain ⟨first, rest, rfl, hfirst, hrest⟩ := ih
      exact ⟨a :: first, rest, rfl, by simpa [ha] using hfirst, hrest⟩
    · exact ⟨[], a :: l, rfl, by simp, by simpa using ha⟩

theorem mem_front {first rest : List String}
    (hmem : ∀ identity, identity ∈ first ++ rest ↔ t.Selects kind path identity)
    (hsorted : (first ++ rest).Pairwise (· < ·)) (hreaches : ∀ a ∈ first, t.Reaches path a)
    (hstop : ∀ a ∈ rest.head?, ¬ t.Reaches path a) :
    identity ∈ first ↔ t.Gets kind path identity := by
  obtain ⟨-, hrest, hbefore⟩ := List.pairwise_append.1 hsorted
  constructor
  · intro hidentity
    refine ⟨(hmem identity).1 (List.mem_append_left _ hidentity), fun other hother hle => ?_⟩
    rcases List.mem_append.1 ((hmem other).2 hother) with hother | hother
    · exact hreaches other hother
    · exact absurd (hbefore identity hidentity other hother) (String.not_lt.2 hle)
  · rintro ⟨hselects, hupTo⟩
    rcases List.mem_append.1 ((hmem identity).2 hselects) with hidentity | hidentity
    · exact hidentity
    · cases rest with
      | nil => cases hidentity
      | cons stop rest =>
        have hle : stop ≤ identity := by
          rcases List.mem_cons.1 hidentity with rfl | hlater
          · exact String.le_refl _
          · exact String.not_lt.1 (String.lt_asymm ((List.pairwise_cons.1 hrest).1 _ hlater))
        have hasked : t.Selects kind path stop := (hmem stop).1 (by simp)
        exact absurd (hupTo stop hasked hle) (hstop stop rfl)

theorem writtenTo_report (t : Turn) (f : Failure) (id : ConnectionId) :
    (t.report f).writtenTo id = t.writtenTo id := by
  simp [writtenTo, report, notice]

/-- Behind the first server that cannot be written to, nobody is asked. -/
theorem effects_askAll (htext : t.bufferText path = some text)
    (hmem : ∀ identity, identity ∈ identities ↔ t.Selects kind path identity)
    (hsorted : identities.Pairwise (· < ·)) (params : Json) :
    ∃ (first : List String) (more : List Effect), first.Nodup ∧
      (∀ identity, identity ∈ first ↔ t.Gets kind path identity) ∧
      (∀ id, messagesTo id more = []) ∧
      (t.askAll kind path params identities).effects =
        t.effects ++ (first.flatMap (t.inquiries kind path params text) ++ more) := by
  obtain ⟨first, rest, rfl, hreaches, hstop⟩ := exists_front (t.Reaches path) identities
  have hnodup : first.Nodup := (List.pairwise_append.1 hsorted).1.imp String.ne_of_lt
  have hfront : ∀ identity, identity ∈ first ↔ t.Gets kind path identity := fun _ =>
    mem_front hmem hsorted hreaches hstop
  obtain ⟨u, hu, heq⟩ := askAll_append htext hnodup hreaches kind params rest
  rw [heq]
  cases rest with
  | nil =>
    refine ⟨first, [], hnodup, hfront, fun _ => rfl, ?_⟩
    rw [List.append_nil]
    exact hu.effects
  | cons stop rest =>
    have hbroken := hstop stop rfl
    obtain ⟨⟨⟨c, hc, hactive, hserves⟩, -⟩, -⟩ := (hmem stop).1 (by simp)
    have hwire : c.wireOpen = false := by
      by_contra hopen
      exact hbroken ⟨c, hc, hactive, hserves, by simpa using hopen⟩
    have hstands : u.connection stop = some c := by
      rw [hu.connection, if_neg fun hstop => hbroken (hreaches stop hstop), hc]
    obtain ⟨hfailure, hkept⟩ := ask_of_not_accepts hstands
      (by simp [Connection.accepts, hwire]) kind path params
    let f := Failure.notConnected
    refine ⟨first, [.tell (.notify f.level f.message)], hnodup, hfront,
      fun _ => rfl, ?_⟩
    rw [askAll]
    rcases hask : u.ask kind path params stop with ⟨failure, v⟩
    rw [hask] at hfailure hkept
    cases hfailure
    rw [← List.append_assoc, ← hu.effects, ← hkept]
    rfl

/-- A request writes its inquiry to the servers that it gets to, and nothing to the others. -/
theorem writtenTo_request (ht : t.Coherent named) (hc : t.connection identity = some c)
    (hb : t.buffer path = some b) (kind : RequestKind) [Decidable (t.Gets kind path identity)] :
    (t.request kind path).writtenTo c.id = t.writtenTo c.id ++
      if t.Gets kind path identity then
        c.inquiry kind path (requestParams t.session.settings kind path b) b.text
      else [] := by
  have hreport : ∀ f, (∀ identity, ¬ t.Selects kind path identity) →
      (t.report f).writtenTo c.id = t.writtenTo c.id ++ if t.Gets kind path identity then
        c.inquiry kind path (requestParams t.session.settings kind path b) b.text else [] := by
    intro f hnobody
    rw [if_neg fun h => hnobody identity h.1, List.append_nil, writtenTo_report]
  have hchooses := chooses_targets ht kind path
  rw [request]
  cases htargets : t.targets kind path with
  | error e =>
    rw [htargets] at hchooses
    cases hchooses with
    | unserved hunserved => exact hreport _ fun other h => hunserved other h.1.1
    | unable _ hunable => exact hreport _ fun other h => hunable other h.1
  | ok identities =>
    rw [htargets] at hchooses
    cases hchooses with
    | asks _ hmem hsorted =>
      have htext : t.bufferText path = some b.text := by rw [bufferText, hb, Option.map_some]
      obtain ⟨first, more, hnodup, hfirst, hmore, heffects⟩ := effects_askAll htext hmem hsorted
        (requestParams t.session.settings kind path b)
      rw [hb]
      dsimp only
      rw [writtenTo_of_effects heffects, messagesTo_append, hmore, List.append_nil,
        messagesTo_inquiries ht hc hnodup]
      simp only [hfirst]

/-- A request about a document that is not there writes nothing. -/
theorem writtenTo_request_of_missing (hb : t.buffer path = none) (kind : RequestKind)
    (id : ConnectionId) : (t.request kind path).writtenTo id = t.writtenTo id := by
  rw [request]
  cases t.targets kind path with
  | error e => exact writtenTo_report t e id
  | ok identities =>
    rw [hb]
    exact writtenTo_report t _ id

namespace Severed

theorem selects_iff (h : Severed key id t t') :
    t'.Selects kind path identity ↔ t.Selects kind path identity := by
  have hanswers : ∀ other, t'.CanAnswer kind path other ↔ t.CanAnswer kind path other := by
    intro other
    have hcapabilities : t'.session.capabilities = t.session.capabilities := by rw [h.session]
    unfold CanAnswer Advertises Takes
    rw [hcapabilities, h.connection]
    split
    · next hkey =>
      subst hkey
      cases t.connection key with
      | none => rfl
      | some c => simp [Connection.severed, Connection.isActive]
    · rfl
  simp only [Selects, hanswers]

theorem reaches_iff (h : Severed key id t t') :
    t'.Reaches path identity ↔ t.Reaches path identity ∧ identity ≠ key := by
  unfold Reaches
  rw [h.connection]
  by_cases hkey : key = identity
  · subst hkey
    cases t.connection key <;> simp [Connection.severed]
  · simp [hkey, Ne.symm hkey]

/-- A broken wire keeps requests from the servers behind it. -/
theorem gets_iff (h : Severed key id t t') : t'.Gets kind path identity ↔
    t.Gets kind path identity ∧ ¬ (t.Selects kind path key ∧ key ≤ identity) := by
  unfold Gets
  simp only [h.selects_iff, h.reaches_iff]
  constructor
  · rintro ⟨hselects, hall⟩
    refine ⟨⟨hselects, fun other hother hle => (hall other hother hle).1⟩, ?_⟩
    rintro ⟨hkey, hle⟩
    exact (hall key hkey hle).2 rfl
  · rintro ⟨⟨hselects, hall⟩, hfree⟩
    refine ⟨hselects, fun other hother hle => ⟨hall other hother hle, ?_⟩⟩
    rintro rfl
    exact hfree ⟨hother, hle⟩

end Severed

/-! ## A wire that breaks -/

/-- A turn in which the wire of a connection has broken. -/
theorem severed_cut (ht : t.Coherent named) (hc : t.connection c.identity = some c) :
    Severed c.identity c.id t (t.move (.cut c.id)) := by
  have hfind := findById_of_connection ht hc
  have hmoved : t.move (.cut c.id) = { t with session := { t.session with
      connections := t.session.connections.modify c.identity Connection.severed } } := by
    change { t with session := t.session.closeWire c.id } = _
    have hget : t.session.connections.get? c.identity = some c := hc
    rw [Session.closeWire, hfind, Table.modify, hget]
    rfl
  rw [hmoved]
  refine ⟨rfl, rfl, fun _ _ => rfl, fun d hd => ?_⟩
  rw [hc] at hd
  cases hd
  rfl

/-- Whether a request would get to one server if it were not for the wire of another, which is asked
before. -/
def Starves (t : Turn) (a : Action) (c d : Connection) : Prop :=
  ∃ kind path, a = .request kind path ∧ (t.buffer path).isSome = true ∧
    t.Selects kind path c.identity ∧ c.identity < d.identity ∧ t.Gets kind path d.identity

end Turn

/-- Whether an action makes the session tell or ask servers something about documents; a request
whose answer edits the document goes to one server only. -/
def Action.Spreads : Action → Prop
  | request kind _ => kind.editsDocument = false
  | a => a.Tells

namespace Turn

variable {named : Path → Prop} {t t' : Turn} {c d : Connection} {a : Action}

theorem writtenTo_request_cut_iff (ht : t.Coherent named) (hc : t.connection c.identity = some c)
    (hd : t.connection d.identity = some d) (hne : c.identity ≠ d.identity) (kind : RequestKind)
    (path : Path) :
    ((t.move (.cut c.id)).request kind path).writtenTo d.id = (t.request kind path).writtenTo d.id ↔
      ¬ t.Starves (.request kind path) c d := by
  classical
  have hsevered := severed_cut ht hc
  have ht' : (t.move (.cut c.id)).Coherent named := ht.move trivial
  have hd' : (t.move (.cut c.id)).connection d.identity = some d := by
    rw [hsevered.connection, if_neg hne, hd]
  have hwritten : (t.move (.cut c.id)).writtenTo d.id = t.writtenTo d.id := rfl
  have hsettings : (t.move (.cut c.id)).session.settings = t.session.settings := by
    rw [hsevered.session]
  have hb' : (t.move (.cut c.id)).buffer path = t.buffer path := rfl
  have hstarves : t.Starves (.request kind path) c d ↔ (t.buffer path).isSome = true ∧
      t.Selects kind path c.identity ∧ c.identity < d.identity ∧ t.Gets kind path d.identity := by
    constructor
    · rintro ⟨_, _, heq, h⟩
      cases heq
      exact h
    · exact fun h => ⟨kind, path, rfl, h⟩
  cases hb : t.buffer path with
  | none =>
    rw [hb] at hb'
    rw [writtenTo_request_of_missing hb, writtenTo_request_of_missing hb', hstarves, hb]
    simp [hwritten]
  | some b =>
    rw [hb] at hb'
    have hle : c.identity ≤ d.identity ↔ c.identity < d.identity :=
      ⟨fun hle => Std.lt_of_le_of_ne hle hne, Std.le_of_lt⟩
    rw [writtenTo_request ht hd hb, writtenTo_request ht' hd' hb', hwritten, hsettings,
      List.append_cancel_left_eq, hstarves, hb]
    simp only [hsevered.gets_iff, hle, Option.isSome_some, true_and]
    have hsaid := d.inquiry_ne_nil kind path (requestParams t.session.settings kind path b) b.text
    by_cases hgets : t.Gets kind path d.identity
    · by_cases hbehind : t.Selects kind path c.identity ∧ c.identity < d.identity
      · simp [hgets, hbehind, hsaid.symm]
      · simp only [hgets, hbehind, not_false_eq_true, and_self, if_true, true_iff]
        exact fun hstarved => hbehind ⟨hstarved.1, hstarved.2.1⟩
    · simp [hgets]

/-- **The wire to one server keeps from another nothing but requests that it is asked before.** -/
theorem writtenTo_act_cut_iff (h : t.Reached) (hc : t.connection c.identity = some c)
    (hd : t.connection d.identity = some d) (hne : c.identity ≠ d.identity) (launch : Launcher)
    (ha : a.Spreads) :
    ((t.move (.cut c.id)).act launch a).writtenTo d.id = (t.act launch a).writtenTo d.id ↔
      ¬ t.Starves a c d := by
  have ht := h.steady.coherent
  have htells : a.Tells → (((t.move (.cut c.id)).act launch a).writtenTo d.id =
      (t.act launch a).writtenTo d.id ↔ ¬ t.Starves a c d) := by
    intro ha
    have hid : d.id ≠ c.id := fun hid => hne (ht.distinct _ _ d c hd hc hid).symm
    refine iff_of_true (((severed_cut ht hc).act launch ha).written d.id hid) ?_
    rintro ⟨kind, path, rfl, -⟩
    exact ha
  cases a with
  | request kind path => exact writtenTo_request_cut_iff ht hc hd hne kind path
  | _ => exact htells ha

/-- The wire to the first server breaks: the second one still gets to know the document, but it is
not asked. -/
theorem writtenTo_act_cut_hovering :
    let t := Sample.start.run Sample.hovering
    let opens := Action.viewOpened 1 Sample.path
    let asks := Action.request .hover Sample.path
    ∃ c d, t.connection c.identity = some c ∧ t.connection d.identity = some d ∧ c.id = 1 ∧
      d.id = 2 ∧ c.identity ≠ d.identity ∧ opens.Spreads ∧ asks.Spreads ∧
      ((t.move (.cut 1)).act Sample.launch opens).writtenTo 2 =
        (t.act Sample.launch opens).writtenTo 2 ∧
      t.Starves asks c d := by
  intro t opens asks
  have hreached : t.Reached := reached_sample Sample.hovering
  have hfound : (Registry.findById t.session.connections 1).isSome = true ∧
      (Registry.findById t.session.connections 2).isSome = true := by decide +kernel
  obtain ⟨c, hc⟩ := Option.isSome_iff_exists.1 hfound.1
  obtain ⟨d, hd⟩ := Option.isSome_iff_exists.1 hfound.2
  obtain ⟨hc, hcid⟩ := connection_of_findById hreached.steady.coherent hc
  obtain ⟨hd, hdid⟩ := connection_of_findById hreached.steady.coherent hd
  have hne : c.identity ≠ d.identity := by
    intro heq
    rw [heq, hd] at hc
    cases hc
    exact absurd (hcid.symm.trans hdid) (by decide)
  have hopens := writtenTo_act_cut_iff (a := opens) hreached hc hd hne Sample.launch trivial
  have hselects := writtenTo_act_cut_iff (a := asks) hreached hc hd hne Sample.launch rfl
  rw [hcid, hdid] at hopens hselects
  have hlengths : (((t.move (.cut 1)).act Sample.launch asks).writtenTo 2).length = 2 ∧
      ((t.act Sample.launch asks).writtenTo 2).length = 4 := by decide +kernel
  refine ⟨c, d, hc, hd, hcid, hdid, hne, trivial, rfl, hopens.2 ?_, ?_⟩
  · rintro ⟨kind, path, heq, -⟩
    change Action.viewOpened _ _ = _ at heq
    cases heq
  · by_contra hfree
    have hsame := congrArg List.length (hselects.2 hfree)
    rw [hlengths.1, hlengths.2] at hsame
    cases hsame

end Turn
end LanguageClient
