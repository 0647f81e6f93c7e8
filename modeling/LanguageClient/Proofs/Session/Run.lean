import LanguageClient.Proofs.Session.Reaction

/-!
# Runs of a session and its host

A run is a list of moves: the session handles an event, the host edits a document and tells the
session, takes up a document or drops one, or the wire to a server breaks. To handle events one after
another is such a run (`handleAll_eq`). Every turn of a run is coherent (`Coherent.run`), and its
connections continue those of each turn before it (`Coherent.continues_run`).
-/

namespace LanguageClient

/-- What can happen next to a session and its host. -/
inductive Move where
  | event (launch : Launcher) (e : Event)
  /-- The host changes its buffer and tells the session of the changes. -/
  | edit (path : Path) (changes : List ContentChange) (cursor : Nat)
      (selection : Option (Nat × Nat))
  /-- The host's buffer of a document becomes another one, or is no longer there. -/
  | buffer (path : Path) (b : Option Buffer)
  /-- The wire to a server takes no more messages. -/
  | cut (id : ConnectionId)

/-- Whether the documents that a move speaks of were named. -/
def Move.Names (named : Path → Prop) : Move → Prop
  | event _ e => e.Names named
  | edit path _ _ _ => named path
  | buffer _ _ => True
  | cut _ => True

namespace Turn

/-- A turn in which the host has changed its buffer of a document, if it has one. -/
def edit (t : Turn) (path : Path) (changes : List ContentChange) (cursor : Nat)
    (selection : Option (Nat × Nat)) : Turn :=
  match t.buffer path with
  | none => t
  | some b =>
    let text := String.ofList (changes.foldl ContentChange.apply b.text.toList)
    { t with buffers := t.buffers.set path.place ⟨text, cursor, selection⟩ }

/-- A turn in which the host's buffer of a document is another one. -/
def setBuffer (t : Turn) (path : Path) (b : Option Buffer) : Turn :=
  { t with buffers := match b with
    | none => t.buffers.erase path.place
    | some b => t.buffers.set path.place b }

/-- What becomes of a turn by a move. -/
def move (t : Turn) : Move → Turn
  | .event launch e => t.react launch e
  | .edit path changes cursor selection =>
    (t.edit path changes cursor selection).syncChanges path changes
  | .buffer path b => t.setBuffer path b
  | .cut id => { t with session := t.session.closeWire id }

/-- What becomes of a turn by moves one after another. Moves behind a halt are handled like others,
although the session is then at its end: what is proved of a run holds of its part before the halt,
which is a run itself, and says of a program nothing beyond that. -/
def run (t : Turn) (moves : List Move) : Turn := moves.foldl move t

variable {named : Path → Prop} {t t' : Turn}

/-- Where all paths count as named, every move names what it speaks of. -/
theorem names_true (m : Move) : m.Names fun _ => True := by
  cases m with
  | event launch e => cases e <;> simp [Move.Names, Event.Names]
  | edit path changes cursor selection => trivial
  | buffer path b => trivial
  | cut id => trivial

/-! ## What the host changes -/

theorem edit_eq (t : Turn) (path : Path) (changes : List ContentChange) (cursor : Nat)
    (selection : Option (Nat × Nat)) :
    ∃ buffers, t.edit path changes cursor selection = { t with buffers := buffers } := by
  unfold edit
  split
  · exact ⟨t.buffers, rfl⟩
  · exact ⟨_, rfl⟩

theorem Coherent.withBuffers (h : t.Coherent named) (buffers : Buffers) :
    Coherent named { t with buffers := buffers } :=
  h.congr rfl rfl rfl fun _ _ => .inl

/-- A wire that breaks closes for one connection, if there is one with the number. -/
theorem cut_cases (h : t.Coherent named) (id : ConnectionId) :
    t.move (.cut id) = t ∨ ∃ c, t.connection c.identity = some c ∧ c.id = id ∧
      t.move (.cut id) = t.advance c.identity { c with wireOpen := false } [] := by
  cases hfind : Registry.findById t.session.connections id with
  | none =>
    refine .inl ?_
    simp only [move, Session.closeWire, hfind]
  | some c =>
    obtain ⟨hc, hid⟩ := connection_of_findById h hfind
    refine .inr ⟨c, hc, hid, ?_⟩
    simp only [move, Session.closeWire, hfind, advance, keep, write, List.map_nil, List.append_nil]

/-! ## Moves -/

/-- An event is an edit the session is told of, or is reacted to in steps. -/
theorem react_cases (h : t.Coherent named) (launch : Launcher) {e : Event}
    (hnames : e.Names named) :
    (∃ path changes, named path ∧ t.react launch e = t.syncChanges path changes) ∨
      Steps named t (t.react launch e) := by
  cases hedit : e.isEdit with
  | false => exact .inr (steps_react h launch hnames hedit)
  | true =>
    cases e with
    | action a =>
      cases a with
      | edited path changes => exact .inl ⟨path, changes, hnames path rfl, rfl⟩
      | _ => cases hedit
    | _ => cases hedit

/-- What a move comes down to: changes are passed on or the buffers become others, the session takes
steps, or a wire breaks. -/
theorem move_cases (h : t.Coherent named) {m : Move} (hm : m.Names named) :
    (∃ buffers path changes, named path ∧
      t.move m = syncChanges { t with buffers := buffers } path changes) ∨
    (∃ buffers, t.move m = { t with buffers := buffers }) ∨
    Steps named t (t.move m) ∨
    ∃ c, t.connection c.identity = some c ∧
      t.move m = t.advance c.identity { c with wireOpen := false } [] := by
  cases m with
  | event launch e =>
    rcases react_cases h launch hm with ⟨path, changes, name, heq⟩ | hsteps
    · exact .inl ⟨t.buffers, path, changes, name, heq⟩
    · exact .inr (.inr (.inl hsteps))
  | edit path changes cursor selection =>
    obtain ⟨buffers, heq⟩ := edit_eq t path changes cursor selection
    exact .inl ⟨buffers, path, changes, hm, by rw [move, heq]⟩
  | buffer path b => exact .inr (.inl ⟨_, rfl⟩)
  | cut id =>
    rcases cut_cases h id with heq | ⟨c, hc, -, heq⟩
    · exact .inr (.inl ⟨t.buffers, heq⟩)
    · exact .inr (.inr (.inr ⟨c, hc, heq⟩))

theorem Coherent.move (h : t.Coherent named) {m : Move} (hm : m.Names named) :
    (t.move m).Coherent named := by
  rcases move_cases h hm with ⟨buffers, path, changes, -, heq⟩ | ⟨buffers, heq⟩ | hsteps |
    ⟨c, hc, heq⟩
  · rw [heq]
    exact (h.withBuffers buffers).syncChanges path changes
  · rw [heq]
    exact h.withBuffers buffers
  · exact hsteps.coherent h
  · rw [heq]
    have hsound := h.sound _ c hc
    exact h.advance hc rfl rfl ⟨hsound.numbered, hsound.handshake, hsound.asked, hsound.idle,
      hsound.tracked⟩

theorem continues_syncChanges (t : Turn) (path : Path) (changes : List ContentChange) :
    t.Continues (t.syncChanges path changes) :=
  (persists_syncChanges t path changes).continues (nextConnection_syncChanges t path changes)

theorem Coherent.continues_move (h : t.Coherent named) {m : Move} (hm : m.Names named) :
    t.Continues (t.move m) := by
  have hbuffers : ∀ buffers, t.Continues { t with buffers := buffers } := fun _ =>
    Persists.continues (.of_connection rfl) rfl
  rcases move_cases h hm with ⟨buffers, path, changes, -, heq⟩ | ⟨buffers, heq⟩ | hsteps |
    ⟨c, hc, heq⟩
  · rw [heq]
    exact (hbuffers buffers).trans (continues_syncChanges _ path changes)
  · rw [heq]
    exact hbuffers buffers
  · exact hsteps.continues
  · rw [heq]
    -- a wire that is cut off leaves its connection as it stood
    exact continues_advance hc (.of_requests rfl rfl rfl)

/-! ## Runs -/

/-- **Events handled one after another make a run**, so that what holds after runs holds of them. -/
theorem handleAll_eq (s : Session) (buffers : Buffers) (launch : Launcher) (events : List Event) :
    s.handleAll buffers launch events =
      run ⟨s, buffers, []⟩ (events.map (Move.event launch)) := by
  rw [run, List.foldl_map]
  rfl

theorem coherent_new (root : Path) (settings : Settings) (processId : Nat) (catalog : Catalog)
    (buffers : Buffers) :
    Coherent named ⟨.new root settings processId catalog, buffers, []⟩ := by
  have hnone : ∀ identity, connection ⟨.new root settings processId catalog, buffers, []⟩ identity =
      none := fun _ => rfl
  constructor
  case sound =>
    intro identity c hc
    rw [hnone] at hc
    cases hc
  case keyed =>
    intro identity c hc
    rw [hnone] at hc
    cases hc
  case fresh =>
    intro identity c hc
    rw [hnone] at hc
    cases hc
  case distinct =>
    intro identity other c d hc
    rw [hnone] at hc
    cases hc
  case written =>
    intro m hm
    cases hm
  case viewed =>
    intro view path hpath
    cases hpath

/-- **Every turn of a run is coherent.** -/
theorem Coherent.run (h : t.Coherent named) {moves : List Move}
    (hmoves : ∀ m ∈ moves, m.Names named) : (t.run moves).Coherent named :=
  List.foldlRecOn moves Turn.move h fun _ hu m hm => hu.move (hmoves m hm)

/-- **What every move keeps at coherent turns holds after a run.** -/
theorem Coherent.holds_run {P : Turn → Prop} (h : t.Coherent named) {moves : List Move}
    (hmoves : ∀ m ∈ moves, m.Names named)
    (hmove : ∀ u m, m ∈ moves → u.Coherent named → P u → P (u.move m)) (hstart : P t) :
    P (t.run moves) := by
  have hboth : (t.run moves).Coherent named ∧ P (t.run moves) :=
    List.foldlRecOn (motive := fun u => u.Coherent named ∧ P u) moves Turn.move ⟨h, hstart⟩
      fun u hu m hm => ⟨hu.1.move (hmoves m hm), hmove u m hm hu.1 hu.2⟩
  exact hboth.2

/-- **The connections of a run continue those of every turn before.** -/
theorem Coherent.continues_run (h : t.Coherent named) {moves : List Move}
    (hmoves : ∀ m ∈ moves, m.Names named) : t.Continues (t.run moves) :=
  h.holds_run hmoves (fun _ m hm hu hbefore => hbefore.trans (hu.continues_move (hmoves m hm)))
    (.refl t)

end Turn

/-! ## A small run -/

namespace Sample

/-- The one document of the host. -/
def path : Path := ⟨"/a"⟩

/-- A session without servers whose host has the one document. -/
def start : Turn :=
  ⟨.new ⟨"/"⟩ .default 1 ⟨[]⟩, Table.empty.set path.place ⟨"x", 0, none⟩, []⟩

/-- Every server that is started runs. -/
def launch : Launcher := fun _ => .running true

/-- The answer of a server to the request with a number. -/
def answer (id : Int) (result : Json) : Json :=
  .obj [("id", .int id), ("jsonrpc", .str "2.0"), ("result", result)]

/-- A server is started. -/
def starting : List Move := [.event launch (.action (.start (.command none "s" [])))]

/-- It answers the handshake. -/
def greeting : Bytes := Frame.encode (answer 1 (.obj [("capabilities", .obj [])]))

/-- A server that formats is started and gets to know the document. -/
def opening : List Move :=
  let provider := Json.obj [("documentFormattingProvider", .bool true)]
  [.event launch (.action (.start (.command none "s" []))),
    .event launch (.stdout 1 (Frame.encode (answer 1 (.obj [("capabilities", provider)])))),
    .event launch (.action (.viewOpened 1 path))]

/-- The host changes the document. -/
def change : Move := .edit path [.full "y"] 0 none

end Sample
end LanguageClient
