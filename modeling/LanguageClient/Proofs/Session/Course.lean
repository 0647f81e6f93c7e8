import LanguageClient.Proofs.Session.Effects
import LanguageClient.Proofs.Session.Handshake
import LanguageClient.Proofs.Session.Routine

/-!
# The course of a run

A run is looked at moment by moment: the output of a server is taken, each of its messages is acted
on, and every other move is a moment of its own (`Turn.course`). The moments of a course lead from
turn to turn (`leads_course`), so that what every moment preserves holds at each of them, and what is
said of a run can be told from its course: which documents a moment is about and how their paths are
written, which handshake it answers, which view it opens or closes.
-/

namespace LanguageClient

/-- The view that an action speaks of. -/
def Action.view? : Action → Option ViewId
  | viewOpened view _ => some view
  | viewFocused view => some view
  | viewClosed view => some view
  | _ => none

/-- Whether a move is output of a server. -/
def Move.isOutput : Move → Bool
  | event _ (.stdout _ _) => true
  | _ => false

/-- What happens at one time, with the turn before it. -/
inductive Moment where
  /-- Output of a server is taken, and what the server asks in it is answered. -/
  | hears (t : Turn) (c : Connection) (bytes : Bytes)
  /-- A message in the output of a server is acted on. -/
  | acts (t : Turn) (identity : String) (item : Inbound)
  /-- A move that is no output of a server is made. -/
  | moves (t : Turn) (m : Move)

namespace Moment

/-- The turn before a moment. -/
def before : Moment → Turn
  | hears t _ _ => t
  | acts t _ _ => t
  | moves t _ => t

/-- The turn after a moment. -/
def after : Moment → Turn
  | hears t c bytes => t.advance c.identity (c.receive bytes).2 (c.receive bytes).1.replies
  | acts t identity item => t.onInbound identity item
  | moves t m => t.move m

/-- A view is opened on a document. -/
abbrev opening (t : Turn) (launch : Launcher) (view : ViewId) (path : Path) : Moment :=
  moves t (.event launch (.action (.viewOpened view path)))

/-- A view is closed. -/
abbrev closing (t : Turn) (launch : Launcher) (view : ViewId) : Moment :=
  moves t (.event launch (.action (.viewClosed view)))

/-- What is done at a moment. -/
def done (mo : Moment) : List Effect := Turn.added mo.before mo.after

/-- Whether a moment is about a document whose path is written so: an action or an edit names it, a
view of the action is bound to it, the request that is answered named it, or the focused view is
bound to it when a handshake is answered. -/
def Spells : Moment → Path → Prop
  | hears _ _ _, _ => False
  | acts t _ (.response request _), path => request.document = some path ∨
      (request.method = .handshake ∧ t.session.focused.bind t.session.views.pathOf = some path)
  | acts _ _ _, _ => False
  | moves t (.event _ (.action a)), path =>
      a.path? = some path ∨ a.view?.bind t.session.views.pathOf = some path
  | moves _ (.edit other _ _ _), path => other = path
  | moves _ _, _ => False

/-- Whether a moment is a successful answer to the handshake of a connection. -/
inductive Answers : Moment → ConnectionId → Prop where
  | intro {t : Turn} {identity : String} {c : Connection} {request : PendingRequest}
      {result : Json} {capabilities : ServerCapabilities} {info : Option ServerInfo}
      (hc : t.connection identity = some c) (method : request.method = .handshake)
      (read : readHandshake result = .ok (capabilities, info)) :
      Answers (.acts t identity (.response request (.ok result))) c.id

/-- Whether a moment opens or closes a view. -/
inductive Handles : Moment → ViewId → Prop where
  | opens {t : Turn} {launch : Launcher} {view : ViewId} {path : Path} :
      Handles (.moves t (.event launch (.action (.viewOpened view path)))) view
  | closes {t : Turn} {launch : Launcher} {view : ViewId} :
      Handles (.moves t (.event launch (.action (.viewClosed view)))) view

end Moment

namespace Turn

/-- What holds of every turn of a run. -/
structure Regular (named : Path → Prop) (t : Turn) : Prop where
  coherent : t.Coherent named
  aligned : t.session.Aligned

/-- The messages of an output that are acted on, moment by moment. -/
def acting (t : Turn) (identity : String) (id : ConnectionId) : List Inbound → List Moment
  | [] => []
  | item :: rest =>
    match t.connection identity with
    | none => []
    | some c =>
      if c.id = id then
        .acts t identity item :: acting (t.onInbound identity item) identity id rest
      else []

/-- A move, moment by moment. -/
def moments (t : Turn) : Move → List Moment
  | .event _ (.stdout id bytes) =>
    match Registry.findById t.session.connections id with
    | none => []
    | some c =>
      .hears t c bytes :: acting (Moment.hears t c bytes).after c.identity c.id
        (c.receive bytes).1.inbound
  | m => [.moves t m]

/-- A run, moment by moment. -/
def course (t : Turn) : List Move → List Moment
  | [] => []
  | m :: moves => t.moments m ++ (t.move m).course moves

/-- The turn that some moments led to. -/
def reached (t : Turn) (ms : List Moment) : Turn := (ms.getLast?.map Moment.after).getD t

end Turn

namespace Moment

/-- Whether a moment can come in a run. -/
inductive Occurs (named : Path → Prop) : Moment → Prop where
  | hears {t : Turn} {c : Connection} {bytes : Bytes} (hc : t.connection c.identity = some c) :
      Occurs named (.hears t c bytes)
  | acts {t : Turn} {identity : String} {c : Connection} {item : Inbound} {rest : List Inbound}
      (hc : t.connection identity = some c)
      (awaits : t.Awaits named identity c.id (item :: rest)) :
      Occurs named (.acts t identity item)
  | moves {t : Turn} {m : Move} (names : m.Names named) (silent : m.isOutput = false) :
      Occurs named (.moves t m)

end Moment

namespace Turn

/-- Whether some moments lead from one turn to another. -/
inductive Leads (named : Path → Prop) (t : Turn) : List Moment → Turn → Prop where
  | start : Leads named t [] t
  | next {ms : List Moment} {mo : Moment} (prior : Leads named t ms mo.before)
      (occurs : mo.Occurs named) : Leads named t (ms ++ [mo]) mo.after

variable {named : Path → Prop} {t t' u : Turn} {path : Path} {identity : String} {c : Connection}
  {mo : Moment} {ms ms' : List Moment}

/-! ## What holds at every moment -/

theorem Steps.regular (h : Steps named t t') (ht : t.Regular named) : t'.Regular named :=
  ⟨h.coherent ht.coherent, h.aligned ht.aligned⟩

theorem Works.regular (h : Works named t t') (ht : t.Regular named) : t'.Regular named :=
  h.steps.regular ht

theorem Regular.move (h : t.Regular named) {m : Move} (hm : m.Names named) :
    (t.move m).Regular named :=
  ⟨h.coherent.move hm, aligned_move h.aligned h.coherent hm⟩

theorem regular_new (root : Path) (settings : Settings) (processId : Nat) (catalog : Catalog)
    (buffers : Buffers) : Regular named ⟨.new root settings processId catalog, buffers, []⟩ :=
  ⟨coherent_new root settings processId catalog buffers,
    Session.aligned_new root settings processId catalog⟩

theorem Regular.after (h : mo.before.Regular named) (hmo : mo.Occurs named) :
    mo.after.Regular named := by
  cases hmo with
  | hears hc => exact Steps.regular (.single (.hears hc)) h
  | acts hc awaits => exact (steps_onInbound h.coherent hc awaits).regular h
  | moves names silent => exact h.move names

theorem Leads.single (occurs : mo.Occurs named) : Leads named mo.before [mo] mo.after :=
  .next .start occurs

theorem Leads.regular (h : Leads named t ms t') (ht : t.Regular named) : t'.Regular named := by
  induction h with
  | start => exact ht
  | next _ occurs ih => exact ih.after occurs

theorem Leads.mem (h : Leads named t ms t') (ht : t.Regular named) (hmo : mo ∈ ms) :
    mo.Occurs named ∧ mo.before.Regular named := by
  induction h with
  | start => cases hmo
  | next prior occurs ih =>
    rcases List.mem_append.1 hmo with hmo | hmo
    · exact ih hmo
    · obtain rfl := List.mem_singleton.1 hmo
      exact ⟨occurs, prior.regular ht⟩

/-! ## The moments of a run -/

theorem Leads.trans (h : Leads named t ms t') (h' : Leads named t' ms' u) :
    Leads named t (ms ++ ms') u := by
  induction h' with
  | start => rwa [List.append_nil]
  | next _ occurs ih =>
    rw [← List.append_assoc]
    exact .next ih occurs

theorem Leads.reached_eq (h : Leads named t ms t') : t.reached ms = t' := by
  cases h with
  | start => rfl
  | next prior occurs => simp [reached]

theorem Leads.concat_inv (h : Leads named t (ms ++ [mo]) t') :
    Leads named t ms mo.before ∧ mo.Occurs named ∧ t' = mo.after := by
  generalize hall : ms ++ [mo] = all at h
  cases h with
  | start => simp at hall
  | next prior occurs =>
    obtain ⟨rfl, hlast⟩ := List.append_inj' hall rfl
    cases hlast
    exact ⟨prior, occurs, rfl⟩

/-- The first of some moments lead to the turn that they reach. -/
theorem Leads.initial (h : Leads named t ms t') (hms : ms' <+: ms) :
    Leads named t ms' (t.reached ms') := by
  induction h with
  | start =>
    obtain rfl := List.prefix_nil.1 hms
    exact .start
  | @next ms mo prior occurs ih =>
    rcases List.prefix_concat_iff.1 hms with rfl | hms
    · have hwhole := Leads.next prior occurs
      rw [hwhole.reached_eq]
      exact hwhole
    · exact ih hms

theorem leads_acting {id : ConnectionId} {items : List Inbound} (h : t.Coherent named)
    (ha : t.Awaits named identity id items) :
    Leads named t (t.acting identity id items) (t.onInbounds identity id items) := by
  induction items generalizing t with
  | nil => exact .start
  | cons item items ih =>
    cases hc : t.connection identity with
    | none =>
      simp only [acting, onInbounds, hc]
      exact .start
    | some c =>
      by_cases hid : c.id = id
      · subst hid
        have hfirst : Leads named t [.acts t identity item] (t.onInbound identity item) :=
          .single (.acts hc ha)
        have hrest := ih ((steps_onInbound h hc ha).coherent h) ha.tail
        simp only [acting, onInbounds, hc, if_true]
        exact hfirst.trans hrest
      · simp only [acting, onInbounds, hc, if_neg hid]
        exact .start

theorem leads_moments (h : t.Coherent named) {m : Move} (hm : m.Names named) :
    Leads named t (t.moments m) (t.move m) := by
  have hother : m.isOutput = false → Leads named t [.moves t m] (t.move m) := fun hsilent =>
    .single (.moves hm hsilent)
  cases m with
  | edit path changes cursor selection => exact hother rfl
  | buffer path b => exact hother rfl
  | cut id => exact hother rfl
  | event launch e =>
    cases e with
    | stderr id bytes => exact hother rfl
    | exited id code => exact hother rfl
    | action a => exact hother rfl
    | stdout id bytes =>
      change Leads named t (t.moments (.event launch (.stdout id bytes))) (t.stdout id bytes)
      rw [moments]
      cases hfind : Registry.findById t.session.connections id with
      | none =>
        have hsame : t.stdout id bytes = t := by simp only [stdout, hfind]
        rw [hsame]
        exact .start
      | some c =>
        obtain ⟨hc, hid⟩ := connection_of_findById h hfind
        have hheard : Leads named t [.hears t c bytes] (Moment.hears t c bytes).after :=
          .single (.hears hc)
        rw [stdout_eq_hearing hfind hid]
        refine hheard.trans (leads_acting ?_ (awaits_receive (h.sound _ c hc) bytes _))
        exact Step.coherent (.hears hc) h

/-- **A run goes through the moments of its course.** -/
theorem leads_course (h : t.Coherent named) {moves : List Move}
    (hmoves : ∀ m ∈ moves, m.Names named) :
    Leads named t (t.course moves) (t.run moves) := by
  induction moves generalizing t with
  | nil => exact .start
  | cons m moves ih =>
    have hm := hmoves m List.mem_cons_self
    have hrest := ih (h.move hm) fun m' hm' => hmoves m' (List.mem_cons_of_mem _ hm')
    exact (leads_moments h hm).trans hrest

/-- The first moments of a run of a new session lead to the turn that they reach. -/
theorem leads_reached {root : Path} {settings : Settings} {processId : Nat} {catalog : Catalog}
    {buffers : Buffers} {moves : List Move}
    (hms : ms <+: course ⟨.new root settings processId catalog, buffers, []⟩ moves) :
    Leads (fun _ => True) ⟨.new root settings processId catalog, buffers, []⟩ ms
      (reached ⟨.new root settings processId catalog, buffers, []⟩ ms) :=
  (leads_course (coherent_new root settings processId catalog buffers)
    fun m _ => names_true m).initial hms

end Turn
end LanguageClient
