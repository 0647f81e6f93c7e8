import LanguageClient.Proofs.Session.Endurance

/-!
# Servers that have ended

The number of a launch that has ended is retired for good (`Turn.Retired`): output and exits that
come for it later do nothing, whatever is started in its place, so that its end is reported at most
once (`Turn.length_terminations_le`). With what is left of a server that ends, this is all there is
to say of it (`Turn.ended_for_good`).
-/

namespace LanguageClient

namespace Turn

variable {t t' : Turn} {identity : String} {id : ConnectionId} {m : Move}

/-! ## Numbers that are retired -/

/-- Whether a number was used for a launch and stands for no connection. -/
structure Retired (t : Turn) (id : ConnectionId) : Prop where
  used : id < t.session.nextConnection
  gone : ∀ identity c, t.connection identity = some c → c.id ≠ id

theorem Retired.findById_eq_none (h : t.Retired id) :
    Registry.findById t.session.connections id = none :=
  Turn.findById_eq_none h.gone

/-- A number that is retired is never used again. -/
theorem Retired.of_continues (h : t.Retired id) (hcontinues : t.Continues t') : t'.Retired id := by
  refine ⟨Nat.lt_of_lt_of_le h.used hcontinues.next_le, fun identity c' hc' hid => ?_⟩
  rcases hcontinues.connections identity c' hc' with ⟨c, hc, hcontinued⟩ | hle
  · exact h.gone identity c hc (hcontinued.id.symm.trans hid)
  · rw [hid] at hle
    exact absurd h.used (Nat.not_lt_of_le hle)

theorem Retired.run (h : t.Retired id) (ht : t.Coherent fun _ => True) (moves : List Move) :
    (t.run moves).Retired id :=
  h.of_continues (ht.continues_run fun m _ => names_true m)

/-- What comes late for a launch does nothing at all. -/
theorem Retired.inert (h : t.Retired id) (bytes : Bytes) (code : Option Int) :
    t.stdout id bytes = t ∧ t.exited id code = t := by
  refine ⟨stdout_of_findById_eq_none h.findById_eq_none bytes, ?_⟩
  simp only [Turn.exited, h.findById_eq_none]

/-- What ends by a move ran before it, or was launched by it. -/
theorem Ending.origin (ht : t.Regular fun _ => True) (h : Ending t m identity id) :
    t.Runs identity id ∨
      id = t.session.nextConnection ∧ id < (t.move m).session.nextConnection := by
  cases h with
  | stopped hc => exact .inl ⟨_, hc, rfl⟩
  | allStopped hc => exact .inl ⟨_, hc, rfl⟩
  | exited hfind =>
    obtain ⟨hc, hid⟩ := connection_of_findById ht.coherent hfind
    exact .inl ⟨_, hc, hid⟩
  | refused hfind =>
    obtain ⟨hc, hid⟩ := connection_of_findById ht.coherent hfind
    exact .inl ⟨_, hc, hid⟩
  | unsent hconfig free hlaunch =>
    have hnext := (clears_start ht hconfig free hlaunch).2
    refine .inr ⟨rfl, ?_⟩
    change _ < (t.start _ _).session.nextConnection
    rw [hnext]
    exact Nat.lt_succ_self _

/-- A connection that stands after some servers ended stood before, and is none of theirs. -/
theorem connection_of_ending (ht : t.Steady fun _ => True) (h : Ending t m identity id)
    {other : String} {d : Connection} (hd : (t.move m).connection other = some d) :
    t.connection other = some d ∧ ∀ id', ¬ Ending t m other id' := by
  have hclears := clears_of_ending ht h
  have hnot : ¬ ∃ id', Ending t m other id' := by
    intro hgone
    have hnone : (t.move m).connection other = none :=
      congrArg Part.connection (hclears.unknown other hgone)
    rw [hd] at hnone
    cases hnone
  have hsame : (t.move m).connection other = t.connection other :=
    congrArg Part.connection (hclears.others other hnot)
  exact ⟨hsame.symm.trans hd, not_exists.1 hnot⟩

theorem retired_of_ending (ht : t.Steady fun _ => True) (h : Ending t m identity id) :
    (t.move m).Retired id := by
  rcases h.origin ht.toRegular with ⟨c, hc, rfl⟩ | ⟨hfresh, hused⟩
  · have hcontinues := ht.coherent.continues_move (names_true m)
    refine ⟨Nat.lt_of_lt_of_le (ht.coherent.fresh identity c hc) hcontinues.next_le,
      fun other d hd hid => ?_⟩
    obtain ⟨hbefore, hnot⟩ := connection_of_ending ht h hd
    rw [ht.coherent.distinct other identity d c hbefore hc hid] at hnot
    exact hnot c.id h
  · refine ⟨hused, fun other d hd => ?_⟩
    rw [hfresh]
    exact Nat.ne_of_lt (ht.coherent.fresh other d (connection_of_ending ht h hd).1)

end Turn

/-! ## Reports of an end -/

/-- Whether a move is the exit of a launch. -/
def Move.isExitOf (id : ConnectionId) : Move → Bool
  | event _ (.exited other _) => other = id
  | _ => false

namespace Turn

variable {named : Path → Prop} {t : Turn} {id : ConnectionId}

/-- The notices among some effects. -/
def notices (effects : List Effect) : List (NoticeLevel × String) :=
  effects.filterMap fun
    | .tell (.notify level message) => some (level, message)
    | _ => none

/-- The notices, in the course of a run, that a launch has ended. -/
def terminations (t : Turn) (id : ConnectionId) : List Move → List (NoticeLevel × String)
  | [] => []
  | m :: moves =>
    (if m.isExitOf id then notices (added t (t.move m)) else []) ++
      (t.move m).terminations id moves

/-- No end is reported of a number that is retired. -/
theorem Retired.terminations_eq_nil (h : t.Retired id) (ht : t.Coherent fun _ => True)
    (moves : List Move) : t.terminations id moves = [] := by
  induction moves generalizing t with
  | nil => rfl
  | cons m moves ih =>
    have hrest := ih (h.of_continues (ht.continues_move (names_true m))) (ht.move (names_true m))
    rw [terminations, hrest, List.append_nil]
    split
    · next hexit =>
      have hsame : t.move m = t := by
        unfold Move.isExitOf at hexit
        split at hexit
        · next other code =>
          obtain rfl := of_decide_eq_true hexit
          exact (h.inert [] code).2
        · cases hexit
      rw [hsame, added_self]
      rfl
    · rfl

/-- An exit is reported once. -/
theorem notices_exited {c : Connection} (ht : t.Coherent named)
    (hfind : Registry.findById t.session.connections id = some c) (code : Option Int) :
    notices (added t (t.exited id code)) =
      [((Failure.serverTerminated c.identity code).level,
        (Failure.serverTerminated c.identity code).message)] := by
  obtain ⟨hc, -⟩ := connection_of_findById ht hfind
  have hc' : (t.report (.serverTerminated c.identity code)).connection c.identity = some c := hc
  have heffects : (t.exited id code).effects = t.effects ++
      (.tell (.notify (Failure.serverTerminated c.identity code).level
          (Failure.serverTerminated c.identity code).message) :: .retire c.id ::
        (t.showing c.identity).map fun view => .tell (.setDiagnostics view c.identity [])) := by
    simp only [exited, hfind]
    rw [teardown_eq hc']
    exact List.append_assoc _ _ _
  have hcleared : notices ((t.showing c.identity).map fun view =>
      .tell (.setDiagnostics view c.identity [])) = [] := by
    rw [notices, List.filterMap_map]
    exact List.filterMap_eq_nil_iff.2 fun _ _ => rfl
  rw [added_of_effects_eq heffects]
  exact congrArg _ hcleared

/-- **The end of a launch is reported at most once.** -/
theorem length_terminations_le (ht : t.Steady fun _ => True) (id : ConnectionId)
    (moves : List Move) : (t.terminations id moves).length ≤ 1 := by
  induction moves generalizing t with
  | nil => exact Nat.zero_le 1
  | cons m moves ih =>
    rw [terminations]
    split
    · next hexit =>
      unfold Move.isExitOf at hexit
      split at hexit
      · next launch other code =>
        obtain rfl := of_decide_eq_true hexit
        have hafter := ht.coherent.move (names_true (.event launch (.exited other code)))
        cases hfind : Registry.findById t.session.connections other with
        | none =>
          have hsame : t.move (.event launch (.exited other code)) = t := by
            change t.exited other code = t
            simp only [Turn.exited, hfind]
          rw [hsame, added_self]
          exact ih ht
        | some c =>
          -- the number is retired by this exit
          have hending : Ending t (.event launch (.exited other code)) c.identity other :=
            .exited hfind
          rw [(retired_of_ending ht hending).terminations_eq_nil hafter, List.append_nil]
          exact Nat.le_of_eq (congrArg List.length (notices_exited ht.coherent hfind code))
      · cases hexit
    · rw [List.nil_append]
      exact ih (ht.move (names_true m))

/-! ## Runs -/

/-- **A server that has ended is gone for good.** At whatever time of a run, the launches that end
by a move are those that no longer run after it. Nothing more is known of a server that ends, the
views that showed something of it were told last to show nothing, and nothing that is known of
servers that do not end has changed. Whatever happens later, also if a server is started under the
same identity, output and exits that come for the launch do nothing, so that a run reports its end
at most once. -/
theorem ended_for_good (ht : t.Reached) :
    (∀ m identity id, t.Runs identity id →
      (Ending t m identity id ↔ ¬ (t.move m).Runs identity id)) ∧
    (∀ m identity id, Ending t m identity id →
      (t.move m).part identity = .unknown ∧
      (∀ view path, t.session.views.pathOf view = some path → t.kept identity path ≠ [] →
        lastOf (·.shown? view identity) (added t (t.move m)) = some []) ∧
      (∀ other, (∀ id', ¬ Ending t m other id') → (t.move m).part other = t.part other) ∧
      ∀ later bytes code,
        ((t.move m).run later).stdout id bytes = (t.move m).run later ∧
        ((t.move m).run later).exited id code = (t.move m).run later) ∧
    ∀ moves id, (t.terminations id moves).length ≤ 1 := by
  have hsteady := ht.steady
  refine ⟨fun m identity id hruns => ending_iff hsteady hruns m, fun m identity id h => ?_,
    fun moves id => length_terminations_le hsteady id moves⟩
  have hclears := clears_of_ending hsteady h
  have hretired := retired_of_ending hsteady h
  refine ⟨hclears.unknown identity ⟨id, h⟩, fun view path => ?_, fun other hother => ?_,
    fun later => ?_⟩
  · exact hclears.clears view path identity ⟨id, h⟩
  · exact hclears.others other (not_exists.2 hother)
  · exact (hretired.run (hsteady.coherent.move (names_true m)) later).inert

end Turn

namespace Sample

/-- The server complains of the document. -/
def complaining : List Move := opening ++ [.event launch (.stdout 1 (Frame.encode complaint))]

end Sample

namespace Turn

/-- The server is stopped while it complains of the document, and started anew. -/
theorem ended_for_good_complaining :
    let t := Sample.start.run Sample.complaining
    let t' := t.move (.event Sample.launch (.action (.stop "s")))
    Ending t (.event Sample.launch (.action (.stop "s"))) "s" 1 ∧ t'.part "s" = .unknown ∧
      lastOf (·.shown? 1 "s") (added t t') = some [] ∧
      (t'.run Sample.starting).Runs "s" 2 ∧
      (t'.run Sample.starting).stdout 1 Sample.greeting = t'.run Sample.starting := by
  intro t t'
  have ht : t.Reached := reached_sample Sample.complaining
  have hrun : (t.connection "s").map (·.id) = some 1 ∧
      t.session.views.pathOf 1 = some Sample.path ∧ (t.kept "s" Sample.path).isEmpty = false ∧
      ((t'.run Sample.starting).connection "s").map (·.id) = some 2 := by decide +kernel
  obtain ⟨hid, hpath, hkept, hlater⟩ := hrun
  obtain ⟨c, hc, hone⟩ := Option.map_eq_some_iff.1 hid
  have hending : Ending t (.event Sample.launch (.action (.stop "s"))) "s" 1 := hone ▸ .stopped hc
  have hkept' : t.kept "s" Sample.path ≠ [] := fun hnil => by
    rw [hnil] at hkept
    cases hkept
  obtain ⟨hunknown, hcleared, -, hinert⟩ := (ended_for_good ht).2.1 _ "s" 1 hending
  refine ⟨hending, hunknown, hcleared 1 Sample.path hpath hkept', ?_, ?_⟩
  · exact Option.map_eq_some_iff.1 hlater
  · exact (hinert Sample.starting Sample.greeting none).1

end Turn
end LanguageClient
