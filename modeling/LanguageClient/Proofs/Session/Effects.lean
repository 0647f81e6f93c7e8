import LanguageClient.Proofs.Session.Run

/-!
# What was done between two turns

What a turn has done that an earlier one had not is a list of effects (`added`): the messages among
them go to launches of servers (`messagesTo`), and what is told of a thing last is looked for from
their end (`lastOf`).
-/

namespace LanguageClient

namespace Turn

variable {t t' u : Turn}

/-- What one turn has done that an earlier one had not. -/
def added (t t' : Turn) : List Effect := t'.effects.drop t.effects.length

theorem added_self (t : Turn) : added t t = [] := List.drop_length

theorem added_of_effects_eq {more : List Effect} (h : t'.effects = t.effects ++ more) :
    added t t' = more := by
  rw [added, h, List.drop_left]

theorem added_trans (h : t.effects <+: t'.effects) (h' : t'.effects <+: u.effects) :
    added t u = added t t' ++ added t' u := by
  obtain ⟨first, hfirst⟩ := h
  obtain ⟨second, hsecond⟩ := h'
  have hboth : u.effects = t.effects ++ (first ++ second) := by
    rw [← List.append_assoc, hfirst, hsecond]
  rw [added_of_effects_eq hboth, added_of_effects_eq hfirst.symm, added_of_effects_eq hsecond.symm]

/-- The messages among some effects that go to one launch of a server. -/
def messagesTo (id : ConnectionId) (effects : List Effect) : List Json :=
  effects.filterMap fun
    | .write other message => if other = id then some message else none
    | _ => none

theorem messagesTo_append (id : ConnectionId) (first second : List Effect) :
    messagesTo id (first ++ second) = messagesTo id first ++ messagesTo id second :=
  List.filterMap_append

theorem mem_messagesTo {id : ConnectionId} {effects : List Effect} {m : Json} :
    m ∈ messagesTo id effects ↔ .write id m ∈ effects := by
  rw [messagesTo, List.mem_filterMap]
  constructor
  · rintro ⟨e, he, hm⟩
    split at hm
    · next other message =>
      split at hm
      · next heq =>
        obtain rfl := Option.some.inj hm
        exact heq ▸ he
      · cases hm
    · cases hm
  · intro hm
    exact ⟨_, hm, if_pos rfl⟩

theorem messagesTo_writes (id other : ConnectionId) (messages : List Json) :
    messagesTo id (messages.map (.write other)) = if other = id then messages else [] := by
  rw [messagesTo, List.filterMap_map]
  split
  · next heq => simp [heq]
  · next hne => exact List.filterMap_eq_nil_iff.2 fun m _ => if_neg hne

/-- What is found in the last of some effects in which something is found. -/
def lastOf {α : Type} (find : Effect → Option α) (effects : List Effect) : Option α :=
  effects.reverse.findSome? find

section

variable {α : Type} {find : Effect → Option α} {effects : List Effect}

theorem lastOf_append (find : Effect → Option α) (first second : List Effect) :
    lastOf find (first ++ second) = (lastOf find second).or (lastOf find first) := by
  rw [lastOf, List.reverse_append, List.findSome?_append, lastOf, lastOf]

theorem lastOf_singleton (find : Effect → Option α) (e : Effect) : lastOf find [e] = find e := by
  simp [lastOf]

theorem lastOf_eq_none (h : ∀ e ∈ effects, find e = none) : lastOf find effects = none :=
  List.findSome?_eq_none_iff.2 fun e he => h e (List.mem_reverse.1 he)

/-- Where everything that is found is the same, it is what is found last. -/
theorem lastOf_eq_some {a : α} (h : ∀ e ∈ effects, ∀ b, find e = some b → b = a)
    (hfound : ∃ e ∈ effects, find e = some a) : lastOf find effects = some a := by
  cases hlast : lastOf find effects with
  | none =>
    obtain ⟨e, he, hsome⟩ := hfound
    have hnone := List.findSome?_eq_none_iff.1 hlast e (List.mem_reverse.2 he)
    rw [hnone] at hsome
    cases hsome
  | some b =>
    obtain ⟨e, he, hb⟩ := List.exists_of_findSome?_eq_some hlast
    rw [h e (List.mem_reverse.1 he) b hb]

end

/-! ## Changes that are passed on -/

theorem effects_syncChanges (t : Turn) (path : Path) (changes : List ContentChange) :
    t.effects <+: (t.syncChanges path changes).effects := by
  refine List.foldlRecOn (motive := fun u : Turn => t.effects <+: u.effects) _ _
    List.prefix_rfl fun u h identity _ => ?_
  rcases syncChangesTo_cases u path changes identity with ⟨heq, -⟩ |
    ⟨c, wanted, n, documents, -, -, -, -, heq⟩
  · rw [heq]
    exact h
  · rw [heq]
    exact h.trans (List.prefix_append _ _)

theorem bufferText_syncChangesTo (t : Turn) (path : Path) (changes : List ContentChange)
    (identity : String) : (t.syncChangesTo path changes identity).bufferText = t.bufferText := by
  rcases syncChangesTo_cases t path changes identity with ⟨heq, -⟩ |
    ⟨c, wanted, n, documents, -, -, -, -, heq⟩
  · rw [heq]
  · rw [heq]
    rfl

theorem bufferText_replaceDocument (t : Turn) (path : Path) (text : String) (cursor : Nat)
    (other : Path) : (t.replaceDocument path text cursor).bufferText other =
      if path.place = other.place then some text else t.bufferText other := by
  change ((t.buffers.set path.place ⟨text, cursor, none⟩).get? other.place).map _ = _
  rw [Table.get?_set]
  split
  · rfl
  · rfl

end Turn
end LanguageClient
