import LanguageClient.Proofs.Text.Boundary
import LanguageClient.Session.Results
import Mathlib.Data.List.DropRight
import Mathlib.Data.List.Sort
import Mathlib.Order.Bounds.Defs

/-!
# Completion

What a server offers as a completion is read off its items in their order (`readCompletion_ok_iff`).
For a server whose candidates need filtering the session shows the first occurrences of those that
are plain identifiers and go on from the word before the cursor (`firstOccurrences_narrow`),
wherever the cursor is said to be (`isWordBefore_wordBefore`), and where none is left it dismisses
the completion (`Turn.shows_narrowed`).
-/

namespace LanguageClient

/-! ## What a server offers -/

/-- The items of a completion result; a server may send nothing in place of a list. -/
inductive ListsItems : Json → List Json → Prop
  | nothing : ListsItems .null []
  | list (entries : List Json) : ListsItems (.arr entries) entries
  | wrapped {fields : List (String × Json)} {entries : List Json}
      (h : (Json.obj fields).get? "items" = some (.arr entries)) : ListsItems (.obj fields) entries
  | empty {fields : List (String × Json)}
      (h : (Json.obj fields).get? "items" = none ∨ (Json.obj fields).get? "items" = some .null) :
      ListsItems (.obj fields) []

/-- Whether an item offers a text, as what it inserts or else as its label. -/
def OffersText (item : Json) (s : String) : Prop :=
  item.get? "insertText" = some (.str s) ∨
    (¬ ∃ inserted, item.get? "insertText" = some (.str inserted)) ∧
      item.get? "label" = some (.str s)

/-- Whether texts are those that items offer, in the same order; an item may offer none. -/
inductive OffersTexts : List Json → List String → Prop
  | nil : OffersTexts [] []
  | offer {item : Json} {entries : List Json} {s : String} {texts : List String}
      (h : OffersText item s) (hrest : OffersTexts entries texts) :
      OffersTexts (item :: entries) (s :: texts)
  | pass {item : Json} {entries : List Json} {texts : List String}
      (h : ∀ s, ¬ OffersText item s) (hrest : OffersTexts entries texts) :
      OffersTexts (item :: entries) texts

theorem bind_str?_eq_some_iff {found : Option Json} {s : String} :
    found.bind Json.str? = some s ↔ found = some (.str s) := by
  rcases found with _ | v
  · simp
  · cases v <;> simp [Json.str?]

theorem completionText_eq_some_iff {item : Json} {s : String} :
    completionText item = some s ↔ OffersText item s := by
  unfold completionText OffersText
  cases hinserted : (item.get? "insertText").bind Json.str? with
  | some inserted =>
    have hsome := bind_str?_eq_some_iff.1 hinserted
    simp [hsome]
  | none =>
    have hnone : ¬ ∃ inserted, item.get? "insertText" = some (.str inserted) := by
      rintro ⟨inserted, h⟩
      rw [bind_str?_eq_some_iff.2 h] at hinserted
      cases hinserted
    have hother : item.get? "insertText" ≠ some (.str s) := fun h => hnone ⟨s, h⟩
    simp only [bind_str?_eq_some_iff, hother, hnone, not_false_eq_true, true_and, false_or]

theorem offersTexts_iff {entries : List Json} {texts : List String} :
    OffersTexts entries texts ↔ texts = entries.filterMap completionText := by
  induction entries generalizing texts with
  | nil =>
    constructor
    · rintro ⟨⟩
      rfl
    · rintro rfl
      exact .nil
  | cons item entries ih =>
    cases htext : completionText item with
    | some s =>
      rw [List.filterMap_cons_some htext]
      have hoffer := completionText_eq_some_iff.1 htext
      constructor
      · intro h
        cases h with
        | offer h hrest =>
          rw [completionText_eq_some_iff.2 h] at htext
          rw [Option.some.inj htext, ih.1 hrest]
        | pass h _ => exact absurd hoffer (h s)
      · rintro rfl
        exact .offer hoffer (ih.2 rfl)
    | none =>
      rw [List.filterMap_cons_none htext]
      have hnone : ∀ s, ¬ OffersText item s := fun s h => by
        rw [completionText_eq_some_iff.2 h] at htext
        cases htext
      constructor
      · intro h
        cases h with
        | offer h _ => exact absurd h (hnone _)
        | pass _ hrest => exact ih.1 hrest
      · intro h
        exact .pass hnone (ih.2 h)

/-- A completion is read when it lists items, as the texts that these offer. -/
theorem readCompletion_ok_iff {result : Json} {items : List String} :
    readCompletion result = .ok items ↔
      ∃ entries, ListsItems result entries ∧ OffersTexts entries items := by
  constructor
  · intro h
    unfold readCompletion at h
    split at h
    · cases h
      exact ⟨[], .nothing, .nil⟩
    · next entries =>
      cases h
      exact ⟨entries, .list entries, offersTexts_iff.2 rfl⟩
    · next fields =>
      split at h
      · next entries hitems =>
        cases h
        exact ⟨entries, .wrapped hitems, offersTexts_iff.2 rfl⟩
      · next hnull =>
        cases h
        exact ⟨[], .empty (.inr hnull), .nil⟩
      · next hnone =>
        cases h
        exact ⟨[], .empty (.inl hnone), .nil⟩
      · cases h
    · cases h
  · rintro ⟨entries, hlists, hoffers⟩
    rw [offersTexts_iff.1 hoffers]
    cases hlists with
    | nothing => rfl
    | list => rfl
    | wrapped h => simp only [readCompletion, h]
    | empty h => rcases h with h | h <;> simp [readCompletion, h]

/-! ## The word before the cursor -/

section

variable {isWord : Char → Bool} {text word : List Char} {cursor n : Nat}

/-- Whether a word is a run of `isWord` characters of a text that ends at an offset. -/
def IsRunBefore (isWord : Char → Bool) (text : List Char) (n : Nat) (word : List Char) : Prop :=
  (∃ before after, text = before ++ word ++ after ∧ Text.byteLength (before ++ word) = n) ∧
    ∀ c ∈ word, isWord c = true

/-- Whether a word is the longest run before the cursor, which counts as the last boundary that is
neither behind it nor behind the text. -/
def IsWordBefore (isWord : Char → Bool) (text : List Char) (cursor : Nat) (word : List Char) :
    Prop :=
  ∃ n, IsGreatest {m | Text.IsBoundary m text ∧ m ≤ min cursor (Text.byteLength text)} n ∧
    IsRunBefore isWord text n word ∧ ∀ other, IsRunBefore isWord text n other → other <:+ word

/-- A cut goes through at the last boundary before it. -/
theorem isGreatest_floorBoundary (text : List Char) (cursor : Nat) :
    IsGreatest {m | Text.IsBoundary m text ∧ m ≤ min cursor (Text.byteLength text)}
      (Text.floorBoundary cursor text) := by
  have hboundary := Text.isBoundary_floorBoundary cursor text
  refine ⟨⟨hboundary, Nat.le_min.2 ⟨Text.byteLength_takeBytes_le cursor text, hboundary.le⟩⟩, ?_⟩
  rintro m ⟨⟨front, back, rfl, rfl⟩, hle⟩
  obtain ⟨more, hmore⟩ := Nat.exists_eq_add_of_le (Nat.le_min.1 hle).1
  rw [hmore, Text.floorBoundary, Text.takeBytes_add, Text.byteLength_append]
  exact Nat.le_add_right _ _

/-- The run that ends a text is the longest that does. -/
theorem suffix_rtakeWhile {front other : List Char} (h : other <:+ front)
    (hother : ∀ c ∈ other, isWord c = true) : other <:+ front.rtakeWhile isWord := by
  obtain ⟨before, rfl⟩ := h
  have hrun : ∀ c ∈ other.reverse, isWord c = true := fun c hc => hother c (List.mem_reverse.1 hc)
  rw [List.rtakeWhile, List.reverse_append, List.takeWhile_append_of_pos hrun, List.reverse_append,
    List.reverse_reverse]
  exact List.suffix_append _ _

theorem isWordBefore_wordBefore (isWord : Char → Bool) (text : List Char) (cursor : Nat) :
    IsWordBefore isWord text cursor (wordBefore isWord text cursor) := by
  have hword : wordBefore isWord text cursor =
      (Text.takeBytes cursor text).rtakeWhile isWord := rfl
  obtain ⟨before, hbefore⟩ := List.rtakeWhile_suffix isWord (Text.takeBytes cursor text)
  refine ⟨_, isGreatest_floorBoundary text cursor, ⟨⟨before, Text.dropBytes cursor text, ?_, ?_⟩,
    ?_⟩, ?_⟩
  · rw [hword, hbefore, Text.takeBytes_append_dropBytes]
  · rw [hword, hbefore, Text.floorBoundary]
  · rw [hword]
    exact fun c hc => List.mem_rtakeWhile_imp hc
  · rintro other ⟨⟨before', after, htext, hlength⟩, hother⟩
    have hfront : Text.takeBytes cursor text = before' ++ other := by
      rw [← Text.takeBytes_floorBoundary, ← hlength, htext, Text.takeBytes_byteLength]
    rw [hword, hfront]
    exact suffix_rtakeWhile (List.suffix_append _ _) hother

end

/-! ## First occurrences -/

section

variable {α : Type} [DecidableEq α] {p : α → Prop} {items kept other : List α} {item : α}

/-- Whether a list has the items with a property, each once and by where it first occurs. -/
structure FirstOccurrences (p : α → Prop) (items kept : List α) : Prop where
  mem_iff : ∀ a, a ∈ kept ↔ a ∈ items ∧ p a
  ordered : kept.Pairwise fun a b => items.idxOf a < items.idxOf b

theorem FirstOccurrences.nodup (h : FirstOccurrences p items kept) : kept.Nodup :=
  h.ordered.imp fun hlt heq => absurd hlt (by rw [heq]; exact Nat.lt_irrefl _)

/-- There is one such list only. -/
theorem FirstOccurrences.unique (h : FirstOccurrences p items kept)
    (h' : FirstOccurrences p items other) : kept = other := by
  have : Std.Irrefl fun a b => items.idxOf a < items.idxOf b := ⟨fun _ => Nat.lt_irrefl _⟩
  have : Std.Antisymm fun a b => items.idxOf a < items.idxOf b :=
    ⟨fun _ _ hlt hgt => absurd hgt (Nat.lt_asymm hlt)⟩
  exact h.ordered.eq_of_mem_iff h'.ordered fun a => by rw [h.mem_iff, h'.mem_iff]

theorem firstOccurrences_nil (p : α → Prop) : FirstOccurrences p [] [] :=
  ⟨fun _ => by simp, .nil⟩

theorem firstOccurrences_self (hnodup : kept.Nodup) (h : ∀ a ∈ kept, p a) :
    FirstOccurrences p kept kept := by
  refine ⟨fun a => ⟨fun ha => ⟨ha, h a ha⟩, And.left⟩, List.pairwise_iff_getElem.2 ?_⟩
  intro i j hi hj hlt
  rwa [hnodup.idxOf_getElem, hnodup.idxOf_getElem]

/-- The order of items that are there does not change when one comes behind them. -/
theorem FirstOccurrences.ordered_concat (h : FirstOccurrences p items kept) (item : α) :
    kept.Pairwise fun a b => (items ++ [item]).idxOf a < (items ++ [item]).idxOf b := by
  refine h.ordered.imp_of_mem fun ha hb hlt => ?_
  rwa [List.idxOf_append_of_mem ((h.mem_iff _).1 ha).1,
    List.idxOf_append_of_mem ((h.mem_iff _).1 hb).1]

/-- A new item with the property goes to the end. -/
theorem FirstOccurrences.keep (h : FirstOccurrences p items kept) (hp : p item)
    (hnew : item ∉ kept) : FirstOccurrences p (items ++ [item]) (kept ++ [item]) := by
  have hfirst : item ∉ items := fun hmem => hnew ((h.mem_iff item).2 ⟨hmem, hp⟩)
  refine ⟨fun a => ?_, List.pairwise_append.2 ⟨h.ordered_concat item, List.pairwise_singleton _ _,
    fun a ha b hb => ?_⟩⟩
  · simp only [List.mem_append, List.mem_singleton, h.mem_iff]
    constructor
    · rintro (⟨hmem, ha⟩ | rfl)
      · exact ⟨.inl hmem, ha⟩
      · exact ⟨.inr rfl, hp⟩
    · rintro ⟨hmem | rfl, ha⟩
      · exact .inl ⟨hmem, ha⟩
      · exact .inr rfl
  · obtain rfl := List.mem_singleton.1 hb
    have hmem := ((h.mem_iff a).1 ha).1
    rw [List.idxOf_append_of_mem hmem, List.idxOf_append_of_notMem hfirst]
    exact Nat.lt_add_right _ (List.idxOf_lt_length_of_mem hmem)

/-- An item without the property, or one that is there already, is passed over. -/
theorem FirstOccurrences.skip (h : FirstOccurrences p items kept) (hskip : p item → item ∈ kept) :
    FirstOccurrences p (items ++ [item]) kept := by
  refine ⟨fun a => ?_, h.ordered_concat item⟩
  rw [h.mem_iff, List.mem_append, List.mem_singleton]
  constructor
  · rintro ⟨hmem, ha⟩
    exact ⟨.inl hmem, ha⟩
  · rintro ⟨hmem | rfl, ha⟩
    · exact ⟨hmem, ha⟩
    · exact ⟨((h.mem_iff a).1 (hskip ha)).1, ha⟩

end

/-! ## Narrowing -/

/-- Whether a candidate is an identifier of ASCII letters, digits and underscores that goes on from
what is typed. -/
structure GoesOn (typed : List Char) (s : String) : Prop where
  nonempty : s ≠ ""
  plain : ∀ c ∈ s.toList,
    'a' ≤ c ∧ c ≤ 'z' ∨ 'A' ≤ c ∧ c ≤ 'Z' ∨ '0' ≤ c ∧ c ≤ '9' ∨ c = '_'
  extend : typed <+: s.toList

theorem isAlphanum_iff {c : Char} :
    c.isAlphanum = true ↔ 'a' ≤ c ∧ c ≤ 'z' ∨ 'A' ≤ c ∧ c ≤ 'Z' ∨ '0' ≤ c ∧ c ≤ '9' := by
  have hupper : c.isUpper = true ↔ 'A' ≤ c ∧ c ≤ 'Z' := decide_eq_true_iff
  have hlower : c.isLower = true ↔ 'a' ≤ c ∧ c ≤ 'z' :=
    Bool.and_eq_true_iff.trans (and_congr decide_eq_true_iff decide_eq_true_iff)
  have hdigit : c.isDigit = true ↔ '0' ≤ c ∧ c ≤ '9' :=
    Bool.and_eq_true_iff.trans (and_congr decide_eq_true_iff decide_eq_true_iff)
  have halpha : c.isAlpha = true ↔ c.isUpper = true ∨ c.isLower = true := Bool.or_eq_true_iff
  rw [Char.isAlphanum, Bool.or_eq_true, halpha, hupper, hlower, hdigit]
  exact (or_congr_left or_comm).trans or_assoc

theorem goesOn_iff {typed : List Char} {s : String} :
    (isPlainWord s && typed.isPrefixOf s.toList) = true ↔ GoesOn typed s := by
  have hplain : ∀ c : Char, (c.isAlphanum || decide (c = '_')) = true ↔
      'a' ≤ c ∧ c ≤ 'z' ∨ 'A' ≤ c ∧ c ≤ 'Z' ∨ '0' ≤ c ∧ c ≤ '9' ∨ c = '_' := by
    intro c
    rw [Bool.or_eq_true, isAlphanum_iff, decide_eq_true_eq, or_assoc, or_assoc]
  rw [isPlainWord, Bool.and_eq_true, Bool.and_eq_true, decide_eq_true_eq, List.all_eq_true,
    List.isPrefixOf_iff_prefix]
  simp only [hplain]
  exact ⟨fun ⟨⟨hne, hall⟩, htyped⟩ => ⟨hne, hall, htyped⟩,
    fun h => ⟨⟨h.nonempty, h.plain⟩, h.extend⟩⟩

theorem narrow_concat (typed : List Char) (items : List String) (item : String) :
    narrow typed (items ++ [item]) =
      if isPlainWord item && typed.isPrefixOf item.toList &&
          !(narrow typed items).contains item then
        narrow typed items ++ [item]
      else narrow typed items := by
  rw [narrow, List.foldl_append]
  rfl

/-- **Narrowing leaves the first occurrences of the candidates that go on from what is typed.** -/
theorem firstOccurrences_narrow (typed : List Char) (items : List String) :
    FirstOccurrences (GoesOn typed) items (narrow typed items) := by
  induction items using List.reverseRecOn with
  | nil => exact firstOccurrences_nil _
  | append_singleton items item ih =>
    rw [narrow_concat]
    split
    · next hkeep =>
      rw [Bool.and_eq_true, goesOn_iff, Bool.not_eq_true', List.contains_eq_mem,
        decide_eq_false_iff_not] at hkeep
      exact ih.keep hkeep.1 hkeep.2
    · next hskip =>
      rw [Bool.and_eq_true, goesOn_iff, Bool.not_eq_true', List.contains_eq_mem,
        decide_eq_false_iff_not, not_and, not_not] at hskip
      exact ih.skip hskip

theorem narrow_narrow (typed : List Char) (items : List String) :
    narrow typed (narrow typed items) = narrow typed items := by
  have h := firstOccurrences_narrow typed items
  exact (firstOccurrences_narrow typed _).unique
    (firstOccurrences_self h.nodup fun s hs => ((h.mem_iff s).1 hs).2)

/-! ## What the host is shown -/

namespace Turn

variable {t : Turn} {identity : String} {path : Path} {c : Connection} {b : Buffer} {result : Json}
  {items : List String}

/-- What candidates lead to: a completion without any is dismissed. -/
def offer (t : Turn) (shown : List String) : Turn :=
  { t with effects := t.effects ++
    if shown = [] then [.tell .dismissCompletion, .tell (.notify .info "No completions")]
    else [.tell (.showCompletions shown)] }

theorem offer_eq (t : Turn) (shown : List String) :
    t.offer shown =
      if shown.isEmpty then (t.tell .dismissCompletion).notice .info "No completions"
      else t.tell (.showCompletions shown) := by
  cases shown with
  | nil => simp [offer, tell, notice, emit]
  | cons s shown => simp [offer, tell, emit]

/-- A server whose candidates need filtering has them narrowed by the word before the cursor. -/
theorem onCompletion_filtered (hc : t.connection identity = some c)
    (hfilters : c.config.filtersCompletions = true) (hb : t.buffer path = some b)
    (hitems : readCompletion result = .ok items) :
    t.onCompletion identity (some path) result =
      .ok (t.offer (narrow (wordBefore isWordChar b.text.toList b.cursor) items)) := by
  simp only [onCompletion, hitems, bind, Except.bind, hc, Option.map_some, Option.getD_some,
    hfilters, Option.bind_some, hb, offer_eq]
  split <;> rfl

/-- **A server that sends every name in scope has its candidates narrowed.** What is read of its
result is what its items offer. Whatever counts as alphanumeric, what is typed is the longest run of
alphanumeric characters and underscores before the cursor, and narrowing leaves the first
occurrences of the candidates that are plain and go on from it. These are what the host is shown,
none twice, and narrowing them again changes nothing; the completion is dismissed when none is left,
and only then. -/
theorem shows_narrowed (hc : t.connection identity = some c)
    (hfilters : c.config.filtersCompletions = true) (hb : t.buffer path = some b)
    (hitems : readCompletion result = .ok items) :
    (∃ entries, ListsItems result entries ∧ OffersTexts entries items) ∧
    (∀ alphanumeric : Char → Bool,
      let isWord := fun c => alphanumeric c || c = '_'
      let typed := wordBefore isWord b.text.toList b.cursor
      IsWordBefore isWord b.text.toList b.cursor typed ∧
        FirstOccurrences (GoesOn typed) items (narrow typed items)) ∧
    let typed := wordBefore (fun c => isAlphanumeric c || c = '_') b.text.toList b.cursor
    let shown := narrow typed items
    t.onResult identity ⟨.completion, some path⟩ result = t.offer shown ∧
      shown.Nodup ∧ narrow typed shown = shown := by
  refine ⟨readCompletion_ok_iff.1 hitems, fun alphanumeric => ?_, ?_⟩
  · exact ⟨isWordBefore_wordBefore _ _ _, firstOccurrences_narrow _ _⟩
  · refine ⟨?_, (firstOccurrences_narrow _ _).nodup, narrow_narrow _ _⟩
    rw [onResult]
    simp only [onCompletion_filtered hc hfilters hb hitems]
    rfl

end Turn

namespace Sample

/-- A server that sends every name in scope. -/
def everyName : Connection :=
  .new 1 { ServerConfig.bare "s" [] with filtersCompletions := true } true

/-- A document whose cursor is said to be within its last character. -/
def typing : Turn :=
  ⟨{ Session.new ⟨"/"⟩ .default 1 ⟨[]⟩ with connections := Table.empty.set "s" everyName },
    Table.empty.set (Path.place ⟨"/a"⟩) ⟨"x.fo€", 6, none⟩, []⟩

/-- Names in scope: one that is no identifier, one that comes twice and one that does not go on from
what is typed; and an item without a name. -/
def scope : Json :=
  .obj [("items", .arr [.obj [("label", .str "fo::o")],
    .obj [("insertText", .str "foobar"), ("label", .str "bar")], .obj [("label", .str "fo_o")],
    .obj [("kind", .int 3)], .obj [("insertText", .null), ("label", .str "foobar")],
    .obj [("label", .str "of")]])]

end Sample

namespace Turn

/-- The two names that are left are shown, each once. -/
theorem shows_narrowed_scope :
    Sample.typing.connection "s" = some Sample.everyName ∧
      Sample.everyName.config.filtersCompletions = true ∧
      Sample.typing.buffer ⟨"/a"⟩ = some ⟨"x.fo€", 6, none⟩ ∧
      readCompletion Sample.scope = .ok ["fo::o", "foobar", "fo_o", "foobar", "of"] ∧
      Sample.typing.onResult "s" ⟨.completion, some ⟨"/a"⟩⟩ Sample.scope =
        Sample.typing.offer ["foobar", "fo_o"] := by
  have hc : Sample.typing.connection "s" = some Sample.everyName := rfl
  have hb : Sample.typing.buffer ⟨"/a"⟩ = some ⟨"x.fo€", 6, none⟩ := by decide
  have hread : readCompletion Sample.scope = .ok ["fo::o", "foobar", "fo_o", "foobar", "of"] := rfl
  refine ⟨hc, rfl, hb, hread, ?_⟩
  obtain ⟨-, -, hshown, -⟩ := shows_narrowed hc rfl hb hread
  refine hshown.trans (congrArg _ ?_)
  decide +kernel

end Turn

end LanguageClient
