import LanguageClient.Command.Location
import LanguageClient.Proofs.Json.Record
import LanguageClient.Proofs.Text.Clipping
import LanguageClient.Session.Requests

/-!
# Selections of whole lines

The offsets around a span of lines are where its first line starts and where the line behind its
last one would: what is between them is just these lines, each with its break, as far as the text
has them, and as positions they are the starts of lines again or the end of the text
(`lineSelection_lines`). Both come from telling the start of a line by the lines before it
(`Position.offset_lineStart`).
-/

namespace LanguageClient

namespace Text

variable {n m : Nat} {cs front : List Char}

/-! ## Lines with their breaks -/

/-- The lines of a text, each with the line feed that ends it; the last one has none. -/
def endedLines (cs : List Char) : List (List Char) :=
  (lines cs).dropLast.map (· ++ ['\n']) ++ (lines cs).getLast?.toList

theorem lines_ne_nil (cs : List Char) : lines cs ≠ [] :=
  List.ne_nil_of_length_eq_add_one (length_lines cs)

theorem endedLines_feed (cs : List Char) : endedLines ('\n' :: cs) = ['\n'] :: endedLines cs := by
  obtain ⟨line, rest, hlines⟩ := List.exists_cons_of_ne_nil (lines_ne_nil cs)
  simp [endedLines, lines_feed, hlines]

theorem endedLines_char {c : Char} (hc : c ≠ '\n') (cs : List Char) :
    endedLines (c :: cs) = (endedLines cs).modifyHead (c :: ·) := by
  obtain ⟨line, rest, hlines⟩ := List.exists_cons_of_ne_nil (lines_ne_nil cs)
  cases rest <;> simp [endedLines, lines_char hc, hlines]

theorem length_endedLines (cs : List Char) : (endedLines cs).length = cs.count '\n' + 1 := by
  rw [endedLines, List.length_append, List.length_map, List.length_dropLast, length_lines,
    List.getLast?_eq_some_getLast (lines_ne_nil cs)]
  rfl

theorem flatten_endedLines (cs : List Char) : (endedLines cs).flatten = cs := by
  induction cs with
  | nil => rfl
  | cons c cs ih =>
    by_cases hc : c = '\n'
    · rw [hc, endedLines_feed, List.flatten_cons, ih, List.singleton_append]
    · obtain ⟨line, rest, hlines⟩ := List.exists_cons_of_length_eq_add_one (length_endedLines cs)
      rw [endedLines_char hc, hlines, List.modifyHead_cons, List.flatten_cons, List.cons_append,
        ← List.flatten_cons, ← hlines, ih]

theorem take_endedLines_of_count_lt (h : cs.count '\n' < n) :
    ((endedLines cs).take n).flatten = cs := by
  have hlength : (endedLines cs).length ≤ n := by
    rw [length_endedLines]
    exact h
  rw [List.take_of_length_le hlength, flatten_endedLines]

/-- Whole lines in front of a text are its first ones. -/
theorem WholeLines.take_endedLines (h : WholeLines n front) (rest : List Char) :
    ((endedLines (front ++ rest)).take n).flatten = front := by
  induction h with
  | nil => rw [List.take_zero, List.flatten_nil]
  | feed _ ih => rw [List.cons_append, endedLines_feed, List.take_succ_cons, List.flatten_cons, ih,
      List.singleton_append]
  | @char n cs c hc _ ih =>
    obtain ⟨line, rest', hlines⟩ :=
      List.exists_cons_of_length_eq_add_one (length_endedLines (cs ++ rest))
    rw [hlines, List.take_succ_cons, List.flatten_cons] at ih
    rw [List.cons_append, endedLines_char hc, hlines, List.modifyHead_cons, List.take_succ_cons,
      List.flatten_cons, List.cons_append, ih]

/-- What is between the first `n` lines and the first `m` ones. -/
theorem sliceBytes_endedLines (h : n ≤ m) (cs : List Char) :
    sliceBytes (byteLength ((endedLines cs).take n).flatten)
        (byteLength ((endedLines cs).take m).flatten) cs =
      (((endedLines cs).take m).drop n).flatten := by
  have hfirst : ((endedLines cs).take m).take n = (endedLines cs).take n := by
    rw [List.take_take, Nat.min_eq_left h]
  have hfront : ((endedLines cs).take m).flatten =
      ((endedLines cs).take n).flatten ++ (((endedLines cs).take m).drop n).flatten := by
    rw [← List.flatten_append, ← hfirst, List.take_append_drop]
  have hall : cs = ((endedLines cs).take n).flatten ++
      ((((endedLines cs).take m).drop n).flatten ++ ((endedLines cs).drop m).flatten) := by
    rw [← List.append_assoc, ← hfront, ← List.flatten_append, List.take_append_drop,
      flatten_endedLines]
  rw [hfront, byteLength_append]
  exact (congrArg (sliceBytes _ _) hall).trans (sliceBytes_append _ _ _)

/-- Where a line starts, or, if a text has no such line, the end of the text: it is behind the last
line with all that this holds. -/
def lineStart (n : Nat) (cs : List Char) : Position :=
  if n < (lines cs).length then ⟨n, 0⟩
  else ⟨(lines cs).length - 1, units ((lines cs).getLast (lines_ne_nil cs))⟩

end Text

namespace Position

open Text

/-- The start of a line has the lines before it in front, or, if it is missing, all of the text. -/
theorem offset_lineStart (n : Nat) (cs : List Char) :
    offset ⟨n, 0⟩ cs = byteLength ((endedLines cs).take n).flatten := by
  cases hline : fromLine n cs with
  | some rest =>
    obtain ⟨front, rfl, hfront⟩ := fromLine_eq_some_iff.1 hline
    have hzero : columnOffset 0 (firstLine rest) = 0 := by rw [columnOffset]
    rw [hfront.take_endedLines, offset, hfront.offsetAt_append, hzero, Nat.add_zero]
  | none =>
    have hcount := fromLine_eq_none_iff.1 hline
    rw [take_endedLines_of_count_lt hcount]
    exact offsetAt_of_count_lt hcount 0

/-- Behind some lines a line starts, or the text ends. -/
theorem ofOffset_take_endedLines (n : Nat) (cs : List Char) :
    ofOffset cs (byteLength ((endedLines cs).take n).flatten) = lineStart n cs := by
  cases hline : fromLine n cs with
  | some rest =>
    have hcount : n ≤ cs.count '\n' := by
      rw [← isSome_fromLine_iff, hline]
      rfl
    obtain ⟨front, rfl, hfront⟩ := fromLine_eq_some_iff.1 hline
    have hplace := hfront.ofOffset_append List.not_mem_nil rest
    rw [hfront.take_endedLines, lineStart, if_pos (by rw [length_lines]; omega)]
    exact hplace
  | none =>
    have hcount := fromLine_eq_none_iff.1 hline
    obtain ⟨last, hlast, hend⟩ := exists_ofOffset_byteLength cs
    rw [List.getLast?_eq_some_getLast (lines_ne_nil cs)] at hlast
    rw [take_endedLines_of_count_lt hcount, hend, lineStart,
      if_neg (by rw [length_lines]; omega), Option.some.inj hlast, length_lines,
      Nat.add_sub_cancel]

end Position

/-! ## Spans of lines -/

theorem readCoordinate_pos {what : Coordinate} {cs : List Char} {n : Nat}
    (h : readCoordinate what cs = .ok n) : 0 < n := by
  unfold readCoordinate at h
  split at h
  · cases h
  · cases h
  · next hzero _ =>
    obtain rfl := Except.ok.inj h
    exact Nat.pos_of_ne_zero hzero

/-- A span that is read has a first line, and its last one is not before that. -/
theorem readLineSpan_ordered {input : String} {first last : Nat}
    (h : readLineSpan input = .ok (first, last)) : 0 < first ∧ first ≤ last := by
  have hchecked : ∀ a b, readCoordinate .line a = .ok b →
      ∀ c, (if c < b then Except.error (LocationError.reversed input) else Except.ok (b, c)) =
        Except.ok (first, last) → 0 < first ∧ first ≤ last := by
    intro a b hb c hspan
    split at hspan
    · cases hspan
    · next hle =>
      obtain ⟨rfl, rfl⟩ := Prod.mk.inj (Except.ok.inj hspan)
      exact ⟨readCoordinate_pos hb, Nat.not_lt.1 hle⟩
  unfold readLineSpan at h
  split at h
  · simp only [bind_eq_ok_iff, pure, Except.pure, Except.ok.injEq, exists_eq_left'] at h
    obtain ⟨b, hb, c, -, hspan⟩ := h
    exact hchecked _ b hb c hspan
  · simp only [bind_eq_ok_iff, pure, Except.pure, Except.ok.injEq, exists_eq_left'] at h
    obtain ⟨b, hb, hspan⟩ := h
    exact hchecked _ b hb b hspan

theorem lineSelection_eq (text : List Char) (first last : Nat) :
    lineSelection text first last =
      (Text.byteLength ((Text.endedLines text).take (first - 1)).flatten,
        Text.byteLength ((Text.endedLines text).take last).flatten) := by
  rw [← Position.offset_lineStart, ← Position.offset_lineStart]
  rfl

/-- The range that is asked for is where the selection starts and where it ends. -/
theorem get?_range_requestParams (settings : Settings) (path : Path) (text : String) (cursor : Nat)
    {start stop : Nat} (h : start ≤ stop) :
    (Turn.requestParams settings .rangeFormat path ⟨text, cursor, some (start, stop)⟩).get?
        "range" =
      some (Range.toJson ⟨Position.ofOffset text.toList start,
        Position.ofOffset text.toList stop⟩) := by
  simp [Turn.requestParams, Turn.formattingRange, Json.get?_object, h]

theorem Turn.request_of_targets {t : Turn} {kind : RequestKind} {path : Path} {b : Buffer}
    {identities : List String} (hbuffer : t.buffer path = some b)
    (htargets : t.targets kind path = .ok identities) :
    t.request kind path =
      t.askAll kind path (requestParams t.session.settings kind path b) identities := by
  rw [request, htargets]
  simp only [hbuffer]

/-- **A span of lines selects these lines as a whole.** It is selected by two boundaries in order,
and between them are the lines from the first to the last, each with its break, as far as the text
has them. When the host's buffer has this selection, servers are asked for the range from the start
of the first line to the start of the line behind the last one, each being the end of the text if it
has no such line. -/
theorem lineSelection_lines {input : String} {first last : Nat}
    (h : readLineSpan input = .ok (first, last)) (text : String) :
    0 < first ∧ first ≤ last ∧
    ∃ start stop, lineSelection text.toList first last = (start, stop) ∧ start ≤ stop ∧
      Text.IsBoundary start text.toList ∧ Text.IsBoundary stop text.toList ∧
      Text.sliceBytes start stop text.toList =
        (((Text.endedLines text.toList).take last).drop (first - 1)).flatten ∧
      ∀ (t : Turn) (path : Path) (identities : List String),
        t.buffer path = some ⟨text, start, some (start, stop)⟩ →
        t.targets .rangeFormat path = .ok identities →
        ∃ params, t.request .rangeFormat path = t.askAll .rangeFormat path params identities ∧
          params.get? "range" = some (Range.toJson
            ⟨Text.lineStart (first - 1) text.toList, Text.lineStart last text.toList⟩) := by
  obtain ⟨hpos, hle⟩ := readLineSpan_ordered h
  have hbefore : first - 1 ≤ last := by omega
  have hordered := Position.offset_mono (p := ⟨first - 1, 0⟩) (q := ⟨last, 0⟩)
    (Position.le_iff.2 (by simp only; omega)) text.toList
  have hstart := Position.isBoundary_offset ⟨first - 1, 0⟩ text.toList
  have hstop := Position.isBoundary_offset ⟨last, 0⟩ text.toList
  rw [Position.offset_lineStart] at hstart hstop
  rw [Position.offset_lineStart, Position.offset_lineStart] at hordered
  refine ⟨hpos, hle, _, _, lineSelection_eq text.toList first last, hordered, hstart, hstop,
    Text.sliceBytes_endedLines hbefore text.toList, fun t path identities hbuffer htargets => ?_⟩
  refine ⟨_, Turn.request_of_targets hbuffer htargets, ?_⟩
  rw [get?_range_requestParams _ _ _ _ hordered, Position.ofOffset_take_endedLines,
    Position.ofOffset_take_endedLines]

namespace Sample

/-- A text of three lines. -/
def threeLines : String := "a\r\nb\r\n😀"

/-- A server that formats ranges, and a buffer with the text and a selection. -/
def selecting (start stop : Nat) : Turn :=
  let provider := Json.obj [("documentRangeFormattingProvider", .bool true)]
  ⟨{ Session.new ⟨"/"⟩ .default 1 ⟨[]⟩ with
      connections := Table.empty.set "s"
        { Connection.new 1 (.bare "s" []) true with state := .active }
      capabilities := Table.empty.set "s" ⟨provider⟩ },
    Table.empty.set (Path.place ⟨"/a"⟩) ⟨threeLines, start, some (start, stop)⟩, []⟩

end Sample

/-- A span from the second line to past the end selects what the text has of it, breaks included,
and the server is asked for the range up to the end of the text. -/
theorem lineSelection_lines_past :
    readLineSpan "2:9" = .ok (2, 9) ∧ lineSelection Sample.threeLines.toList 2 9 = (3, 10) ∧
      Text.sliceBytes 3 10 Sample.threeLines.toList = "b\r\n😀".toList ∧
      (Sample.selecting 3 10).buffer ⟨"/a"⟩ = some ⟨Sample.threeLines, 3, some (3, 10)⟩ ∧
      (Sample.selecting 3 10).targets .rangeFormat ⟨"/a"⟩ = .ok ["s"] ∧
      ∃ params, (Sample.selecting 3 10).request .rangeFormat ⟨"/a"⟩ =
          (Sample.selecting 3 10).askAll .rangeFormat ⟨"/a"⟩ params ["s"] ∧
        params.get? "range" = some (Range.toJson ⟨⟨1, 0⟩, ⟨2, 2⟩⟩) := by
  have hspan : readLineSpan "2:9" = .ok (2, 9) := by rfl
  obtain ⟨-, -, start, stop, hselection, -, -, -, hslice, hasks⟩ :=
    lineSelection_lines hspan Sample.threeLines
  have hoffsets : lineSelection Sample.threeLines.toList 2 9 = (3, 10) := by decide
  obtain ⟨rfl, rfl⟩ := Prod.mk.inj (hoffsets.symm.trans hselection)
  have hbuffer : (Sample.selecting 3 10).buffer ⟨"/a"⟩ =
      some ⟨Sample.threeLines, 3, some (3, 10)⟩ := by decide
  have htargets : (Sample.selecting 3 10).targets .rangeFormat ⟨"/a"⟩ = .ok ["s"] := by rfl
  have hfirst : Text.lineStart 1 Sample.threeLines.toList = ⟨1, 0⟩ := by decide
  have hend : Text.lineStart 9 Sample.threeLines.toList = ⟨2, 2⟩ := by decide
  obtain ⟨params, hrequest, hrange⟩ := hasks _ _ _ hbuffer htargets
  rw [hfirst, hend] at hrange
  exact ⟨hspan, hoffsets, hslice.trans (by decide), hbuffer, htargets, params, hrequest, hrange⟩

end LanguageClient
