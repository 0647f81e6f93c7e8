import LanguageClient.Log
import LanguageClient.Proofs.Text.Seams
import LanguageClient.Proofs.Text.Tail

/-!
# Logs of output in pieces

A log is the tail of what was seen of the output, though it was cut at every piece
(`ServerLog.cut_once`): each piece is read by itself, so a character that was cut between two pieces
is seen as marks. How far back a log has to reach for this to show (`ServerLog.reach`) tells just
when the log of an output is the tail of that output itself, whatever pieces it came in
(`ServerLog.isTail_text_iff`).
-/

namespace LanguageClient

open Utf8 (Sight Marked Splits replacement)

theorem Text.byteLength_reverse (cs : List Char) :
    byteLength cs.reverse = byteLength cs := by
  induction cs with
  | nil => rfl
  | cons c cs ih =>
    rw [List.reverse_cons, byteLength_append, ih]
    exact Nat.add_comm _ _

namespace ServerLog

variable {limit : Nat} {cs : List Char} {chunks : List Bytes}

/-! ## What a log keeps -/

/-- Adds output piece by piece. -/
def appendAll (log : ServerLog) (chunks : List Bytes) : ServerLog := chunks.foldl append log

/-- One piece leaves the tail of the text with what is seen of the piece. -/
theorem text_append (log : ServerLog) (bytes : Bytes) :
    (log.append bytes).text = Text.keepLast log.limit (log.text ++ Utf8.lossy bytes) :=
  Text.dropAtLeast_byteLength_sub _ _

/-- A log stays within its limit. -/
theorem byteLength_append_le (log : ServerLog) (bytes : Bytes) :
    Text.byteLength (log.append bytes).text ≤ (log.append bytes).limit := by
  rw [text_append]
  exact (Text.isTail_keepLast _ _).fits

/-- **All pieces leave the tail of the text with what is seen of each.** -/
theorem text_appendAll {log : ServerLog} (h : Text.byteLength log.text ≤ log.limit)
    (chunks : List Bytes) :
    (log.appendAll chunks).text =
      Text.keepLast log.limit (log.text ++ chunks.flatMap Utf8.lossy) := by
  induction chunks generalizing log with
  | nil =>
    rw [List.flatMap_nil, List.append_nil, Text.keepLast_of_le h]
    rfl
  | cons bytes chunks ih =>
    have hrest := ih (byteLength_append_le log bytes)
    have hlimit : (log.append bytes).limit = log.limit := rfl
    rw [text_append, hlimit, Text.keepLast_append, List.append_assoc] at hrest
    exact hrest

/-- **Cutting at every piece loses no more than cutting once at the end.** Whatever the pieces are,
the log is the longest suffix within the limit of what was seen of them, each read by itself; in
bytes, it starts at the first boundary between characters that leaves no more than the limit. -/
theorem cut_once (id : ConnectionId) (limit : Nat) (chunks : List Bytes) :
    let seen := chunks.flatMap Utf8.lossy
    let log := (new id limit).appendAll chunks
    Text.IsTail limit seen log.text ∧
      log.text = Text.dropAtLeast (Text.byteLength seen - limit) seen ∧
      ∃ start, Text.IsBoundary start seen ∧ Text.byteLength seen ≤ start + limit ∧
        (∀ n, Text.IsBoundary n seen → Text.byteLength seen ≤ n + limit → start ≤ n) ∧
        Utf8.encode log.text = (Utf8.encode seen).drop start := by
  intro seen log
  have htext : log.text = Text.keepLast limit seen := text_appendAll (Nat.zero_le _) chunks
  have htail : Text.IsTail limit seen log.text := Text.isTail_iff.2 htext
  refine ⟨htail, ?_, htail.exists_start⟩
  rw [Text.dropAtLeast_byteLength_sub, htext]

/-- A character in two pieces is seen as two marks, and the cut behind the second piece, which goes
through the first of them, leaves the other. -/
example : ((new 1 6).appendAll [[97, 0xC3], [0xA9, 98]]).text = [replacement, 'b'] := by decide

/-! ## How far marks are seen -/

/-- How many bytes a tail that ends with a cut character must have room for to differ from what is
seen in its place. The characters up to the cut one are given last first: marks look alike, so where
the text itself has marks there, the first other character tells, or that there are too many. -/
def reach : List Char → Nat
  | [] => 3
  | c :: rest => if c = replacement then 3 + reach rest else min c.utf8Size 3

theorem reach_append_le (front rest : List Char) :
    reach (front ++ rest) ≤ Text.byteLength front + reach rest := by
  induction front with
  | nil => exact Nat.le_add_left _ _
  | cons c front ih =>
    rw [List.cons_append, reach, Text.byteLength]
    split
    · next hc =>
      rw [hc, show replacement.utf8Size = 3 from rfl, Nat.add_assoc]
      exact Nat.add_le_add_left ih 3
    · omega

/-- Where the fronts of two texts differ in their first characters, they are equal only when
neither character has room. -/
theorem takeBytes_cons_eq_iff {c d : Char} (h : c ≠ d) (cs ds : List Char) (limit : Nat) :
    Text.takeBytes limit (c :: cs) = Text.takeBytes limit (d :: ds) ↔
      limit < min c.utf8Size d.utf8Size := by
  rw [Text.takeBytes, Text.takeBytes]
  split <;> split
  · simp only [List.cons.injEq, h, false_and, false_iff]
    omega
  · simp only [reduceCtorEq, false_iff]
    omega
  · simp only [reduceCtorEq, false_iff]
    omega
  · simp only [true_iff]
    omega

/-- Where they are the same, the rests decide. -/
theorem takeBytes_cons_cons_iff (c : Char) (cs ds : List Char) (limit : Nat) :
    Text.takeBytes limit (c :: cs) = Text.takeBytes limit (c :: ds) ↔
      (c.utf8Size ≤ limit →
        Text.takeBytes (limit - c.utf8Size) cs = Text.takeBytes (limit - c.utf8Size) ds) := by
  rw [Text.takeBytes, Text.takeBytes]
  split
  · next hfits => rw [List.cons.injEq, and_iff_right rfl, forall_prop_of_true hfits]
  · next hfits => exact iff_of_true rfl fun h => absurd h hfits

theorem exists_text_eq_replicate {s : Sight} (h : s.char = replacement) :
    ∃ k, s.text = List.replicate (k + 1) replacement := by
  obtain ⟨c, marks⟩ := s
  obtain rfl : c = replacement := h
  cases marks with
  | zero => exact ⟨0, rfl⟩
  | succ k => exact ⟨k, rfl⟩

/-- Behind one mark too many, a tail differs as soon as it reaches that mark. -/
theorem takeBytes_mark_iff (sights : List Sight) (n limit : Nat) :
    Text.takeBytes limit (sights.map Sight.char) = Text.takeBytes limit
        (replacement :: (List.replicate n replacement ++ sights.flatMap Sight.text)) ↔
      limit < reach (sights.map Sight.char) := by
  induction sights generalizing n limit with
  | nil =>
    rw [List.map_nil, Text.takeBytes, Text.takeBytes, reach]
    split
    · simp only [reduceCtorEq, false_iff]
      exact Nat.not_lt.2 ‹_›
    · simp only [true_iff]
      exact Nat.not_le.1 ‹_›
  | cons s sights ih =>
    rw [List.map_cons, List.flatMap_cons, reach]
    split
    · next hc =>
      -- the text has a mark there as well, so what comes next decides
      obtain ⟨k, hk⟩ := exists_text_eq_replicate hc
      have hmarks : List.replicate n replacement ++ (s.text ++ sights.flatMap Sight.text) =
          replacement :: (List.replicate (n + k) replacement ++ sights.flatMap Sight.text) := by
        rw [hk, ← List.append_assoc, List.replicate_append_replicate]
        rfl
      have hsize : replacement.utf8Size = 3 := rfl
      rw [hmarks, hc, takeBytes_cons_cons_iff, ih, hsize]
      omega
    · next hc => exact takeBytes_cons_eq_iff hc _ _ limit

/-- Whether a limit reaches no character that is seen as marks; the last one of the text is given
first. -/
def OutOfReach (limit : Nat) (sights : List Sight) : Prop :=
  ∀ front s back, sights = front ++ s :: back → s.marks ≠ 0 →
    limit < Text.byteLength (front.map Sight.char) + reach ((s :: back).map Sight.char)

/-- A character that is seen itself takes its bytes of the limit. -/
theorem outOfReach_whole_cons_iff {c : Char} {sights : List Sight} :
    OutOfReach limit (.whole c :: sights) ↔
      (c.utf8Size ≤ limit → OutOfReach (limit - c.utf8Size) sights) := by
  constructor
  · intro hall hfits front s back heq hmarks
    have hlt := hall (.whole c :: front) s back (by rw [heq]; rfl) hmarks
    rw [List.map_cons, Text.byteLength, show (Sight.whole c).char = c from rfl] at hlt
    omega
  · intro hall front s back heq hmarks
    cases front with
    | nil =>
      obtain ⟨rfl, rfl⟩ := List.cons.inj heq
      exact absurd rfl hmarks
    | cons t front =>
      obtain ⟨rfl, rfl⟩ := List.cons.inj heq
      rw [List.map_cons, Text.byteLength, show (Sight.whole c).char = c from rfl]
      by_cases hfits : c.utf8Size ≤ limit
      · have hlt := hall hfits front s back rfl hmarks
        omega
      · omega

/-- When the last character is seen as marks, no other one is reached before it. -/
theorem outOfReach_cons_iff {s : Sight} {sights : List Sight} (h : s.marks ≠ 0) :
    OutOfReach limit (s :: sights) ↔ limit < reach ((s :: sights).map Sight.char) := by
  constructor
  · intro hall
    have hlt := hall [] s sights rfl h
    rwa [List.map_nil, Text.byteLength, Nat.zero_add] at hlt
  · intro hlt front t back heq _
    rw [heq, List.map_append] at hlt
    exact Nat.lt_of_lt_of_le hlt (reach_append_le _ _)

/-- Seen from the end, tails are equal when no character that is seen as marks is within reach. -/
theorem takeBytes_text_iff {sights : List Sight} (h : ∀ s ∈ sights, s.marks ≠ 1) (limit : Nat) :
    Text.takeBytes limit (sights.map Sight.char) =
        Text.takeBytes limit (sights.flatMap Sight.text) ↔ OutOfReach limit sights := by
  induction sights generalizing limit with
  | nil => simp [OutOfReach]
  | cons s sights ih =>
    have hrest : ∀ s ∈ sights, s.marks ≠ 1 := fun t ht => h t (List.mem_cons_of_mem _ ht)
    obtain ⟨c, marks⟩ := s
    cases marks with
    | zero =>
      change Text.takeBytes limit (c :: sights.map Sight.char) =
        Text.takeBytes limit (c :: sights.flatMap Sight.text) ↔
          OutOfReach limit (.whole c :: sights)
      rw [takeBytes_cons_cons_iff, ih hrest, outOfReach_whole_cons_iff]
    | succ k =>
      -- one of the marks is too many, and the others are at least one
      have hk : k ≠ 0 := fun hk => h ⟨c, k + 1⟩ List.mem_cons_self (by rw [hk])
      have hmark := takeBytes_mark_iff (⟨c, k⟩ :: sights) 0 limit
      have htext : replacement :: (List.replicate 0 replacement ++
          (Sight.mk c k :: sights).flatMap Sight.text) =
          (Sight.mk c (k + 1) :: sights).flatMap Sight.text := by
        simp [Sight.text, hk, List.replicate_succ]
      rw [htext] at hmark
      rw [outOfReach_cons_iff (Nat.succ_ne_zero k)]
      exact hmark

theorem reverse_flatMap_text (sights : List Sight) :
    (sights.flatMap Sight.text).reverse = sights.reverse.flatMap Sight.text := by
  have hsame : List.reverse ∘ Sight.text = Sight.text := by
    funext s
    rw [Function.comp_apply, Sight.text]
    split
    · rfl
    · exact List.reverse_replicate
  rw [List.reverse_flatMap, hsame]

/-! ## The log of an output -/

/-- **The log of an output that came in pieces is the tail of that output just when the limit does
not reach as far back as the marks of a character that was cut between two pieces.** -/
theorem isTail_text_iff (h : chunks.flatten = Utf8.encode cs) (id : ConnectionId) (limit : Nat) :
    Text.IsTail limit cs ((new id limit).appendAll chunks).text ↔
      ∀ before c after, cs = before ++ c :: after → Splits chunks before c →
        limit < Text.byteLength after + reach (c :: before.reverse) := by
  obtain ⟨sights, rfl, hseen, hmarked⟩ :=
    Utf8.exists_seen (h.trans (List.nil_append _).symm) nofun
  have hone : ∀ s ∈ sights.reverse, s.marks ≠ 1 := by
    intro s hs
    obtain ⟨front, back, rfl⟩ := List.append_of_mem (List.mem_reverse.1 hs)
    exact hmarked.middle.1
  rw [text_appendAll (Nat.zero_le _), hseen, Text.isTail_iff, eq_comm]
  change Text.keepLast limit (sights.map Sight.char) =
    Text.keepLast limit (sights.flatMap Sight.text) ↔ _
  rw [Text.keepLast_eq_iff, ← List.map_reverse, reverse_flatMap_text, takeBytes_text_iff hone]
  constructor
  · intro hall before c after heq hsplits
    obtain ⟨front, rest, rfl, rfl, hrest⟩ := List.map_eq_append_iff.1 heq
    obtain ⟨s, back, rfl, rfl, rfl⟩ := List.map_eq_cons_iff.1 hrest
    have hsplit : s.marks ≠ 0 := hmarked.middle.2.2 (by simpa [Splits] using hsplits)
    have hlt := hall back.reverse s front.reverse (by simp) hsplit
    rwa [List.map_reverse, Text.byteLength_reverse, List.map_cons, List.map_reverse] at hlt
  · intro hall front s back heq hmarks
    obtain rfl : sights = back.reverse ++ s :: front.reverse := by
      rw [← sights.reverse_reverse, heq]
      simp
    have hsplits := hmarked.middle.2.1 hmarks
    have hlt := hall (back.reverse.map Sight.char) s.char (front.reverse.map Sight.char)
      (by simp) (by simpa [Splits] using hsplits)
    rwa [List.map_reverse, Text.byteLength_reverse, List.map_reverse, List.reverse_reverse,
      ← List.map_cons] at hlt

/-- A character that comes in two pieces is seen as two marks, unless only what is behind it is
kept. -/
theorem isTail_text_iff_apart :
    ¬ Text.IsTail 8 ['é'] ((new 1 8).appendAll [[0xC3], [0xA9]]).text ∧
      Text.IsTail 1 ['é', 'a'] ((new 1 1).appendAll [[0xC3], [0xA9, 97]]).text := by
  have hone : ([[0xC3], [0xA9]] : List Bytes).flatten = Utf8.encode ['é'] := by decide
  have htwo : ([[0xC3], [0xA9, 97]] : List Bytes).flatten = Utf8.encode ['é', 'a'] := by decide
  constructor
  · rw [isTail_text_iff hone]
    intro hall
    exact absurd (hall [] 'é' [] rfl (by decide)) (by decide)
  · rw [isTail_text_iff htwo]
    intro before c after heq hsplits
    rcases before with _ | ⟨b, _ | ⟨b', before⟩⟩
    · obtain ⟨rfl, rfl⟩ := List.cons.inj heq
      decide
    · obtain ⟨rfl, hrest⟩ := List.cons.inj heq
      obtain ⟨rfl, rfl⟩ := List.cons.inj hrest
      exact absurd hsplits (by decide)
    · simp at heq

end ServerLog
end LanguageClient
