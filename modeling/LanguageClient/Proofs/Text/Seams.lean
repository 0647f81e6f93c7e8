import LanguageClient.Proofs.Text.Boundary

/-!
# Texts read in pieces

What becomes of a text whose bytes are read leniently piece by piece. A character that a seam
between two pieces lies inside of (`Utf8.Splits`) is seen as marks, two or more, since each of its
parts is malformed by itself; every other character is seen as it is (`Utf8.exists_seen`).
-/

namespace LanguageClient.Utf8

variable {b : UInt8} {bytes part left stray rest : Bytes} {c : Char} {cs : List Char}

/-! ## Parts of a character -/

theorem pieces_ne_nil (h : bytes ≠ []) : pieces bytes ≠ [] := by
  fun_cases pieces bytes <;> simp_all

/-- The front of a character is malformed by itself, in one run. -/
theorem pieces_front (h : pieces (part ++ left) = [some c]) (hpart : part ≠ [])
    (hleft : left ≠ []) : pieces part = [none] := by
  have hmore : ∀ bs, pieces (bs ++ left) ≠ [] := fun bs => pieces_ne_nil (by simp [hleft])
  fun_cases pieces part with
  | case1 => exact absurd rfl hpart
  | case2 a as ha =>
    rw [List.cons_append, pieces_one _ ha] at h
    exact absurd (List.cons.inj h).2 (hmore as)
  | case3 a ha => rfl
  | case4 a ha b as hb =>
    rw [List.cons_append, List.cons_append, pieces_break_two _ ha (by simpa using hb)] at h
    cases (List.cons.inj h).1
  | case5 a ha b as hb h' =>
    rw [List.cons_append, List.cons_append, pieces_two _ ha (by simpa using hb) h'] at h
    exact absurd (List.cons.inj h).2 (hmore as)
  | case6 a _ b hb h' => rfl
  | case7 a _ b hb h' c as hc =>
    rw [List.cons_append, List.cons_append, List.cons_append,
      pieces_break_three _ (by simpa using hb) h' (by simpa using hc)] at h
    cases (List.cons.inj h).1
  | case8 a _ b hb h' c as hc h'' =>
    rw [List.cons_append, List.cons_append, List.cons_append,
      pieces_three _ (by simpa using hb) (by simpa using hc) h' h''] at h
    exact absurd (List.cons.inj h).2 (hmore as)
  | case9 a _ b hb _ c hc h' => rfl
  | case10 a _ b hb _ c hc h' d as hd =>
    rw [List.cons_append, List.cons_append, List.cons_append, List.cons_append,
      pieces_break_four _ (by simpa using hb) (by simpa using hc) h' (by simpa using hd)] at h
    cases (List.cons.inj h).1
  | case11 a _ b hb _ c hc h' d as hd =>
    rw [List.cons_append, List.cons_append, List.cons_append, List.cons_append,
      pieces_four _ (by simpa using hb) (by simpa using hc) (by simpa using hd) h'] at h
    exact absurd (List.cons.inj h).2 (hmore as)

/-- Whether all bytes continue a character. -/
def Continues (bytes : Bytes) : Prop := ∀ b ∈ bytes, isContinuation b = true

theorem continues_tail_encodeChar (c : Char) : Continues (String.utf8EncodeChar c).tail := by
  have hcont : ∀ n, isContinuation (UInt8.ofNat (n % 0x40 + 0x80)) = true := fun n =>
    isContinuation_ofNat (Nat.mod_lt n (by decide))
  intro b hb
  unfold String.utf8EncodeChar at hb
  dsimp only at hb
  split at hb
  · cases hb
  · split at hb
    · simp only [List.tail_cons, List.mem_singleton] at hb
      exact hb ▸ hcont _
    · split at hb
      · simp only [List.tail_cons, List.mem_cons, List.not_mem_nil, or_false] at hb
        rcases hb with rfl | rfl <;> exact hcont _
      · simp only [List.tail_cons, List.mem_cons, List.not_mem_nil, or_false] at hb
        rcases hb with rfl | rfl | rfl <;> exact hcont _

/-- What is left of a character after a part of it only continues it. -/
theorem continues_left (h : String.utf8EncodeChar c = part ++ left) (hpart : part ≠ []) :
    Continues left := by
  intro b hb
  refine continues_tail_encodeChar c b ?_
  rw [h, List.tail_append_of_ne_nil hpart]
  exact List.mem_append_right _ hb

theorem pieces_continuation (hb : isContinuation b = true) (rest : Bytes) :
    pieces (b :: rest) = none :: pieces rest := by
  simp only [isContinuation, UInt8.le_iff_toNat_le, Bool.and_eq_true, decide_eq_true_eq] at hb
  have hlow : ¬ b < 0x80 := by
    rw [UInt8.lt_iff_toNat_lt]
    omega
  have hfollow : ∀ d, mayFollow b d = false := by
    intro d
    have hlead : b < 0xC2 := by
      rw [UInt8.lt_iff_toNat_lt]
      exact Nat.lt_of_le_of_lt hb.2 (by decide)
    simp [mayFollow, hlead]
  cases rest with
  | nil => simp [pieces, hlow]
  | cons d rest => exact pieces_break_two rest hlow (hfollow d)

/-- **Stray bytes of a character show as one mark each.** -/
theorem lossy_continues_append (h : Continues stray) (rest : Bytes) :
    lossy (stray ++ rest) = List.replicate stray.length replacement ++ lossy rest := by
  induction stray with
  | nil => rfl
  | cons b stray ih =>
    have htail : Continues stray := fun d hd => h d (List.mem_cons_of_mem _ hd)
    rw [List.cons_append, lossy, pieces_continuation (h b List.mem_cons_self), List.map_cons,
      ← lossy, ih htail]
    rfl

theorem lossy_encode_append (cs : List Char) (rest : Bytes) :
    lossy (encode cs ++ rest) = cs ++ lossy rest := by
  induction cs with
  | nil => rfl
  | cons c cs ih =>
    rw [encode, List.flatMap_cons, ← encode, List.append_assoc, lossy, pieces_encodeChar,
      List.map_cons, ← lossy, ih]
    rfl

theorem lossy_front (h : String.utf8EncodeChar c = part ++ left) (hpart : part ≠ [])
    (hleft : left ≠ []) : lossy part = [replacement] := by
  have hwhole : pieces (part ++ left) = [some c] := by
    rw [← h, ← List.append_nil (String.utf8EncodeChar c), pieces_encodeChar]
    rfl
  rw [lossy, pieces_front hwhole hpart hleft]
  rfl

/-! ## Seams -/

/-- A cut through the bytes of a text goes between two characters or through one. -/
theorem encode_eq_append {front back : Bytes} (h : encode cs = front ++ back) :
    (∃ as bs, cs = as ++ bs ∧ front = encode as ∧ back = encode bs) ∨
      ∃ as c bs part left, cs = as ++ c :: bs ∧ String.utf8EncodeChar c = part ++ left ∧
        part ≠ [] ∧ left ≠ [] ∧ front = encode as ++ part ∧ back = left ++ encode bs := by
  induction cs generalizing front with
  | nil =>
    obtain ⟨rfl, rfl⟩ := List.append_eq_nil_iff.1 h.symm
    exact .inl ⟨[], [], rfl, rfl, rfl⟩
  | cons c cs ih =>
    rw [encode, List.flatMap_cons, ← encode] at h
    rcases List.append_eq_append_iff.1 h with ⟨more, rfl, hmore⟩ | ⟨left, hc, rfl⟩
    · rcases ih hmore with ⟨as, bs, rfl, rfl, rfl⟩ |
        ⟨as, d, bs, part, left, rfl, hd, hpart, hleft, rfl, rfl⟩
      · exact .inl ⟨c :: as, bs, rfl, by simp [encode], rfl⟩
      · exact .inr ⟨c :: as, d, bs, part, left, rfl, hd, hpart, hleft, by simp [encode], rfl⟩
    · by_cases hfront : front = []
      · subst hfront
        exact .inl ⟨[], c :: cs, rfl, rfl, by rw [← List.nil_append left, ← hc]; simp [encode]⟩
      · by_cases hleft : left = []
        · subst hleft
          exact .inl ⟨[c], cs, rfl, by simpa [encode] using hc.symm, rfl⟩
        · exact .inr ⟨[], c, cs, front, left, rfl, hc, hfront, hleft, rfl, rfl⟩

/-- The offsets at which pieces end. -/
def seams : List Bytes → List Nat
  | [] => []
  | bytes :: rest => bytes.length :: (seams rest).map (bytes.length + ·)

/-- Whether one of the offsets lies inside of a character that starts at the offset `n`. -/
def Inside (offsets : List Nat) (n : Nat) (c : Char) : Prop :=
  ∃ s ∈ offsets, n < s ∧ s < n + c.utf8Size

/-- Whether a seam lies inside of the character `c` that stands behind `before`. -/
def Splits (chunks : List Bytes) (before : List Char) (c : Char) : Prop :=
  Inside (seams chunks) (Text.byteLength before) c

instance (offsets : List Nat) (n : Nat) (c : Char) : Decidable (Inside offsets n c) :=
  inferInstanceAs (Decidable (∃ s ∈ offsets, n < s ∧ s < n + c.utf8Size))

instance (chunks : List Bytes) (before : List Char) (c : Char) :
    Decidable (Splits chunks before c) :=
  inferInstanceAs (Decidable (Inside (seams chunks) (Text.byteLength before) c))

theorem inside_map_add {offsets : List Nat} {k n : Nat} :
    Inside (k :: offsets.map (k + ·)) (k + n) c ↔ Inside offsets n c := by
  constructor
  · rintro ⟨s, hs, hlt, hgt⟩
    rcases List.mem_cons.1 hs with rfl | hs
    · omega
    · obtain ⟨s', hs', rfl⟩ := List.mem_map.1 hs
      exact ⟨s', hs', by omega, by omega⟩
  · rintro ⟨s, hs, hlt, hgt⟩
    exact ⟨k + s, List.mem_cons_of_mem _ (List.mem_map_of_mem hs), by omega, by omega⟩

/-! ## What is seen -/

/-- A character of a text that was read in pieces, with the number of marks that are seen in its
place; there are none if it is seen itself. -/
structure Sight where
  char : Char
  marks : Nat
  deriving DecidableEq, Repr

/-- What is seen of a character. -/
def Sight.text (s : Sight) : List Char :=
  if s.marks = 0 then [s.char] else List.replicate s.marks replacement

/-- Whether the characters from the offset `n` on that have marks, two or more, are those that one
of the offsets lies inside of. -/
def Marked (offsets : List Nat) : Nat → List Sight → Prop
  | _, [] => True
  | n, s :: rest =>
    s.marks ≠ 1 ∧ (s.marks ≠ 0 ↔ Inside offsets n s.char) ∧
      Marked offsets (n + s.char.utf8Size) rest

theorem Marked.middle {offsets : List Nat} {n : Nat} {front back : List Sight} {s : Sight}
    (h : Marked offsets n (front ++ s :: back)) :
    s.marks ≠ 1 ∧
      (s.marks ≠ 0 ↔ Inside offsets (n + Text.byteLength (front.map Sight.char)) s.char) := by
  induction front generalizing n with
  | nil => exact ⟨h.1, h.2.1⟩
  | cons t front ih =>
    have hrest := ih h.2.2
    rwa [Nat.add_assoc] at hrest

/-- A character that is seen itself. -/
def Sight.whole (c : Char) : Sight := ⟨c, 0⟩

theorem map_char_whole (cs : List Char) : (cs.map Sight.whole).map Sight.char = cs := by
  rw [List.map_map]
  exact List.map_id cs

theorem flatMap_text_whole (cs : List Char) : (cs.map Sight.whole).flatMap Sight.text = cs := by
  induction cs with
  | nil => rfl
  | cons c cs ih =>
    rw [List.map_cons, List.flatMap_cons, ih]
    rfl

/-- What is marked behind a first piece stays marked when that piece is read as well. -/
theorem Marked.behind {chunks : List Bytes} {n : Nat} {sights : List Sight}
    (h : Marked (seams chunks) n sights) (bytes : Bytes) :
    Marked (seams (bytes :: chunks)) (bytes.length + n) sights := by
  induction sights generalizing n with
  | nil => trivial
  | cons s sights ih =>
    obtain ⟨hone, hiff, hrest⟩ := h
    refine ⟨hone, hiff.trans inside_map_add.symm, ?_⟩
    rw [Nat.add_assoc]
    exact ih hrest

theorem le_of_mem_seams {chunks : List Bytes} {s : Nat} (h : s ∈ seams (bytes :: chunks)) :
    bytes.length ≤ s := by
  rcases List.mem_cons.1 h with rfl | h
  · exact Nat.le_refl _
  · obtain ⟨s, -, rfl⟩ := List.mem_map.1 h
    exact Nat.le_add_right _ _

/-- Characters before all offsets are seen themselves. -/
theorem marked_whole_append {offsets : List Nat} {n : Nat} {sights : List Sight}
    (hafter : ∀ s ∈ offsets, n + Text.byteLength cs ≤ s)
    (h : Marked offsets (n + Text.byteLength cs) sights) :
    Marked offsets n (cs.map Sight.whole ++ sights) := by
  induction cs generalizing n with
  | nil => exact h
  | cons c cs ih =>
    rw [Text.byteLength, ← Nat.add_assoc] at hafter h
    refine ⟨by simp [Sight.whole], iff_of_false (by simp [Sight.whole]) ?_, ih hafter h⟩
    rintro ⟨s, hs, -, hlt⟩
    have hle := hafter s hs
    change s < n + c.utf8Size at hlt
    omega

/-- What is seen of a text that is read in pieces, when so many bytes of a character before it come
first: marks for those, and marks in place of the characters with a seam inside. -/
structure Seen (chunks : List Bytes) (stray : Nat) (cs : List Char) (sights : List Sight) :
    Prop where
  chars : sights.map Sight.char = cs
  text : chunks.flatMap lossy = List.replicate stray replacement ++ sights.flatMap Sight.text
  marked : Marked (seams chunks) stray sights

namespace Seen

variable {chunks : List Bytes} {sights : List Sight} {as : List Char}

theorem nil : Seen [] 0 [] [] := ⟨rfl, rfl, trivial⟩

/-- A piece that holds nothing but a part of what is left of the character before. -/
theorem cons_stray (hbytes : Continues bytes) (h : Seen chunks rest.length cs sights) :
    Seen (bytes :: chunks) (bytes ++ rest).length cs sights where
  chars := h.chars
  text := by
    have hmarks := lossy_continues_append hbytes []
    rw [List.append_nil, show lossy [] = [] from rfl, List.append_nil] at hmarks
    rw [List.flatMap_cons, hmarks, h.text, ← List.append_assoc, List.replicate_append_replicate,
      List.length_append]
  marked := by
    rw [List.length_append]
    exact h.marked.behind bytes

/-- A piece that ends between two characters. -/
theorem cons_encode (hstray : Continues stray) (h : Seen chunks 0 cs sights) :
    Seen ((stray ++ encode as) :: chunks) stray.length (as ++ cs)
      (as.map Sight.whole ++ sights) where
  chars := by rw [List.map_append, map_char_whole, h.chars]
  text := by
    rw [List.flatMap_cons, lossy_continues_append hstray, h.text, List.flatMap_append,
      flatMap_text_whole, lossy_encode, List.append_assoc]
    rfl
  marked := by
    have hlength : (stray ++ encode as).length = stray.length + Text.byteLength as := by
      rw [List.length_append, Text.length_encode]
    have hbehind := h.marked.behind (stray ++ encode as)
    rw [Nat.add_zero, hlength] at hbehind
    exact marked_whole_append (fun s hs => hlength ▸ le_of_mem_seams hs) hbehind

/-- A piece that ends inside of a character, of which it has a part. -/
theorem cons_part (hstray : Continues stray) (hc : String.utf8EncodeChar c = part ++ left)
    (hpart : part ≠ []) (hleft : left ≠ []) (h : Seen chunks left.length cs sights) :
    Seen ((stray ++ (encode as ++ part)) :: chunks) stray.length (as ++ c :: cs)
      (as.map Sight.whole ++ ⟨c, 1 + left.length⟩ :: sights) where
  chars := by rw [List.map_append, map_char_whole, List.map_cons, h.chars]
  text := by
    rw [List.flatMap_cons, lossy_continues_append hstray, h.text, List.flatMap_append,
      flatMap_text_whole, lossy_encode_append, lossy_front hc hpart hleft, List.flatMap_cons]
    simp [Sight.text, Nat.add_comm 1, List.replicate_succ]
  marked := by
    have hsize : c.utf8Size = part.length + left.length := by
      rw [← String.length_utf8EncodeChar, hc, List.length_append]
    have hpartPos := List.length_pos_iff.2 hpart
    have hleftPos := List.length_pos_iff.2 hleft
    have hlength : (stray ++ (encode as ++ part)).length =
        stray.length + Text.byteLength as + part.length := by
      rw [List.length_append, List.length_append, Text.length_encode, Nat.add_assoc]
    refine marked_whole_append (fun s hs => ?_) ⟨?_, iff_of_true ?_ ?_, ?_⟩
    · have hle := le_of_mem_seams hs
      omega
    · change 1 + left.length ≠ 1
      omega
    · change 1 + left.length ≠ 0
      omega
    · refine ⟨_, List.mem_cons_self, ?_, ?_⟩
      · omega
      · change _ < _ + c.utf8Size
        omega
    · have hbehind := h.marked.behind (stray ++ (encode as ++ part))
      change Marked _ (_ + c.utf8Size) sights
      rw [hlength] at hbehind
      rwa [hsize, ← Nat.add_assoc]

end Seen

/-- **A text that is read in pieces is seen**, also when the first pieces hold what is left of a
character before it. -/
theorem exists_seen {chunks : List Bytes} (h : chunks.flatten = stray ++ encode cs)
    (hstray : Continues stray) : ∃ sights, Seen chunks stray.length cs sights := by
  induction chunks generalizing stray cs with
  | nil =>
    obtain ⟨rfl, hcs⟩ := List.append_eq_nil_iff.1 h.symm
    obtain rfl : cs = [] := encode_injective hcs
    exact ⟨[], .nil⟩
  | cons bytes rest ih =>
    rw [List.flatten_cons] at h
    rcases List.append_eq_append_iff.1 h with ⟨more, rfl, hrest⟩ | ⟨front, rfl, hfront⟩
    · have hbytes : Continues bytes := fun b hb => hstray b (List.mem_append_left _ hb)
      have hmore : Continues more := fun b hb => hstray b (List.mem_append_right _ hb)
      obtain ⟨sights, hseen⟩ := ih hrest hmore
      exact ⟨sights, hseen.cons_stray hbytes⟩
    · rcases encode_eq_append hfront with ⟨as, bs, rfl, rfl, hrest⟩ |
        ⟨as, c, bs, part, left, rfl, hc, hpart, hleft, rfl, hrest⟩
      · obtain ⟨sights, hseen⟩ := ih (hrest.trans (List.nil_append _).symm) nofun
        exact ⟨_, hseen.cons_encode hstray⟩
      · obtain ⟨sights, hseen⟩ := ih hrest (continues_left hc hpart)
        exact ⟨_, hseen.cons_part hstray hc hpart hleft⟩

end LanguageClient.Utf8
