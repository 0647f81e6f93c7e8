import LanguageClient.Text.Utf8

/-!
# Reading UTF-8 back

The bytes of a text, cut into characters, are the characters of the text: neither reading knows a
malformed run in them. The proof follows the four lengths that the bytes of a character can have.
-/

namespace LanguageClient.Utf8

theorem toNat_ofNat_lt {n : Nat} (h : n < 256) : (UInt8.ofNat n).toNat = n := by
  rw [UInt8.toNat_ofNat']
  omega

/-- A code point is no surrogate and at most the last one. -/
theorem toNat_bounds (c : Char) :
    c.toNat < 0xD800 ∨ (0xDFFF < c.toNat ∧ c.toNat < 0x110000) := by
  have h := c.valid
  simp only [UInt32.isValidChar, Nat.isValidChar] at h
  exact h

/-- The class of second bytes, by numbers: four leading bytes cut off a part of it. -/
theorem mayFollow_ofNat {a b : Nat} (ha : a < 256) (hb : b < 256) :
    mayFollow (UInt8.ofNat a) (UInt8.ofNat b) = true ↔
      (0xC2 ≤ a ∧ a ≤ 0xF4) ∧ (0x80 ≤ b ∧ b ≤ 0xBF) ∧ (a = 0xE0 → 0xA0 ≤ b) ∧
        (a = 0xED → b ≤ 0x9F) ∧ (a = 0xF0 → 0x90 ≤ b) ∧ (a = 0xF4 → b ≤ 0x8F) := by
  simp only [mayFollow, isContinuation, UInt8.lt_iff_toNat_lt, UInt8.le_iff_toNat_le,
    ← UInt8.toNat_inj, toNat_ofNat_lt ha, toNat_ofNat_lt hb, UInt8.reduceToNat]
  grind

theorem isContinuation_ofNat {n : Nat} (h : n < 64) :
    isContinuation (UInt8.ofNat (n + 0x80)) = true := by
  simp only [isContinuation, UInt8.le_iff_toNat_le, toNat_ofNat_lt (show n + 0x80 < 256 by omega)]
  simp
  omega

theorem payload_ofNat {n : Nat} (h : n < 64) : payload (UInt8.ofNat (n + 0x80)) = n := by
  rw [payload, toNat_ofNat_lt (by omega)]
  omega

/-! ## Cutting off one character, by its length -/

theorem pieces_one {a : UInt8} (rest : Bytes) (h : a < 0x80) :
    pieces (a :: rest) = some (Char.ofNat a.toNat) :: pieces rest := by
  rw [pieces.eq_def]
  simp only [if_pos h]

theorem pieces_two {a b : UInt8} (rest : Bytes) (h : ¬ a < 0x80) (hb : mayFollow a b = true)
    (ha : a < 0xE0) :
    pieces (a :: b :: rest) =
      some (Char.ofNat (a.toNat % 32 * 64 + payload b)) :: pieces rest := by
  rw [pieces.eq_def]
  simp only [if_neg h, hb, if_pos ha, Bool.not_true, Bool.false_eq_true, if_false]

theorem pieces_three {a b c : UInt8} (rest : Bytes) (hb : mayFollow a b = true)
    (hc : isContinuation c = true) (h : ¬ a < 0xE0) (ha : a < 0xF0) :
    pieces (a :: b :: c :: rest) =
      some (Char.ofNat ((a.toNat % 16 * 64 + payload b) * 64 + payload c)) :: pieces rest := by
  have h' : ¬ a < 0x80 := fun hlt => h (UInt8.lt_trans hlt (by decide))
  rw [pieces.eq_def]
  simp only [if_neg h', hb, hc, if_neg h, if_pos ha, Bool.not_true, Bool.false_eq_true, if_false]

theorem pieces_four {a b c d : UInt8} (rest : Bytes) (hb : mayFollow a b = true)
    (hc : isContinuation c = true) (hd : isContinuation d = true) (h : ¬ a < 0xF0) :
    pieces (a :: b :: c :: d :: rest) =
      some (Char.ofNat (((a.toNat % 8 * 64 + payload b) * 64 + payload c) * 64 + payload d))
        :: pieces rest := by
  have h' : ¬ a < 0xE0 := fun hlt => h (UInt8.lt_trans hlt (by decide))
  have h'' : ¬ a < 0x80 := fun hlt => h' (UInt8.lt_trans hlt (by decide))
  rw [pieces.eq_def]
  simp only [if_neg h'', hb, hc, hd, if_neg h', if_neg h, Bool.not_true, Bool.false_eq_true,
    if_false]

/-! ## Cutting off a malformed run, by the byte that breaks it off -/

theorem pieces_break_two {a b : UInt8} (rest : Bytes) (h : ¬ a < 0x80)
    (hb : mayFollow a b = false) : pieces (a :: b :: rest) = none :: pieces (b :: rest) := by
  rw [pieces.eq_def]
  simp only [if_neg h, hb, Bool.not_false, if_true]

theorem pieces_break_three {a b c : UInt8} (rest : Bytes) (hb : mayFollow a b = true)
    (h : ¬ a < 0xE0) (hc : isContinuation c = false) :
    pieces (a :: b :: c :: rest) = none :: pieces (c :: rest) := by
  have h' : ¬ a < 0x80 := fun hlt => h (UInt8.lt_trans hlt (by decide))
  rw [pieces.eq_def]
  simp only [if_neg h', hb, if_neg h, hc, Bool.not_true, Bool.not_false, Bool.false_eq_true,
    if_false, if_true]

theorem pieces_break_four {a b c d : UInt8} (rest : Bytes) (hb : mayFollow a b = true)
    (hc : isContinuation c = true) (h : ¬ a < 0xF0) (hd : isContinuation d = false) :
    pieces (a :: b :: c :: d :: rest) = none :: pieces (d :: rest) := by
  have h' : ¬ a < 0xE0 := fun hlt => h (UInt8.lt_trans hlt (by decide))
  have h'' : ¬ a < 0x80 := fun hlt => h' (UInt8.lt_trans hlt (by decide))
  rw [pieces.eq_def]
  simp only [if_neg h'', hb, hc, if_neg h', if_neg h, hd, Bool.not_true, Bool.not_false,
    Bool.false_eq_true, if_false, if_true]

/-! ## Texts -/

theorem ofNat_lt_ofNat {n m : Nat} (hn : n < 256) (hm : m < 256) :
    UInt8.ofNat n < UInt8.ofNat m ↔ n < m := by
  rw [UInt8.lt_iff_toNat_lt, toNat_ofNat_lt hn, toNat_ofNat_lt hm]

section

variable {v : Nat} (rest : Bytes)

theorem pieces_encodeOne (hv : v < 0x80) :
    pieces (UInt8.ofNat v :: rest) = some (Char.ofNat v) :: pieces rest := by
  have h : UInt8.ofNat v < UInt8.ofNat 0x80 := (ofNat_lt_ofNat (by omega) (by omega)).2 hv
  rw [pieces_one rest h, toNat_ofNat_lt (by omega)]

theorem pieces_encodeTwo (hlow : 0x80 ≤ v) (hv : v < 0x800) :
    pieces (UInt8.ofNat (v / 64 % 0x20 + 0xc0) :: UInt8.ofNat (v % 0x40 + 0x80) :: rest) =
      some (Char.ofNat v) :: pieces rest := by
  have ha : v / 64 % 0x20 + 0xc0 < 256 := by omega
  have h : ¬ UInt8.ofNat (v / 64 % 0x20 + 0xc0) < UInt8.ofNat 0x80 := by
    rw [ofNat_lt_ofNat ha (by omega)]
    omega
  have h' : UInt8.ofNat (v / 64 % 0x20 + 0xc0) < UInt8.ofNat 0xE0 :=
    (ofNat_lt_ofNat ha (by omega)).2 (by omega)
  have hb :
      mayFollow (UInt8.ofNat (v / 64 % 0x20 + 0xc0)) (UInt8.ofNat (v % 0x40 + 0x80)) = true := by
    rw [mayFollow_ofNat ha (by omega)]
    omega
  rw [pieces_two rest h hb h', toNat_ofNat_lt ha, payload_ofNat (by omega)]
  congr 3
  omega

theorem pieces_encodeThree (hlow : 0x800 ≤ v) (hv : v < 0x10000) (hc : v < 0xD800 ∨ 0xDFFF < v) :
    pieces (UInt8.ofNat (v / 4096 % 0x10 + 0xe0) :: UInt8.ofNat (v / 64 % 0x40 + 0x80) ::
        UInt8.ofNat (v % 0x40 + 0x80) :: rest) = some (Char.ofNat v) :: pieces rest := by
  have ha : v / 4096 % 0x10 + 0xe0 < 256 := by omega
  have h : ¬ UInt8.ofNat (v / 4096 % 0x10 + 0xe0) < UInt8.ofNat 0xE0 := by
    rw [ofNat_lt_ofNat ha (by omega)]
    omega
  have h' : UInt8.ofNat (v / 4096 % 0x10 + 0xe0) < UInt8.ofNat 0xF0 :=
    (ofNat_lt_ofNat ha (by omega)).2 (by omega)
  have hb : mayFollow (UInt8.ofNat (v / 4096 % 0x10 + 0xe0))
      (UInt8.ofNat (v / 64 % 0x40 + 0x80)) = true := by
    rw [mayFollow_ofNat ha (by omega)]
    omega
  rw [pieces_three rest hb (isContinuation_ofNat (by omega)) h h', toNat_ofNat_lt ha,
    payload_ofNat (by omega), payload_ofNat (by omega)]
  congr 3
  omega

theorem pieces_encodeFour (hlow : 0x10000 ≤ v) (hv : v < 0x110000) :
    pieces (UInt8.ofNat (v / 262144 % 0x08 + 0xf0) :: UInt8.ofNat (v / 4096 % 0x40 + 0x80) ::
        UInt8.ofNat (v / 64 % 0x40 + 0x80) :: UInt8.ofNat (v % 0x40 + 0x80) :: rest) =
      some (Char.ofNat v) :: pieces rest := by
  have ha : v / 262144 % 0x08 + 0xf0 < 256 := by omega
  have h : ¬ UInt8.ofNat (v / 262144 % 0x08 + 0xf0) < UInt8.ofNat 0xF0 := by
    rw [ofNat_lt_ofNat ha (by omega)]
    omega
  have hb : mayFollow (UInt8.ofNat (v / 262144 % 0x08 + 0xf0))
      (UInt8.ofNat (v / 4096 % 0x40 + 0x80)) = true := by
    rw [mayFollow_ofNat ha (by omega)]
    omega
  rw [pieces_four rest hb (isContinuation_ofNat (by omega)) (isContinuation_ofNat (by omega)) h,
    toNat_ofNat_lt ha, payload_ofNat (by omega), payload_ofNat (by omega), payload_ofNat (by omega)]
  congr 3
  omega

end

/-- **The bytes of a character are cut off as that character.** -/
theorem pieces_encodeChar (c : Char) (rest : Bytes) :
    pieces (String.utf8EncodeChar c ++ rest) = some c :: pieces rest := by
  have hc : c.val.toNat < 0xD800 ∨ (0xDFFF < c.val.toNat ∧ c.val.toNat < 0x110000) :=
    toNat_bounds c
  have hread : Char.ofNat c.val.toNat = c := Char.ofNat_toNat c
  -- four cases, one for each length that a character may have
  unfold String.utf8EncodeChar
  generalize c.val.toNat = v at hc hread
  subst hread
  dsimp only
  split
  · exact pieces_encodeOne rest (by omega)
  · split
    · exact pieces_encodeTwo rest (by omega) (by omega)
    · split
      · exact pieces_encodeThree rest (by omega) (by omega) (by omega)
      · exact pieces_encodeFour rest (by omega) (by omega)

theorem pieces_encode (cs : List Char) : pieces (encode cs) = cs.map some := by
  induction cs with
  | nil => rfl
  | cons c cs ih =>
    rw [encode, List.flatMap_cons, pieces_encodeChar, ← encode, ih, List.map_cons]

/-- Strict reading gives a text back. -/
theorem decode?_encode (cs : List Char) : decode? (encode cs) = some cs := by
  rw [decode?, pieces_encode]
  induction cs with
  | nil => rfl
  | cons c cs ih => simp_all [List.mapM_cons]

/-- Lenient reading gives a text back. -/
theorem lossy_encode (cs : List Char) : lossy (encode cs) = cs := by
  rw [lossy, pieces_encode, List.map_map]
  exact List.map_id _

theorem encode_append (cs ds : List Char) : encode (cs ++ ds) = encode cs ++ encode ds :=
  List.flatMap_append

/-- A character takes one to four bytes. -/
theorem length_encode_bounds (cs : List Char) :
    cs.length ≤ (encode cs).length ∧ (encode cs).length ≤ 4 * cs.length := by
  induction cs with
  | nil => decide
  | cons c cs ih =>
    have hpos := Char.utf8Size_pos c
    have hfour := Char.utf8Size_le_four c
    rw [encode, List.flatMap_cons, List.length_append, ← encode, String.length_utf8EncodeChar,
      List.length_cons]
    omega

theorem encode_injective {cs ds : List Char} (h : encode cs = encode ds) : cs = ds := by
  rw [← lossy_encode cs, h, lossy_encode]

/-! ## Bytes below 128 -/

/-- The bytes of a character are its code point alone or all at least 128. -/
theorem mem_encodeChar {c : Char} {b : UInt8} (h : b ∈ String.utf8EncodeChar c) (hb : b < 0x80) :
    c.toNat = b.toNat := by
  have hlow : b.toNat < 128 := by simpa [UInt8.lt_iff_toNat_lt] using hb
  have hhigh : ∀ n : Nat, n < 256 → 0x80 ≤ n → b ≠ UInt8.ofNat n := by
    rintro n hn h80 rfl
    rw [toNat_ofNat_lt hn] at hlow
    omega
  unfold String.utf8EncodeChar at h
  change b ∈ ite (c.toNat ≤ 0x7f) _ _ at h
  split at h
  · rw [List.mem_singleton] at h
    subst h
    exact (toNat_ofNat_lt (n := c.toNat) (by omega)).symm
  · exfalso
    split at h
    · simp only [List.mem_cons, List.not_mem_nil, or_false] at h
      rcases h with h | h
      · exact hhigh _ (by omega) (by omega) h
      · exact hhigh _ (by omega) (by omega) h
    · split at h
      · simp only [List.mem_cons, List.not_mem_nil, or_false] at h
        rcases h with h | h | h
        · exact hhigh _ (by omega) (by omega) h
        · exact hhigh _ (by omega) (by omega) h
        · exact hhigh _ (by omega) (by omega) h
      · simp only [List.mem_cons, List.not_mem_nil, or_false] at h
        rcases h with h | h | h | h
        · exact hhigh _ (by omega) (by omega) h
        · exact hhigh _ (by omega) (by omega) h
        · exact hhigh _ (by omega) (by omega) h
        · exact hhigh _ (by omega) (by omega) h

/-- A byte below 128 in the bytes of a text is a character of the text. -/
theorem mem_of_mem_encode {cs : List Char} {b : UInt8} (h : b ∈ encode cs) (hb : b < 0x80) :
    Char.ofNat b.toNat ∈ cs := by
  obtain ⟨c, hc, hmem⟩ := List.mem_flatMap.1 h
  rw [← mem_encodeChar hmem hb, Char.ofNat_toNat]
  exact hc

/-- Before a byte below 128 a byte string can be cut: no character and no malformed run goes on
there. -/
theorem pieces_append_cons (as rest : Bytes) {x : UInt8} (hx : x < 0x80) :
    pieces (as ++ x :: rest) = pieces as ++ pieces (x :: rest) := by
  have hcont : isContinuation x = false := by
    rw [isContinuation]
    simp [UInt8.le_iff_toNat_le, UInt8.lt_iff_toNat_lt] at hx ⊢
    omega
  have hfollow : ∀ a, mayFollow a x = false := by
    intro a
    simp only [mayFollow, hcont]
    simp [UInt8.le_iff_toNat_le, UInt8.lt_iff_toNat_lt] at hx ⊢
    grind
  -- where a character breaks off, the byte below 128 breaks it off as the end of the bytes did
  fun_induction pieces as with
  | case1 => rfl
  | case2 a as ha ih => rw [List.cons_append, pieces_one _ ha, ih, List.cons_append]
  | case3 a ha => exact pieces_break_two rest ha (hfollow a)
  | case4 a ha b as hb ih =>
    rw [List.cons_append, List.cons_append, pieces_break_two _ ha (by simpa using hb),
      List.cons_append, ← ih, List.cons_append]
  | case5 a ha b as hb h ih =>
    rw [List.cons_append, List.cons_append, pieces_two _ ha (by simpa using hb) h, ih,
      List.cons_append]
  | case6 a _ b hb h => exact pieces_break_three rest (by simpa using hb) h hcont
  | case7 a _ b hb h c as hc ih =>
    rw [List.cons_append, List.cons_append, List.cons_append,
      pieces_break_three _ (by simpa using hb) h (by simpa using hc), List.cons_append, ← ih,
      List.cons_append]
  | case8 a _ b hb h c as hc h' ih =>
    rw [List.cons_append, List.cons_append, List.cons_append,
      pieces_three _ (by simpa using hb) (by simpa using hc) h h', ih, List.cons_append]
  | case9 a _ b hb _ c hc h =>
    exact pieces_break_four rest (by simpa using hb) (by simpa using hc) h hcont
  | case10 a _ b hb _ c hc h d as hd ih =>
    rw [List.cons_append, List.cons_append, List.cons_append, List.cons_append,
      pieces_break_four _ (by simpa using hb) (by simpa using hc) h (by simpa using hd),
      List.cons_append, ← ih, List.cons_append]
  | case11 a _ b hb _ c hc h d as hd ih =>
    rw [List.cons_append, List.cons_append, List.cons_append, List.cons_append,
      pieces_four _ (by simpa using hb) (by simpa using hc) (by simpa using hd) h, ih,
      List.cons_append]

theorem lossy_append_cons (as rest : Bytes) {x : UInt8} (hx : x < 0x80) :
    lossy (as ++ x :: rest) = lossy as ++ lossy (x :: rest) := by
  rw [lossy, pieces_append_cons as rest hx, List.map_append]
  rfl

theorem lossy_cons {x : UInt8} (hx : x < 0x80) (rest : Bytes) :
    lossy (x :: rest) = Char.ofNat x.toNat :: lossy rest := by
  rw [lossy, pieces_one rest hx]
  rfl

end LanguageClient.Utf8
