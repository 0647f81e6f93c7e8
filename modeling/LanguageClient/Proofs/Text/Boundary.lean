import LanguageClient.Proofs.Text.Utf8
import LanguageClient.Text.Measure

/-!
# Boundaries between characters

An offset that lies between two characters of a text, or at one of its ends, cuts it without taking
a character apart (`Text.IsBoundary`). At boundaries the cuts by bytes are cuts of the list of
characters, and slices of a text have the bytes that stand between the two offsets
(`Text.encode_sliceBytes`).
-/

namespace LanguageClient.Text

/-- Whether an offset lies between two characters of a text or at one of its ends. -/
def IsBoundary (n : Nat) (cs : List Char) : Prop :=
  ∃ front back, cs = front ++ back ∧ byteLength front = n

variable {n m : Nat} {cs as bs : List Char}

/-! ## Cuts behind a front of known length -/

@[simp] theorem takeBytes_zero (cs : List Char) : takeBytes 0 cs = [] := by
  cases cs with
  | nil => rfl
  | cons c cs =>
    have hpos : ¬ c.utf8Size ≤ 0 := Nat.not_le.2 c.utf8Size_pos
    rw [takeBytes, if_neg hpos]

@[simp] theorem dropBytes_zero (cs : List Char) : dropBytes 0 cs = cs := by
  cases cs with
  | nil => rfl
  | cons c cs =>
    have hpos : ¬ c.utf8Size ≤ 0 := Nat.not_le.2 c.utf8Size_pos
    rw [dropBytes, if_neg hpos]

theorem takeBytes_add (as bs : List Char) (n : Nat) :
    takeBytes (byteLength as + n) (as ++ bs) = as ++ takeBytes n bs := by
  induction as with
  | nil => simp [byteLength]
  | cons a as ih =>
    have hfits : a.utf8Size ≤ byteLength (a :: as) + n := by
      rw [byteLength]
      omega
    have hrest : byteLength (a :: as) + n - a.utf8Size = byteLength as + n := by
      rw [byteLength]
      omega
    rw [List.cons_append, takeBytes, if_pos hfits, hrest, ih, List.cons_append]

theorem dropBytes_add (as bs : List Char) (n : Nat) :
    dropBytes (byteLength as + n) (as ++ bs) = dropBytes n bs := by
  induction as with
  | nil => simp [byteLength]
  | cons a as ih =>
    have hfits : a.utf8Size ≤ byteLength (a :: as) + n := by
      rw [byteLength]
      omega
    have hrest : byteLength (a :: as) + n - a.utf8Size = byteLength as + n := by
      rw [byteLength]
      omega
    rw [List.cons_append, dropBytes, if_pos hfits, hrest, ih]

@[simp] theorem takeBytes_byteLength (as bs : List Char) :
    takeBytes (byteLength as) (as ++ bs) = as := by
  simpa using takeBytes_add as bs 0

@[simp] theorem dropBytes_byteLength (as bs : List Char) :
    dropBytes (byteLength as) (as ++ bs) = bs := by
  simpa using dropBytes_add as bs 0

/-- A slice between two boundaries is the characters between them. -/
theorem sliceBytes_append (as bs cs : List Char) :
    sliceBytes (byteLength as) (byteLength as + byteLength bs) (as ++ (bs ++ cs)) = bs := by
  rw [sliceBytes, dropBytes_byteLength, Nat.add_sub_cancel_left, takeBytes_byteLength]

/-! ## Boundaries -/

theorem isBoundary_zero (cs : List Char) : IsBoundary 0 cs := ⟨[], cs, rfl, rfl⟩

theorem isBoundary_byteLength (cs : List Char) : IsBoundary (byteLength cs) cs :=
  ⟨cs, [], (List.append_nil cs).symm, rfl⟩

theorem isBoundary_append_left (as bs : List Char) : IsBoundary (byteLength as) (as ++ bs) :=
  ⟨as, bs, rfl, rfl⟩

theorem IsBoundary.cons (h : IsBoundary n cs) (c : Char) :
    IsBoundary (c.utf8Size + n) (c :: cs) := by
  obtain ⟨front, back, rfl, rfl⟩ := h
  exact ⟨c :: front, back, rfl, rfl⟩

theorem IsBoundary.append_right (h : IsBoundary n as) (bs : List Char) :
    IsBoundary n (as ++ bs) := by
  obtain ⟨front, back, rfl, rfl⟩ := h
  exact ⟨front, back ++ bs, List.append_assoc _ _ _, rfl⟩

theorem IsBoundary.le (h : IsBoundary n cs) : n ≤ byteLength cs := by
  obtain ⟨front, back, rfl, rfl⟩ := h
  rw [byteLength_append]
  exact Nat.le_add_right _ _

theorem isBoundary_max (hn : IsBoundary n cs) (hm : IsBoundary m cs) : IsBoundary (max n m) cs := by
  rcases Nat.le_total n m with hle | hle
  · rwa [Nat.max_eq_right hle]
  · rwa [Nat.max_eq_left hle]

/-- Where a cut moves back to is a boundary. -/
theorem isBoundary_floorBoundary (n : Nat) (cs : List Char) :
    IsBoundary (floorBoundary n cs) cs :=
  ⟨takeBytes n cs, dropBytes n cs, (takeBytes_append_dropBytes n cs).symm, rfl⟩

/-- A cut at a boundary stays where it is. -/
theorem IsBoundary.floorBoundary_eq (h : IsBoundary n cs) : floorBoundary n cs = n := by
  obtain ⟨front, back, rfl, rfl⟩ := h
  rw [floorBoundary, takeBytes_byteLength]

theorem takeBytes_floorBoundary (n : Nat) (cs : List Char) :
    takeBytes (floorBoundary n cs) cs = takeBytes n cs := by
  have hcut := takeBytes_byteLength (takeBytes n cs) (dropBytes n cs)
  rwa [takeBytes_append_dropBytes] at hcut

/-- Of two fronts of a text the shorter one is a front of the longer one. -/
theorem exists_append_of_byteLength_le {front back : List Char} (h : as ++ bs = front ++ back)
    (hle : byteLength as ≤ byteLength front) : ∃ more, front = as ++ more ∧ bs = more ++ back := by
  obtain ⟨more, hmore⟩ : ∃ more, byteLength front = byteLength as + more :=
    ⟨_, (Nat.add_sub_cancel' hle).symm⟩
  have hfront : front = as ++ takeBytes more bs := by
    rw [← takeBytes_byteLength front back, ← h, hmore, takeBytes_add]
  have hback : back = dropBytes more bs := by
    rw [← dropBytes_byteLength front back, ← h, hmore, dropBytes_add]
  exact ⟨takeBytes more bs, hfront, by rw [hback, takeBytes_append_dropBytes]⟩

/-- Two boundaries, one behind the other, take a text apart in three. -/
theorem IsBoundary.exists_slice (hn : IsBoundary n cs) (hm : IsBoundary m cs) (hle : n ≤ m) :
    ∃ front middle back, cs = front ++ (middle ++ back) ∧ byteLength front = n ∧
      n + byteLength middle = m := by
  obtain ⟨front, back, rfl, rfl⟩ := hn
  obtain ⟨longer, rest, heq, rfl⟩ := hm
  obtain ⟨middle, rfl, rfl⟩ := exists_append_of_byteLength_le heq hle
  exact ⟨front, middle, rest, rfl, rfl, (byteLength_append front middle).symm⟩

/-! ## Bytes -/

theorem length_encode (cs : List Char) : (Utf8.encode cs).length = byteLength cs := by
  induction cs with
  | nil => rfl
  | cons c cs ih =>
    have hcons : Utf8.encode (c :: cs) = String.utf8EncodeChar c ++ Utf8.encode cs := rfl
    rw [hcons, List.length_append, ih, String.length_utf8EncodeChar, byteLength]

/-- A slice between boundaries has the bytes of the text between the two offsets. -/
theorem encode_sliceBytes (hn : IsBoundary n cs) (hm : IsBoundary m cs) (hle : n ≤ m) :
    Utf8.encode (sliceBytes n m cs) = (Utf8.encode cs).extract n m := by
  obtain ⟨front, middle, back, rfl, rfl, rfl⟩ := hn.exists_slice hm hle
  rw [sliceBytes_append, Utf8.encode_append, Utf8.encode_append, List.extract_eq_take_drop,
    ← length_encode front, List.drop_left, Nat.add_sub_cancel_left, ← length_encode middle,
    List.take_left]

end LanguageClient.Text
