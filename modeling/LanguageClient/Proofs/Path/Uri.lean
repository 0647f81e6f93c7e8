import LanguageClient.Path.Uri
import LanguageClient.Proofs.Text.Utf8

/-!
# Paths and their URIs

A URI may spell each character of a path in one of two ways (`Spells`): as it stands, if it is no
percent sign, or as a triplet for each of its bytes, with digits of either case. Reading gives the
path back whichever was chosen (`toPath_of_spells`): the bytes of a character that stands for itself
start no triplet, and a triplet is read as its byte. Writing makes one choice of its own, so
different absolute paths have different URIs.
-/

namespace LanguageClient.Uri

/-! ## Spellings -/

/-- The hexadecimal digits of a number below sixteen, one of either case. -/
def digitsOf (n : Nat) : List Char := [hexDigit n, (hexDigit n).toLower]

/-- Whether a text is a triplet for each of some bytes. -/
inductive SpellsBytes : Bytes → List Char → Prop
  | nil : SpellsBytes [] []
  | cons {b : UInt8} {bs : Bytes} {high low : Char} {s : List Char}
      (hhigh : high ∈ digitsOf (b.toNat / 16)) (hlow : low ∈ digitsOf (b.toNat % 16))
      (h : SpellsBytes bs s) : SpellsBytes (b :: bs) ('%' :: high :: low :: s)

/-- Whether a text spells the characters `cs`, each as it stands or by its bytes. -/
inductive Spells : List Char → List Char → Prop
  | nil : Spells [] []
  | plain {c : Char} {cs s : List Char} (hc : c ≠ '%') (h : Spells cs s) : Spells (c :: cs) (c :: s)
  | triplets {c : Char} {cs t s : List Char} (ht : SpellsBytes (Utf8.encode [c]) t)
      (h : Spells cs s) : Spells (c :: cs) (t ++ s)

theorem spellsBytes_flatMap_triplet (bs : Bytes) : SpellsBytes bs (bs.flatMap triplet) := by
  induction bs with
  | nil => exact .nil
  | cons b bs ih =>
    exact .cons (List.mem_cons_self ..) (List.mem_cons_self ..) ih

/-- What is written for characters is a spelling of them. -/
theorem spells_flatMap_encodeChar (cs : List Char) : Spells cs (cs.flatMap encodeChar) := by
  induction cs with
  | nil => exact .nil
  | cons c cs ih =>
    rw [List.flatMap_cons, encodeChar]
    split
    · next hplain =>
      refine .plain (fun hc => ?_) ih
      rw [hc] at hplain
      exact absurd hplain (by decide)
    · exact .triplets (spellsBytes_flatMap_triplet _) ih

/-! ## Reading a spelling -/

theorem decodeBytes_append_of_not_mem {bs : Bytes} (h : 0x25 ∉ bs) (rest : Bytes) :
    decodeBytes (bs ++ rest) = bs ++ decodeBytes rest := by
  induction bs with
  | nil => rfl
  | cons a bs ih =>
    have ha : a ≠ 0x25 := fun heq => h (by simp [heq])
    rw [List.cons_append, decodeBytes.eq_def]
    simp only [if_neg ha]
    rw [ih fun hmem => h (by simp [hmem]), List.cons_append]

theorem encode_hexDigit : ∀ n < 16,
    Utf8.encode [hexDigit n] = [UInt8.ofNat (hexDigit n).toNat] ∧
      Utf8.encode [(hexDigit n).toLower] = [UInt8.ofNat (hexDigit n).toLower.toNat] := by
  decide

theorem digitValue_hexDigit : ∀ n < 16,
    digitValue (UInt8.ofNat (hexDigit n).toNat) = some (UInt8.ofNat n) ∧
      digitValue (UInt8.ofNat (hexDigit n).toLower.toNat) = some (UInt8.ofNat n) := by
  decide

theorem encode_digit {n : Nat} (hn : n < 16) {c : Char} (hc : c ∈ digitsOf n) :
    Utf8.encode [c] = [UInt8.ofNat c.toNat] ∧
      digitValue (UInt8.ofNat c.toNat) = some (UInt8.ofNat n) := by
  obtain ⟨hencode, hencodeLower⟩ := encode_hexDigit n hn
  obtain ⟨hvalue, hvalueLower⟩ := digitValue_hexDigit n hn
  rw [digitsOf, List.mem_cons, List.mem_singleton] at hc
  obtain rfl | rfl := hc
  · exact ⟨hencode, hvalue⟩
  · exact ⟨hencodeLower, hvalueLower⟩

/-- A triplet is read as the byte that it spells. -/
theorem decodeBytes_triplet {b : UInt8} {high low : Char}
    (hhigh : high ∈ digitsOf (b.toNat / 16)) (hlow : low ∈ digitsOf (b.toNat % 16))
    (rest : Bytes) :
    decodeBytes (Utf8.encode ['%', high, low] ++ rest) = b :: decodeBytes rest := by
  have hb := b.toNat_lt
  obtain ⟨hhighByte, hhighValue⟩ := encode_digit (n := b.toNat / 16) (by omega) hhigh
  obtain ⟨hlowByte, hlowValue⟩ := encode_digit (n := b.toNat % 16) (by omega) hlow
  have hbytes : Utf8.encode ['%', high, low] =
      0x25 :: [UInt8.ofNat high.toNat, UInt8.ofNat low.toNat] := by
    have hsplit : ['%', high, low] = ['%'] ++ ([high] ++ [low]) := rfl
    rw [hsplit, Utf8.encode_append, Utf8.encode_append, hhighByte, hlowByte]
    rfl
  have hvalue : UInt8.ofNat (b.toNat / 16) * 16 + UInt8.ofNat (b.toNat % 16) = b := by
    rw [← UInt8.toNat_inj, UInt8.toNat_add, UInt8.toNat_mul, UInt8.toNat_ofNat', UInt8.toNat_ofNat']
    change (_ * 16 % 256 + _) % 256 = _
    omega
  rw [hbytes, List.cons_append, decodeBytes.eq_def]
  simp only [if_true, List.cons_append, List.nil_append, hhighValue, hlowValue, hvalue]

theorem SpellsBytes.decodeBytes_append {bs : Bytes} {s : List Char} (h : SpellsBytes bs s)
    (rest : Bytes) : decodeBytes (Utf8.encode s ++ rest) = bs ++ decodeBytes rest := by
  induction h with
  | nil => rfl
  | @cons b bs high low s hhigh hlow _ ih =>
    have hsplit : '%' :: high :: low :: s = ['%', high, low] ++ s := rfl
    rw [hsplit, Utf8.encode_append, List.append_assoc, decodeBytes_triplet hhigh hlow, ih,
      List.cons_append]

theorem Spells.decodeBytes_eq {cs s : List Char} (h : Spells cs s) :
    decodeBytes (Utf8.encode s) = Utf8.encode cs := by
  induction h with
  | nil => rfl
  | @plain c cs s hc _ ih =>
    have hbytes : 0x25 ∉ Utf8.encode [c] := fun hmem => by
      have hpercent : '%' ∈ [c] := Utf8.mem_of_mem_encode hmem (by decide)
      exact hc (List.mem_singleton.1 hpercent).symm
    have hsplit : ∀ more, c :: more = [c] ++ more := fun _ => rfl
    rw [hsplit s, hsplit cs, Utf8.encode_append, Utf8.encode_append,
      decodeBytes_append_of_not_mem hbytes, ih]
  | @triplets c cs t s ht _ ih =>
    have hsplit : c :: cs = [c] ++ cs := rfl
    rw [Utf8.encode_append, ht.decodeBytes_append, ih, hsplit, Utf8.encode_append]

theorem Spells.decode_eq {cs s : List Char} (h : Spells cs s) : decode (scheme ++ s) = cs := by
  have hscheme : afterScheme? (scheme ++ s) = some s := by
    rw [afterScheme?, if_pos, List.drop_left]
    rw [List.isPrefixOf_iff_prefix]
    exact List.prefix_append _ _
  rw [decode, hscheme]
  simp only [h.decodeBytes_eq, Utf8.lossy_encode]

/-! ## Paths -/

theorem join_of_isAbsolute {p : Path} (h : p.isAbsolute = true) (base : Path) :
    Path.join base p = p := by
  rw [Path.join, if_pos h]

/-- The URI of an absolute path names that path. -/
theorem toPath_ofPath {p : Path} (h : p.isAbsolute = true) : toPath (ofPath p) = p := by
  rw [toPath, ofPath, String.toList_ofList, encode, (spells_flatMap_encodeChar _).decode_eq,
    join_of_isAbsolute h, String.ofList_toList]

theorem ofPath_injective {p q : Path} (hp : p.isAbsolute = true) (hq : q.isAbsolute = true)
    (h : ofPath p = ofPath q) : p = q := by
  rw [← toPath_ofPath hp, h, toPath_ofPath hq]

/-- **A file URI names its path however it is spelled**, and so does the URI that is written for an
absolute path, which therefore is the URI of no other. -/
theorem toPath_of_spells (p : Path) :
    (∀ s, Spells p.text.toList s → toPath (String.ofList (scheme ++ s)) = p) ∧
    (p.isAbsolute = true → toPath (ofPath p) = p ∧
      ∀ q : Path, q.isAbsolute = true → ofPath p = ofPath q → p = q) := by
  refine ⟨fun s h => ?_, fun hp => ⟨toPath_ofPath hp, fun q hq => ofPath_injective hp hq⟩⟩
  rw [toPath, String.toList_ofList, h.decode_eq, String.ofList_toList]

/-- A percent sign in front of a digit and a letter with an accent, in triplets of both cases. -/
theorem toPath_of_spells_percent :
    Spells "/%4é".toList "/%254%c3%A9".toList ∧
      toPath (String.ofList (scheme ++ "/%254%c3%A9".toList)) = ⟨"/%4é"⟩ ∧
      toPath (ofPath ⟨"/%4é"⟩) = ⟨"/%4é"⟩ := by
  have hpercent : SpellsBytes (Utf8.encode ['%']) ['%', '2', '5'] :=
    .cons (by decide) (by decide) .nil
  have haccent : SpellsBytes (Utf8.encode ['é']) ['%', 'c', '3', '%', 'A', '9'] :=
    .cons (by decide) (by decide) (.cons (by decide) (by decide) .nil)
  have hspells : Spells "/%4é".toList "/%254%c3%A9".toList :=
    .plain (by decide) (.triplets hpercent (.plain (by decide) (.triplets haccent .nil)))
  obtain ⟨hread, hwritten⟩ := toPath_of_spells ⟨"/%4é"⟩
  exact ⟨hspells, hread _ hspells, (hwritten (by decide)).1⟩

end LanguageClient.Uri
