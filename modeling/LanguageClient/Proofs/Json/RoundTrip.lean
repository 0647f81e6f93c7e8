import Mathlib.Data.List.Forall2
import LanguageClient.Proofs.Json.Object
import LanguageClient.Proofs.Json.Reading

/-!
# The JSON round trip

`ofBytes? (encode (chars v)) = some v` for every value whose numbers are integers of 64 bits and
that nests at most 127 deep. What is proved by induction is stronger: the text reads back before any
text that does not go on with a number, and leaves that text (`ReadsBack`). Records are written with
their fields in the order declared and read back with them in key order (`ReadsAs`).
-/

namespace LanguageClient.Json

/-! ## How texts of values begin -/

/-- The characters that the compact text of a value can begin with. -/
def opensValue (c : Char) : Bool :=
  c.isDigit || c = '-' || c = 'n' || c = 't' || c = 'f' || c = '"' || c = '[' || c = '{'

/-- Whether a text begins the way a compact text of a value does. -/
def opens : List Char → Bool
  | [] => false
  | c :: _ => opensValue c

theorem opens_natDigits (n : Nat) (rest : List Char) : opens (natDigits n ++ rest) = true := by
  obtain ⟨c, cs, hcs⟩ := List.exists_cons_of_ne_nil (natDigits_ne_nil n)
  have hc : c.isDigit = true := isDigit_of_mem_natDigits (n := n) (by simp [hcs])
  rw [hcs]
  simp [opens, opensValue, hc]

theorem opens_intText (n : Int) : opens (intText n) = true := by
  cases n with
  | ofNat n =>
    rw [← List.append_nil (intText _)]
    exact opens_natDigits n []
  | negSucc n => rfl

theorem opens_scaledText (s : Decimal.Scaled) : opens (scaledText s) = true := by
  obtain ⟨c, cs, hcs⟩ := List.exists_cons_of_ne_nil (natDigits_ne_nil s.digits)
  have hc : c.isDigit = true := isDigit_of_mem_natDigits (n := s.digits) (by simp [hcs])
  unfold scaledText
  simp only [hcs]
  split
  · split
    · rfl
    · next hpoint =>
      have hpos : 0 < (s.exponent + ((c :: cs).length : Nat)).toNat := by omega
      obtain ⟨k, hk⟩ := Nat.exists_eq_succ_of_ne_zero (Nat.ne_of_gt hpos)
      rw [hk]
      simp [opens, opensValue, hc]
  · cases cs <;> simp [opens, opensValue, hc]

theorem opens_floatText (x : Float) : opens (floatText x) = true := by
  have htext : ∀ m : Nat,
      opens (if m = 0 then "0.0".toList else scaledText (Decimal.shortest m)) = true := by
    intro m
    split
    · decide
    · exact opens_scaledText _
  unfold floatText
  dsimp only
  split
  · decide
  · split
    · rfl
    · exact htext _

/-- The text of a value begins with a bracket, a quote, a sign, a digit or a letter of a word. -/
theorem opens_chars (v : Json) : opens (chars v) = true := by
  cases v with
  | null => decide
  | bool b => cases b <;> decide
  | int n => exact opens_intText n
  | float x => exact opens_floatText x
  | str s => rfl
  | arr items => cases items <;> rfl
  | obj fields =>
    cases fields with
    | nil => rfl
    | cons f fields => rfl

theorem isSpace_of_opensValue {c : Char} (h : opensValue c = true) : isSpace c = false := by
  cases hsp : isSpace c with
  | false => rfl
  | true =>
    simp only [isSpace, Bool.or_eq_true, decide_eq_true_eq] at hsp
    rcases hsp with ((rfl | rfl) | rfl) | rfl <;> exact absurd h (by decide)

theorem chars_eq_cons (v : Json) : ∃ c cs, chars v = c :: cs ∧ opensValue c = true := by
  have h := opens_chars v
  cases hv : chars v with
  | nil => simp [hv, opens] at h
  | cons c cs => exact ⟨c, cs, rfl, by simpa [hv, opens] using h⟩

theorem skipSpace_chars (v : Json) (rest : List Char) :
    skipSpace (chars v ++ rest) = chars v ++ rest := by
  obtain ⟨c, cs, hcs, hc⟩ := chars_eq_cons v
  rw [hcs, List.cons_append, skipSpace, List.dropWhile_cons,
    if_neg (by simp [isSpace_of_opensValue hc])]

/-! ## Reading a value before any text -/

/-- The text of a value reads as another one, within its depth, before any text that does not go on
with a number. The two differ where an object that is written has its fields in another order than
one that is read. -/
def ReadsAs (v read : Json) : Prop :=
  ∀ {fuel room : Nat} {rest : List Char}, (chars v).length ≤ fuel → depth v ≤ room →
    endsNumber rest = true → readValue fuel room (chars v ++ rest) = some (read, rest)

/-- The text of a value reads as this value. -/
def ReadsBack (v : Json) : Prop := ReadsAs v v

theorem exists_fuel {v : Json} {fuel : Nat} (h : (chars v).length ≤ fuel) :
    ∃ k, fuel = k + 1 := by
  obtain ⟨c, cs, hcs, _⟩ := chars_eq_cons v
  rw [hcs, List.length_cons] at h
  exact ⟨fuel - 1, by omega⟩

theorem readsBack_null : ReadsBack .null := by
  intro fuel room rest hf _ _
  obtain ⟨fuel, rfl⟩ := exists_fuel hf
  rw [readValue, skipSpace_chars]
  rfl

theorem readsBack_bool (b : Bool) : ReadsBack (.bool b) := by
  intro fuel room rest hf _ _
  obtain ⟨fuel, rfl⟩ := exists_fuel hf
  rw [readValue, skipSpace_chars]
  cases b <;> rfl

theorem readsBack_str (s : String) : ReadsBack (.str s) := by
  intro fuel room rest hf _ _
  obtain ⟨fuel, rfl⟩ := exists_fuel hf
  rw [readValue, skipSpace_chars]
  simp only [chars, quoted, List.cons_append, List.append_assoc, List.nil_append,
    readString_escaped, Option.map_some, String.ofList_toList]

/-- A text that begins with a digit or a minus sign is read as a number. -/
theorem readValue_number {fuel room : Nat} {c : Char} {cs : List Char}
    (hc : c.isDigit = true ∨ c = '-') :
    readValue (fuel + 1) room (c :: cs) = readNumber (c :: cs) := by
  have hopens : opensValue c = true := by
    rcases hc with hc | rfl
    · simp [opensValue, hc]
    · decide
  have hskip : skipSpace (c :: cs) = c :: cs := by
    rw [skipSpace, List.dropWhile_cons, if_neg (by simp [isSpace_of_opensValue hopens])]
  -- none of the characters that open another kind of value begins a number
  have hne : ∀ d : Char, d.isDigit = false → d ≠ '-' → c ≠ d := by
    rintro d hd hminus rfl
    rcases hc with hc | rfl
    · simp [hd] at hc
    · exact hminus rfl
  rw [readValue, hskip]
  split
  · next heq => cases heq; exact absurd rfl (hne 'n' (by decide) (by decide))
  · next heq => cases heq; exact absurd rfl (hne 't' (by decide) (by decide))
  · next heq => cases heq; exact absurd rfl (hne 'f' (by decide) (by decide))
  · next heq => cases heq; exact absurd rfl (hne '"' (by decide) (by decide))
  · next heq => cases heq; exact absurd rfl (hne '[' (by decide) (by decide))
  · next heq => cases heq; exact absurd rfl (hne '{' (by decide) (by decide))
  · rfl

theorem intText_eq_cons (n : Int) :
    ∃ c cs, intText n = c :: cs ∧ (c.isDigit = true ∨ c = '-') := by
  cases n with
  | ofNat n =>
    obtain ⟨c, cs, hcs⟩ := List.exists_cons_of_ne_nil (natDigits_ne_nil n)
    exact ⟨c, cs, hcs, .inl (isDigit_of_mem_natDigits (n := n) (by simp [hcs]))⟩
  | negSucc n => exact ⟨'-', natDigits (n + 1), rfl, .inr rfl⟩

theorem readsBack_int {n : Int} (hlow : -(bound63 : Int) ≤ n) (hhigh : n < bound64) :
    ReadsBack (.int n) := by
  intro fuel room rest hf _ hr
  obtain ⟨fuel, rfl⟩ := exists_fuel hf
  obtain ⟨c, cs, hcs, hc⟩ := intText_eq_cons n
  have hread := readNumber_intText hlow hhigh hr
  rw [chars, hcs, List.cons_append, readValue_number hc]
  rwa [hcs] at hread

/-! ## Arrays and objects -/

theorem endsNumber_itemChars (items : List Json) (rest : List Char) :
    endsNumber (itemChars items ++ rest) = true := by
  cases items <;> rfl

theorem endsNumber_fieldChars (fields : List (String × Json)) (rest : List Char) :
    endsNumber (fieldChars fields ++ rest) = true := by
  cases fields with
  | nil => rfl
  | cons f fields => rfl

/-- The items of an array read back up to its bracket. -/
theorem readItems_chars {items : List Json} (hall : ∀ v ∈ items, ReadsBack v) :
    ∀ {v : Json} (fuel room : Nat) (rest : List Char), ReadsBack v →
      (chars v ++ itemChars items).length ≤ fuel → depthItems (v :: items) ≤ room →
      readItems fuel room (chars v ++ (itemChars items ++ rest)) = some (v :: items, rest) := by
  induction items with
  | nil =>
    intro v fuel room rest hv hf hd
    simp only [List.length_append, itemChars, List.length_singleton] at hf
    obtain ⟨fuel, rfl⟩ := exists_fuel (v := v) (show (chars v).length ≤ fuel by omega)
    simp only [depthItems] at hd
    rw [readItems, hv (by omega) (by omega) (endsNumber_itemChars [] rest)]
    rfl
  | cons w items ih =>
    intro v fuel room rest hv hf hd
    simp only [List.length_append, itemChars, List.length_cons] at hf
    obtain ⟨fuel, rfl⟩ := exists_fuel (v := v) (show (chars v).length ≤ fuel by omega)
    simp only [depthItems] at hd
    have hlen : 0 < (chars v).length := by
      obtain ⟨c, cs, hcs, _⟩ := chars_eq_cons v
      simp [hcs]
    rw [readItems, hv (by omega) (by omega) (endsNumber_itemChars (w :: items) rest)]
    have hrest := ih (fun x hx => hall x (by simp [hx])) fuel room rest (hall w (by simp))
      (by simp only [List.length_append]; omega)
      (by simp only [depthItems]; omega)
    have hcomma : skipSpace (itemChars (w :: items) ++ rest) =
        ',' :: (chars w ++ (itemChars items ++ rest)) := by
      simp [itemChars, skipSpace, isSpace]
    simp only [hcomma, hrest, Option.map_some]

theorem readsBack_arr {items : List Json} (hall : ∀ v ∈ items, ReadsBack v) :
    ReadsBack (.arr items) := by
  intro fuel room rest hf hd _
  obtain ⟨fuel, rfl⟩ := exists_fuel hf
  obtain ⟨room, rfl⟩ : ∃ k, room = k + 1 := ⟨room - 1, by simp only [depth] at hd; omega⟩
  rw [readValue, skipSpace_chars]
  cases items with
  | nil => rfl
  | cons v items =>
    simp only [chars, List.length_cons] at hf
    simp only [depth] at hd
    have hitems : ∀ x ∈ items, ReadsBack x := fun x hx => hall x (by simp [hx])
    have hread := readItems_chars hitems fuel room rest (hall v (by simp)) (by omega) (by omega)
    simp only [chars, List.cons_append, List.append_assoc]
    obtain ⟨c, cs, hcs, hc⟩ := chars_eq_cons v
    rw [skipSpace_chars]
    split
    · next heq =>
      rw [hcs, List.cons_append] at heq
      cases heq
      exact absurd hc (by decide)
    · rw [hread, Option.map_some]

theorem skipSpace_cons {c : Char} (h : isSpace c = false) (cs : List Char) :
    skipSpace (c :: cs) = c :: cs := by
  rw [skipSpace, List.dropWhile_cons, if_neg (by simp [h])]

/-- What two fields must have in common for the text of one to read as the other. -/
def FieldReadsAs (f g : String × Json) : Prop := f.1 = g.1 ∧ ReadsAs f.2 g.2

/-- The fields of an object are read up to its brace, in the order they were written in. -/
theorem readFields_chars {fields read : List (String × Json)}
    (hall : List.Forall₂ FieldReadsAs fields read) :
    ∀ {k : String} {v w : Json} (fuel room : Nat) (rest : List Char), ReadsAs v w →
      (quoted k ++ ':' :: (chars v ++ fieldChars fields)).length ≤ fuel →
      depthFields ((k, v) :: fields) ≤ room →
      readFields fuel room (quoted k ++ ':' :: (chars v ++ (fieldChars fields ++ rest))) =
        some ((k, w) :: read, rest) := by
  induction hall with
  | nil =>
    intro k v w fuel room rest hv hf hd
    simp only [List.length_append, List.length_cons, fieldChars, List.length_nil] at hf
    obtain ⟨fuel, rfl⟩ : ∃ n, fuel = n + 1 := ⟨fuel - 1, by omega⟩
    simp only [depthFields] at hd
    rw [readFields]
    simp only [quoted, List.cons_append, List.append_assoc, List.nil_append,
      skipSpace_cons (show isSpace '"' = false by decide), readString_escaped,
      skipSpace_cons (show isSpace ':' = false by decide)]
    rw [hv (by omega) (by omega) (endsNumber_fieldChars [] rest), String.ofList_toList]
    rfl
  | @cons f g fields read hfg _ ih =>
    obtain ⟨k', v'⟩ := f
    obtain ⟨key, w'⟩ := g
    obtain ⟨rfl, hv'⟩ := hfg
    intro k v w fuel room rest hv hf hd
    simp only [List.length_append, List.length_cons, fieldChars] at hf
    obtain ⟨fuel, rfl⟩ : ∃ n, fuel = n + 1 := ⟨fuel - 1, by omega⟩
    simp only [depthFields] at hd
    have hlen : 0 < (quoted k).length := by simp [quoted]
    have hrest := ih (k := k') fuel room rest hv'
      (by simp only [List.length_append, List.length_cons]; omega)
      (by simp only [depthFields]; omega)
    have hcomma : skipSpace (fieldChars ((k', v') :: fields) ++ rest) =
        ',' :: (quoted k' ++ ':' :: (chars v' ++ (fieldChars fields ++ rest))) := by
      simp [fieldChars, skipSpace, isSpace]
    rw [readFields]
    simp only [quoted, List.cons_append, List.append_assoc, List.nil_append,
      skipSpace_cons (show isSpace '"' = false by decide), readString_escaped,
      skipSpace_cons (show isSpace ':' = false by decide)]
    rw [hv (by omega) (by omega) (endsNumber_fieldChars ((k', v') :: fields) rest)]
    simp only [hcomma, hrest, Option.map_some, String.ofList_toList]

/-- **The text of an object reads as the object of the fields that theirs read as.** -/
theorem readsAs_obj {fields read : List (String × Json)}
    (hall : List.Forall₂ FieldReadsAs fields read) : ReadsAs (.obj fields) (object read) := by
  intro fuel room rest hf hd _
  obtain ⟨fuel, rfl⟩ := exists_fuel hf
  obtain ⟨room, rfl⟩ : ∃ k, room = k + 1 := ⟨room - 1, by simp only [depth] at hd; omega⟩
  rw [readValue, skipSpace_chars]
  cases hall with
  | nil => rfl
  | @cons f g fields read hfg hfields =>
    obtain ⟨k, v⟩ := f
    obtain ⟨key, w⟩ := g
    obtain ⟨rfl, hv⟩ : k = key ∧ ReadsAs v w := hfg
    simp only [chars, List.length_cons] at hf
    simp only [depth] at hd
    have hread := readFields_chars hfields (k := k) fuel room rest hv (by omega) (by omega)
    have hquote : ∀ cs, skipSpace (quoted k ++ cs) = quoted k ++ cs := fun cs =>
      skipSpace_cons (by decide) _
    simp only [chars, List.cons_append, List.append_assoc, hquote]
    split
    · next heq => cases heq
    · rw [hread, Option.map_some]

theorem readsBack_obj {fields : List (String × Json)} (hall : ∀ f ∈ fields, ReadsBack f.2)
    (hsorted : fields.Pairwise (fun f g => f.1 < g.1)) : ReadsBack (.obj fields) := by
  have hfields : List.Forall₂ FieldReadsAs fields fields :=
    List.forall₂_same.2 fun f hf => ⟨rfl, hall f hf⟩
  have hread : ReadsAs (.obj fields) (object fields) := readsAs_obj hfields
  rwa [object_of_sorted hsorted] at hread

/-! ## The round trip -/

/-- **Every value of 64-bit integers reads back from its compact text**, before any text. -/
theorem readsBack_of_exact {v : Json} (h : Exact v) : ReadsBack v := by
  induction h with
  | null => exact readsBack_null
  | bool b => exact readsBack_bool b
  | int hlow hhigh => exact readsBack_int hlow hhigh
  | str s => exact readsBack_str s
  | arr _ ih => exact readsBack_arr ih
  | obj _ hsorted ih => exact readsBack_obj ih hsorted

/-- A record of such values reads as the object of its fields. -/
theorem readsAs_object {fields : List (String × Json)} (h : ∀ f ∈ fields, f.2.Exact) :
    ReadsAs (.obj fields) (object fields) :=
  readsAs_obj (List.forall₂_same.2 fun f hf => ⟨rfl, readsBack_of_exact (h f hf)⟩)

theorem ofBytes?_of_readsAs {v read : Json} (h : ReadsAs v read) (hd : depth v ≤ maxDepth) :
    ofBytes? (Utf8.encode (chars v)) = some read := by
  have hread : readValue (2 * (chars v).length + 2) maxDepth (chars v ++ []) = some (read, []) :=
    h (by omega) hd rfl
  rw [List.append_nil] at hread
  rw [ofBytes?, Utf8.decode?_encode, Option.bind_some, parse?, hread]
  rfl

theorem ofBytes?_chars {v : Json} (h : Exact v) (hd : depth v ≤ maxDepth) :
    ofBytes? (Utf8.encode (chars v)) = some v :=
  ofBytes?_of_readsAs (readsBack_of_exact h) hd

end LanguageClient.Json
