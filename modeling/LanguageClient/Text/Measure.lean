/-!
# Measures and cuts of text

Texts are lists of characters; offsets into them count the bytes of their UTF-8 form and columns
count UTF-16 units. A cut at an offset inside a character moves back to where that character
starts.
-/

namespace LanguageClient.Text

/-- How many bytes a text takes. -/
def byteLength : List Char → Nat
  | [] => 0
  | c :: cs => c.utf8Size + byteLength cs

/-- How many UTF-16 units a character takes. -/
def charUnits (c : Char) : Nat := if c.toNat < 0x10000 then 1 else 2

/-- How many UTF-16 units a text takes. -/
def units : List Char → Nat
  | [] => 0
  | c :: cs => charUnits c + units cs

/-- The longest prefix of at most `n` bytes. -/
def takeBytes : Nat → List Char → List Char
  | _, [] => []
  | n, c :: cs => if c.utf8Size ≤ n then c :: takeBytes (n - c.utf8Size) cs else []

/-- What `takeBytes n` leaves. -/
def dropBytes : Nat → List Char → List Char
  | _, [] => []
  | n, c :: cs => if c.utf8Size ≤ n then dropBytes (n - c.utf8Size) cs else c :: cs

/-- The text between two offsets. -/
def sliceBytes (start stop : Nat) (cs : List Char) : List Char :=
  takeBytes (stop - start) (dropBytes start cs)

/-- The last offset at or before `n` that lies between two characters of the text or at its end. -/
def floorBoundary (n : Nat) (cs : List Char) : Nat := byteLength (takeBytes n cs)

/-- Drops characters until at least `n` bytes are gone. -/
def dropAtLeast : Nat → List Char → List Char
  | _, [] => []
  | 0, cs => cs
  | n + 1, c :: cs => dropAtLeast (n + 1 - c.utf8Size) cs

theorem takeBytes_append_dropBytes (n : Nat) (cs : List Char) :
    takeBytes n cs ++ dropBytes n cs = cs := by
  induction cs generalizing n with
  | nil => rfl
  | cons c cs ih =>
    by_cases h : c.utf8Size ≤ n
    · simp [takeBytes, dropBytes, h, ih]
    · simp [takeBytes, dropBytes, h]

theorem byteLength_append (as bs : List Char) :
    byteLength (as ++ bs) = byteLength as + byteLength bs := by
  induction as with
  | nil => simp [byteLength]
  | cons a as ih => simp [byteLength, ih, Nat.add_assoc]

theorem byteLength_takeBytes_le (n : Nat) (cs : List Char) : byteLength (takeBytes n cs) ≤ n := by
  induction cs generalizing n with
  | nil => simp [takeBytes, byteLength]
  | cons c cs ih =>
    by_cases h : c.utf8Size ≤ n
    · simp only [takeBytes, if_pos h, byteLength]
      have := ih (n - c.utf8Size)
      omega
    · simp [takeBytes, h, byteLength]

/-- The lines of a text: the runs between its line feeds, one more than there are line feeds. -/
def lines (cs : List Char) : List (List Char) := cs.splitOn '\n'

end LanguageClient.Text
