import LanguageClient.Toml.Number
import LanguageClient.Toml.Table

/-!
# Reading TOML

The grammar of TOML 1.0: a document is a list of statements, each a key with its value or the header
of a table, one to a line. Keys of more than 79 parts and values nested more than 79 deep are
refused. The result is an object with its fields in key order.

Readers that go on for an unknown number of steps take `fuel`. It is counted once, as twice the
length of the document and two more; every step that uses one up, or two in the brackets of a value,
passes a character, so it is always more than the length of what is left.
-/

namespace LanguageClient.Toml

/-- How many parts a key may have, and how deep values may nest. -/
def maxDepth : Nat := 79

/-! ## Blanks -/

/-- Drops tabs and spaces. -/
def skipBlanks (cs : List Char) : List Char := cs.dropWhile fun c => c = ' ' || c = '\t'

/-- The rest after a line break. -/
def lineBreak : List Char → Option (List Char)
  | '\n' :: rest => some rest
  | '\r' :: '\n' :: rest => some rest
  | _ => none

/-- Whether a character may stand in a comment: no control but the tab. -/
def isPrintable (c : Char) : Bool := c = '\t' || (0x20 ≤ c.toNat && c.toNat ≠ 0x7F)

/-- Drops a comment, if there is one. -/
def skipComment : List Char → List Char
  | '#' :: rest => rest.dropWhile isPrintable
  | cs => cs

/-- The rest after the end of a line, before which blanks and a comment may stand. -/
def endOfLine (cs : List Char) : Option (List Char) :=
  match skipComment (skipBlanks cs) with
  | [] => some []
  | cs => lineBreak cs

/-- Drops blanks, line breaks and comments. -/
def skipLines : Nat → List Char → List Char
  | 0, cs => cs
  | fuel + 1, cs =>
    match lineBreak (skipComment (skipBlanks cs)) with
    | some rest => skipLines fuel rest
    | none =>
      -- a comment that no line break follows is left to be refused
      match skipBlanks cs with
      | '#' :: rest => '#' :: rest
      | cs => cs

/-! ## Strings -/

/-- A character of `count` hexadecimal digits; surrogates are none. -/
def readHexChar (count : Nat) (cs : List Char) : Option (Char × List Char) :=
  let ds := cs.take count
  let n := ds.foldl (fun n c => n * 16 + digitValue c) 0
  if ds.length = count && ds.all isHexDigit && (n < 0xD800 || (0xE000 ≤ n && n < 0x110000)) then
    some (Char.ofNat n, cs.drop count)
  else none

/-- The character that an escape stands for, after the backslash. -/
def readEscape : List Char → Option (Char × List Char)
  | 'b' :: rest => some ('\x08', rest)
  | 'f' :: rest => some ('\x0c', rest)
  | 'n' :: rest => some ('\n', rest)
  | 'r' :: rest => some ('\r', rest)
  | 't' :: rest => some ('\t', rest)
  | '\\' :: rest => some ('\\', rest)
  | '"' :: rest => some ('"', rest)
  | 'u' :: rest => readHexChar 4 rest
  | 'U' :: rest => readHexChar 8 rest
  | _ => none

/-- A string with escapes, after its opening quote. -/
def readBasic : Nat → List Char → Option (List Char × List Char)
  | 0, _ => none
  | fuel + 1, cs =>
    match cs with
    | '"' :: rest => some ([], rest)
    | '\\' :: rest => do
      let (c, rest) ← readEscape rest
      let (text, rest) ← readBasic fuel rest
      return (c :: text, rest)
    | c :: rest =>
      if isPrintable c then (readBasic fuel rest).map fun (text, rest) => (c :: text, rest)
      else none
    | [] => none

/-- A string without escapes, after its opening quote. -/
def readLiteral (cs : List Char) : Option (List Char × List Char) :=
  let text := cs.takeWhile fun c => isPrintable c && c ≠ '\''
  match cs.drop text.length with
  | '\'' :: rest => some (text, rest)
  | _ => none

/-- The rest after three quotes with the quotes before them that belong to the text, of which there
are at most two. -/
def closeLong (quote : Char) (cs : List Char) : Option (List Char × List Char) :=
  let run := (cs.takeWhile (· = quote)).length
  if run < 3 then none
  else
    let own := min (run - 3) 2
    some (List.replicate own quote, cs.drop (own + 3))

/-- The rest after the end of a line inside a string and all blanks that follow. -/
def skipFolded : Nat → List Char → Option (List Char)
  | fuel, cs => (lineBreak (skipBlanks cs)).map (skipAll fuel)
where
  /-- Drops blanks and line breaks. -/
  skipAll : Nat → List Char → List Char
    | 0, cs => cs
    | fuel + 1, cs =>
      match lineBreak (skipBlanks cs) with
      | some rest => skipAll fuel rest
      | none => skipBlanks cs

/-- A string of several lines between three quotes, after the opening ones. Line breaks are read as
line feeds. -/
def readLong (quote : Char) (escapes : Bool) : Nat → List Char → Option (List Char × List Char)
  | 0, _ => none
  | fuel + 1, cs =>
    match closeLong quote cs with
    | some found => some found
    | none =>
      match lineBreak cs, cs with
      | some rest, _ =>
        (readLong quote escapes fuel rest).map fun (text, rest) => ('\n' :: text, rest)
      | none, c :: rest =>
        if escapes && c = '\\' then
          match skipFolded fuel rest with
          | some rest => readLong quote escapes fuel rest
          | none => do
            let (c, rest) ← readEscape rest
            let (text, rest) ← readLong quote escapes fuel rest
            return (c :: text, rest)
        else if isPrintable c then
          (readLong quote escapes fuel rest).map fun (text, rest) => (c :: text, rest)
        else none
      | none, [] => none

/-- A string of several lines; a line break right after the opening quotes does not count. -/
def readLongText (quote : Char) (escapes : Bool) (fuel : Nat) (cs : List Char) :
    Option (List Char × List Char) :=
  readLong quote escapes fuel ((lineBreak cs).getD cs)

/-- A string value. -/
def readString (fuel : Nat) : List Char → Option (String × List Char)
  | '"' :: '"' :: '"' :: rest => finish (readLongText '"' true fuel rest)
  | '\'' :: '\'' :: '\'' :: rest => finish (readLongText '\'' false fuel rest)
  | '"' :: rest => finish (readBasic fuel rest)
  | '\'' :: rest => finish (readLiteral rest)
  | _ => none
where
  /-- The text as a string. -/
  finish (r : Option (List Char × List Char)) : Option (String × List Char) :=
    r.map fun (text, rest) => (String.ofList text, rest)

/-! ## Keys -/

/-- Whether a character may stand in a key without quotes. -/
def isBare (c : Char) : Bool := c.isAlphanum || c = '_' || c = '-'

/-- One part of a key. -/
def readKeyPart (fuel : Nat) (cs : List Char) : Option (String × List Char) :=
  match cs with
  | '"' :: rest => readString.finish (readBasic fuel rest)
  | '\'' :: rest => readString.finish (readLiteral rest)
  | _ =>
    let part := cs.takeWhile isBare
    if part.isEmpty then none else some (String.ofList part, cs.dropWhile isBare)

/-- The parts of a key, at most `room` of them: all but the last, and the last. -/
def readKey (fuel : Nat) : Nat → List Char → Option ((List String × String) × List Char)
  | 0, _ => none
  | room + 1, cs => do
    let (part, rest) ← readKeyPart fuel (skipBlanks cs)
    match skipBlanks rest with
    | '.' :: rest =>
      let ((parents, key), rest) ← readKey fuel room rest
      return ((part :: parents, key), rest)
    | rest => return (([], part), rest)

/-! ## Values -/

/-- A date, a time or a number. -/
def readScalar (cs : List Char) : Option (Value × List Char) :=
  match readDateTime cs with
  | some (text, rest) => some (.date (String.ofList text), rest)
  | none => (readNumber cs).map fun (v, rest) => (.scalar v, rest)

mutual

/-- A value nested at most `room` deep. -/
def readValue : Nat → Nat → List Char → Option (Value × List Char)
  | 0, _, _ => none
  | fuel + 1, room, cs =>
    match cs with
    | 't' :: 'r' :: 'u' :: 'e' :: rest => some (.scalar (.bool true), rest)
    | 'f' :: 'a' :: 'l' :: 's' :: 'e' :: rest => some (.scalar (.bool false), rest)
    | '"' :: _ => (readString fuel cs).map fun (s, rest) => (.scalar (.str s), rest)
    | '\'' :: _ => (readString fuel cs).map fun (s, rest) => (.scalar (.str s), rest)
    | '[' :: rest =>
      match room with
      | 0 => none
      | room + 1 => (readItems fuel room rest).map fun (items, rest) => (.array items, rest)
    | '\x7b' :: rest =>
      match room with
      | 0 => none
      | room + 1 => do
        let (pairs, rest) ← match skipBlanks rest with
          | '\x7d' :: rest => some ([], rest)
          | _ => readPairs fuel room rest
        return (← inlineTable pairs, rest)
    | _ => readScalar cs

/-- The items of an array up to its bracket; a comma may follow the last. -/
def readItems : Nat → Nat → List Char → Option (List Value × List Char)
  | 0, _, _ => none
  | fuel + 1, room, cs =>
    match skipLines fuel cs with
    | ']' :: rest => some ([], rest)
    | cs => do
      let (v, rest) ← readValue fuel room cs
      match skipLines fuel rest with
      | ']' :: rest => some ([v], rest)
      | ',' :: rest => (readItems fuel room rest).map fun (items, rest) => (v :: items, rest)
      | _ => none

/-- The statements of a table in braces, of which there is one at least. -/
def readPairs : Nat → Nat → List Char →
    Option (List ((List String × String) × Value) × List Char)
  | 0, _, _ => none
  | fuel + 1, room, cs => do
    let (key, rest) ← readKey fuel maxDepth cs
    let rest ← expect '=' rest
    let (v, rest) ← readValue fuel room (skipBlanks rest)
    match skipBlanks rest with
    | '\x7d' :: rest => some ([(key, v)], rest)
    | ',' :: rest => (readPairs fuel room rest).map fun (pairs, rest) => ((key, v) :: pairs, rest)
    | _ => none

end

/-! ## Statements -/

/-- One statement at the start of a line, with the end of its line. -/
def readStatement (fuel : Nat) (d : Draft) (cs : List Char) : Option (Draft × List Char) :=
  match cs with
  | '[' :: '[' :: rest => do
    let ((parents, key), rest) ← readKey fuel maxDepth rest
    let rest ← expect ']' (← expect ']' rest)
    return (← d.openItem parents key, ← endOfLine rest)
  | '[' :: rest => do
    let ((parents, key), rest) ← readKey fuel maxDepth rest
    let rest ← expect ']' rest
    return (← d.openTable parents key, ← endOfLine rest)
  | _ => do
    let ((parents, key), rest) ← readKey fuel maxDepth cs
    let rest ← expect '=' rest
    let rest := skipBlanks rest
    let (v, rest) ← readValue fuel maxDepth rest
    return (← d.assign parents key v, ← endOfLine rest)

/-- The statements of a document. -/
def readStatements : Nat → Draft → List Char → Option Draft
  | 0, _, _ => none
  | fuel + 1, d, cs =>
    match skipBlanks cs with
    | [] => some d
    | '#' :: rest => do readStatements fuel d (← endOfLine ('#' :: rest))
    | cs =>
      match lineBreak cs with
      | some rest => readStatements fuel d rest
      | none => do
        let (d, rest) ← readStatement fuel d cs
        readStatements fuel d rest

/-- The object that a whole document spells; a byte order mark may stand in front. -/
def parse? (cs : List Char) : Option Json := do
  let cs := match cs with
    | '\uFEFF' :: rest => rest
    | cs => cs
  let draft ← readStatements (2 * cs.length + 2) .start cs
  documentToJson? (← draft.fields)

end LanguageClient.Toml
