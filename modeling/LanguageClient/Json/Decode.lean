import LanguageClient.Bounds
import LanguageClient.Json.Basic
import LanguageClient.Json.Number
import LanguageClient.Text.Quoted

/-!
# Typed reading of JSON values

A decoder takes a value to what it stands for or to the fault that was found. Records are described
field by field: an object may give the fields in any order and have others besides, an array gives
them in the order declared. Of several faults in an object the one under the least key is reported,
and a missing field only when every present one is sound.
-/

namespace LanguageClient

/-- Why a value is not what was wanted. -/
inductive DecodeError where
  | wrongType (got : Json) (wanted : String)
  | outOfRange (got : Int) (wanted : String)
  | missingField (key : String)
  | tooShort (length : Nat) (record : String) (width : Nat)
  | tooLong (length : Nat)
  | noVariant (type : String)
  | malformed (reason : String)
  deriving Inhabited, Repr

/-- How a message names a value of the wrong type. -/
def Json.described : Json → String
  | .null => "null"
  | .bool b => s!"boolean `{b}`"
  | .int n => s!"integer `{String.ofList (Json.intText n)}`"
  | .float x => s!"floating point `{String.ofList (Json.floatText x)}`"
  | .str s => s!"string {messageQuoted s}"
  | .arr _ => "sequence"
  | .obj _ => "map"

/-- The wording of a fault. -/
def DecodeError.message : DecodeError → String
  | .wrongType got wanted => s!"invalid type: {got.described}, expected {wanted}"
  | .outOfRange got wanted =>
    s!"invalid value: integer `{String.ofList (Json.intText got)}`, expected {wanted}"
  | .missingField key => s!"missing field `{key}`"
  | .tooShort length record width =>
    let elements := if width = 1 then "1 element" else s!"{width} elements"
    s!"invalid length {length}, expected struct {record} with {elements}"
  | .tooLong length => s!"invalid length {length}, expected fewer elements in array"
  | .noVariant type => s!"data did not match any variant of untagged enum {type}"
  | .malformed reason => reason

/-- Reads a JSON value as an `α`. -/
abbrev Decoder (α : Type) := Json → Except DecodeError α

namespace Decoder

/-- Any value. -/
def any : Decoder Json := .ok

/-- A text. -/
def string : Decoder String
  | .str s => .ok s
  | v => .error (.wrongType v "a string")

/-- A truth value. -/
def bool : Decoder Bool
  | .bool b => .ok b
  | v => .error (.wrongType v "a boolean")

/-- An integer between two bounds. -/
def integer (low high : Int) (wanted : String) : Decoder Int
  | .int n => if low ≤ n && n ≤ high then .ok n else .error (.outOfRange n wanted)
  | v => .error (.wrongType v wanted)

/-- A natural number below `2 ^ 32`. -/
def u32 : Decoder Nat := fun v => Int.toNat <$> integer 0 (bound32 - 1) "u32" v

/-- A natural number below `2 ^ 64`. -/
def u64 : Decoder Nat := fun v => Int.toNat <$> integer 0 (bound64 - 1) "u64" v

/-- A natural number that can count bytes in memory. -/
def usize : Decoder Nat := fun v => Int.toNat <$> integer 0 (bound64 - 1) "usize" v

/-- An integer of 32 bits. -/
def i32 : Decoder Int := integer (-bound31) (bound31 - 1) "i32"

/-- An integer of 64 bits. -/
def i64 : Decoder Int := integer (-bound63) (bound63 - 1) "i64"

/-- `null`, or what `d` reads. -/
def optional {α : Type} (d : Decoder α) : Decoder (Option α)
  | .null => .ok none
  | v => some <$> d v

/-- An array of what `d` reads; the first faulty item is reported. -/
def list {α : Type} (d : Decoder α) : Decoder (List α)
  | .arr items => items.mapM d
  | v => .error (.wrongType v "a sequence")

end Decoder

/-- What reading fields of an object gave: all of them, the first declared one that is missing, or
the fault under the least key. -/
inductive Reading (α : Type) where
  | read (a : α)
  | missing (key : String)
  | faulty (key : String) (error : DecodeError)
  deriving Inhabited

namespace Reading

/-- The reading of two groups of fields, the first declared before the second. -/
def both {α β : Type} : Reading (α → β) → Reading α → Reading β
  | .read f, .read a => .read (f a)
  | .faulty k e, .faulty k' e' => if k' < k then .faulty k' e' else .faulty k e
  | .faulty k e, _ => .faulty k e
  | _, .faulty k e => .faulty k e
  | .missing k, _ => .missing k
  | _, .missing k => .missing k

end Reading

/-- Why the items of an array give no record. -/
inductive ItemFault where
  | faulty (error : DecodeError)
  /-- The item of the field at this place, counted from zero, is missing. -/
  | missing (place : Nat)
  deriving Inhabited

/-- The same fault seen from `width` fields before. -/
def ItemFault.shift (width : Nat) : ItemFault → ItemFault
  | faulty e => faulty e
  | missing place => missing (width + place)

/-- How a record is laid out: its fields in the order declared. -/
structure Layout (α : Type) where
  width : Nat
  ofFields : (String → Option Json) → Reading α
  /-- Reads the front of an array. -/
  ofItems : List Json → Except ItemFault (α × List Json)

namespace Layout

/-- A record without fields. -/
def start {α : Type} (a : α) : Layout α := ⟨0, fun _ => .read a, fun items => .ok (a, items)⟩

/-- A record with one more field. -/
def also {α β : Type} (r : Layout (α → β)) (f : Layout α) : Layout β where
  width := r.width + f.width
  ofFields lookup := (r.ofFields lookup).both (f.ofFields lookup)
  ofItems items := do
    let (g, items) ← r.ofItems items
    let (a, items) ← (f.ofItems items).mapError (·.shift r.width)
    return (g a, items)

/-- A field; `inObject` and `inArray` stand for an absent one. -/
def field {α : Type} (key : String) (d : Decoder α) (inObject inArray : Option α) : Layout α where
  width := 1
  ofFields lookup :=
    match lookup key, inObject with
    | some v, _ => match d v with
      | .ok a => .read a
      | .error e => .faulty key e
    | none, some a => .read a
    | none, none => .missing key
  ofItems
    | v :: rest => match d v with
      | .ok a => .ok (a, rest)
      | .error e => .error (.faulty e)
    | [] => match inArray with
      | some a => .ok (a, [])
      | none => .error (.missing 0)

/-- A field that must be there. -/
def required {α : Type} (key : String) (d : Decoder α) : Layout α := field key d none none

/-- A field that may be `null` or absent from an object, but has its place in an array. -/
def nullable {α : Type} (key : String) (d : Decoder α) : Layout (Option α) :=
  field key (Decoder.optional d) (some none) none

/-- A field that may be absent everywhere, in which case it is `a`. -/
def defaulted {α : Type} (key : String) (d : Decoder α) (a : α) : Layout α :=
  field key d (some a) (some a)

/-- Reads a record of the given name. -/
def decoder {α : Type} (name : String) (r : Layout α) : Decoder α
  | .obj fields =>
    match r.ofFields (fun key => (Json.obj fields).get? key) with
    | .read a => .ok a
    | .missing key => .error (.missingField key)
    | .faulty _ e => .error e
  | .arr items =>
    match r.ofItems items with
    | .ok (a, []) => .ok a
    | .ok (_, _ :: _) => .error (.tooLong items.length)
    | .error (.faulty e) => .error e
    | .error (.missing place) => .error (.tooShort place name r.width)
  | v => .error (.wrongType v s!"struct {name}")

end Layout

end LanguageClient
