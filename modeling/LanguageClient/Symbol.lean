import LanguageClient.Wire.Shape

/-!
# Symbols

The symbols of a document as a server lists them: flat ones name their own place, nested ones stand
in the document that was asked about. A nested list is shown node by node, each before its children.
-/

namespace LanguageClient

/-- The kinds of symbol that the protocol numbers from one. -/
inductive SymbolKind where
  | file | module | nameSpace | package | classDef | method | property | field | constructor
  | enum | interface | function | variableDef | constant | string | number | boolean | array
  | object | key | null | enumMember | struct | event | operator | typeParameter
  deriving DecidableEq, Repr, Inhabited

namespace SymbolKind

/-- The kinds in the order of their numbers. -/
def all : List SymbolKind :=
  [file, module, nameSpace, package, classDef, method, property, field, constructor, enum,
    interface, function, variableDef, constant, string, number, boolean, array, object, key, null,
    enumMember, struct, event, operator, typeParameter]

/-- The kind of a number, if it has one. -/
def ofCode? (code : Nat) : Option SymbolKind := if code = 0 then none else all[code - 1]?

/-- The name that lists show. -/
def name : SymbolKind → String
  | file => "File"
  | module => "Module"
  | nameSpace => "Namespace"
  | package => "Package"
  | classDef => "Class"
  | method => "Method"
  | property => "Property"
  | field => "Field"
  | constructor => "Constructor"
  | enum => "Enum"
  | interface => "Interface"
  | function => "Function"
  | variableDef => "Variable"
  | constant => "Constant"
  | string => "String"
  | number => "Number"
  | boolean => "Boolean"
  | array => "Array"
  | object => "Object"
  | key => "Key"
  | null => "Null"
  | enumMember => "EnumMember"
  | struct => "Struct"
  | event => "Event"
  | operator => "Operator"
  | typeParameter => "TypeParameter"

end SymbolKind

/-- The text that lists show for a symbol. -/
def symbolLabel (code : Nat) (name : String) : String :=
  let kind := ((SymbolKind.ofCode? code).map SymbolKind.name).getD "Unknown"
  s!"[{kind}]\t{name}"

/-- A symbol with the symbols inside it; its ranges speak of the document asked about. -/
inductive SymbolTree where
  | node (name : String) (kind : Nat) (range : Range) (selection : Option Range)
      (children : List SymbolTree)
  deriving Repr, Inhabited

namespace SymbolTree

/-- Reads a symbol whose value nests at most `room` deep. -/
def decoderWithin : Nat → Decoder SymbolTree
  | 0 => fun v => .error (.wrongType v "struct DocumentSymbol")
  | room + 1 =>
    (Layout.start SymbolTree.node
      |>.also (.required "name" Decoder.string)
      |>.also (.required "kind" Decoder.u64)
      |>.also (.required "range" Range.decoder)
      |>.also (.defaulted "selectionRange" (Decoder.optional Range.decoder) none)
      |>.also (.defaulted "children" (Decoder.list (decoderWithin room)) [])).decoder
        "DocumentSymbol"

/-- Reads a symbol; as deep as its value nests is deep enough. -/
def decoder : Decoder SymbolTree := fun v => decoderWithin (v.depth + 1) v

mutual

/-- A symbol and those inside it, each before its children. -/
def entries (document : Path) : SymbolTree → List LocationEntry
  | node name kind range selection children =>
    ⟨⟨document, selection.getD range⟩, symbolLabel kind name⟩ :: entriesOfAll document children

/-- The symbols of a list, each followed by those inside it. -/
def entriesOfAll (document : Path) : List SymbolTree → List LocationEntry
  | [] => []
  | t :: rest => entries document t ++ entriesOfAll document rest

end

end SymbolTree

/-- A symbol that names its own place. -/
structure FlatSymbol where
  name : String
  kind : Nat
  location : Location
  deriving Repr, Inhabited

namespace FlatSymbol

/-- Reads a flat symbol. -/
def decoder : Decoder FlatSymbol :=
  (Layout.start FlatSymbol.mk
    |>.also (.required "name" Decoder.string)
    |>.also (.required "kind" Decoder.u64)
    |>.also (.required "location" Location.decoder)).decoder "SymbolInformation"

/-- The symbol as a list shows it. -/
def entry (s : FlatSymbol) : LocationEntry := ⟨s.location, symbolLabel s.kind s.name⟩

end FlatSymbol

end LanguageClient
