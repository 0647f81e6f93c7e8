import LanguageClient.Toml.Value

/-!
# Tables of a TOML document

A document is read statement by statement into a tree of tables. How a table came to be decides what
may still be added to it: a header defines a table once, a longer header or a dotted key brings the
tables on its way into being, and what stands on the right of an equals sign is closed. Definitions
that contradict each other are refused.
-/

namespace LanguageClient.Toml

/-- How a table came to be. -/
inductive Origin where
  /-- By a header of its own. -/
  | header
  /-- On the way of a longer header. -/
  | implied
  /-- On the way of a dotted key. -/
  | dotted
  deriving DecidableEq, Repr, Inhabited

/-- What a key names. -/
inductive Node where
  | value (v : Value)
  | table (origin : Origin) (entries : List (String × Node))
  /-- An array of tables with the last one first; headers and keys speak of the last one. -/
  | tables (last : List (String × Node)) (before : List (List (String × Node)))
  deriving Inhabited

/-- What the keys of a table name. -/
abbrev Entries := List (String × Node)

namespace Entries

/-- What a key names. -/
def get? (t : Entries) (key : String) : Option Node := (t.find? (·.1 = key)).map (·.2)

/-- The table without a key. -/
def erase (t : Entries) (key : String) : Entries := t.filter (·.1 ≠ key)

/-- The table in which `key` names `n`. A key that is there keeps its place, a new one is last. -/
def put (t : Entries) (key : String) (n : Node) : Entries :=
  match t with
  | [] => [(key, n)]
  | (k, m) :: rest => if k = key then (key, n) :: rest else (k, m) :: put rest key n

/-- Changes the table that the keys of a header lead to; tables on the way that are not there come
into being. -/
def alterAt {α : Type} (f : Entries → Option (α × Entries)) :
    List String → Entries → Option (α × Entries)
  | [], t => f t
  | key :: rest, t =>
    match t.get? key with
    | none => (alterAt f rest []).map fun (a, u) => (a, t.put key (.table .implied u))
    | some (.value _) => none
    | some (.table origin u) =>
      (alterAt f rest u).map fun (a, u) => (a, t.put key (.table origin u))
    | some (.tables last before) =>
      (alterAt f rest last).map fun (a, u) => (a, t.put key (.tables u before))

/-- Adds a value under a dotted key, given by what is before the last dot and what is after it. The
table that takes the value must be one that dotted keys made, or the one that the statement stands
in (`isOpen`); tables that a header defined are not reached. -/
def insertAt (key : String) (v : Value) : ( isOpen : Bool) → List String → Entries → Option Entries
  | isOpen, [], t =>
    if isOpen && (t.get? key).isNone then some (t.put key (.value v)) else none
  | _, k :: rest, t =>
    match t.get? k with
    | none => (insertAt key v true rest []).map fun u => t.put k (.table .dotted u)
    | some (.table .dotted u) =>
      (insertAt key v true rest u).map fun u => t.put k (.table .dotted u)
    | some (.table .implied u) =>
      (insertAt key v false rest u).map fun u => t.put k (.table .implied u)
    | some (.tables last before) =>
      (insertAt key v false rest last).map fun u => t.put k (.tables u before)
    | some (.table .header _) => none
    | some (.value _) => none

end Entries

mutual

/-- The value of a node. -/
def Node.toValue : Node → Value
  | .value v => v
  | .table _ entries => .table (fieldsOf entries)
  | .tables last before => .array ((tablesOf before).reverse ++ [.table (fieldsOf last)])

/-- The fields of a table. -/
def fieldsOf : List (String × Node) → List (String × Value)
  | [] => []
  | (key, n) :: rest => (key, n.toValue) :: fieldsOf rest

/-- The values of tables. -/
def tablesOf : List (List (String × Node)) → List Value
  | [] => []
  | t :: rest => .table (fieldsOf t) :: tablesOf rest

end

/-- Which table the statements after a header speak of. -/
inductive Header where
  | top
  | table (parents : List String) (key : String)
  | item (parents : List String) (key : String)
  deriving Repr, Inhabited

/-- A document being read: its tables, and apart from them the one being defined. -/
structure Draft where
  root : Entries
  header : Header
  current : Entries
  deriving Inhabited

namespace Draft

/-- A document of which nothing was read. -/
def start : Draft := ⟨[], .top, []⟩

/-- Puts the table being defined into its place. -/
def close (d : Draft) : Option Entries :=
  match d.header with
  | .top => some d.current
  | .table parents key =>
    (Entries.alterAt (fun t =>
      if (t.get? key).isSome then none else some ((), t.put key (.table .header d.current)))
      parents d.root).map (·.2)
  | .item parents key =>
    (Entries.alterAt (fun t =>
      match t.get? key with
      | none => some ((), t.put key (.tables d.current []))
      | some (.tables last before) => some ((), t.put key (.tables d.current (last :: before)))
      | some _ => none)
      parents d.root).map (·.2)

/-- Starts the table of a header. One that longer headers made keeps what it has. -/
def openTable (d : Draft) (parents : List String) (key : String) : Option Draft := do
  let root ← d.close
  let (current, root) ← Entries.alterAt (fun t =>
    match t.get? key with
    | none => some ([], t)
    | some (.table .implied u) => some (u, t.erase key)
    | some _ => none) parents root
  return ⟨root, .table parents key, current⟩

/-- Starts one more table of an array. -/
def openItem (d : Draft) (parents : List String) (key : String) : Option Draft := do
  let root ← d.close
  let ((), root) ← Entries.alterAt (fun t =>
    match t.get? key with
    | none => some ((), t)
    | some (.tables _ _) => some ((), t)
    | some _ => none) parents root
  return ⟨root, .item parents key, []⟩

/-- Takes a statement that gives a key its value. -/
def assign (d : Draft) (parents : List String) (key : String) (v : Value) : Option Draft :=
  (d.current.insertAt key v true parents).map fun current => { d with current := current }

/-- The fields of the document. -/
def fields (d : Draft) : Option (List (String × Value)) := d.close.map fieldsOf

end Draft

/-- The table that statements inside braces give. -/
def inlineTable (pairs : List ((List String × String) × Value)) : Option Value :=
  (pairs.foldlM (fun (t : Entries) p => t.insertAt p.1.2 p.2 true p.1.1) []).map
    fun t => .table (fieldsOf t)

end LanguageClient.Toml
