import LanguageClient.Table

/-!
# Paths

A path keeps the text it was given, and names a place by its components: repeated and closing
separators and inner `.` do not count. Two paths with equal components are the same place, and
tables of documents are keyed by components while messages show the text.
-/

namespace LanguageClient

/-- A path as it was written. Only paths of Unicode text are spoken of: a file system may have names
of other bytes, which have no URI that reads back as the name. -/
structure Path where
  text : String
  deriving DecidableEq, Repr, Inhabited

/-- One step of a path. -/
inductive Component where
  | root
  | here
  | parent
  | name (s : String)
  deriving DecidableEq, Repr

namespace Component

/-- The order of steps: the root, `.`, `..`, then names by their characters. -/
def before : Component → Component → Bool
  | .root, .root => false
  | .root, _ => true
  | _, .root => false
  | .here, .here => false
  | .here, _ => true
  | _, .here => false
  | .parent, .parent => false
  | .parent, _ => true
  | _, .parent => false
  | .name a, .name b => Key.before a b

instance : Key Component where
  before := before
  irrefl a := by cases a <;> simp [before, Key.irrefl]
  trans {a b c} h h' := by
    cases a <;> cases b <;> cases c <;> simp_all [before]
    exact Key.trans h h'
  connex {a b} h h' := by
    cases a <;> cases b <;> simp_all [before]
    exact Key.connex h h'

end Component

/-- A place in the file system. -/
abbrev Place := List Component

namespace Place

/-- Places are ordered step by step; a place comes before those inside it. -/
def before : Place → Place → Bool
  | [], [] => false
  | [], _ :: _ => true
  | _ :: _, [] => false
  | a :: as, b :: bs => Key.before a b || (a = b && before as bs)

theorem before_irrefl (a : Place) : before a a = false := by
  induction a with
  | nil => rfl
  | cons c cs ih => simp [before, Key.irrefl, ih]

theorem before_trans {a b c : Place} (h : before a b = true) (h' : before b c = true) :
    before a c = true := by
  induction a generalizing b c with
  | nil =>
    cases b with
    | nil => simp [before] at h
    | cons y ys =>
      cases c with
      | nil => simp [before] at h'
      | cons z zs => rfl
  | cons x xs ih =>
    cases b with
    | nil => simp [before] at h
    | cons y ys =>
      cases c with
      | nil => simp [before] at h'
      | cons z zs =>
        simp only [before, Bool.or_eq_true, Bool.and_eq_true, decide_eq_true_eq] at *
        rcases h with h | ⟨h, hr⟩ <;> rcases h' with h' | ⟨h', hr'⟩
        · exact .inl (Key.trans h h')
        · exact .inl (h' ▸ h)
        · exact .inl (h ▸ h')
        · exact .inr ⟨h.trans h', ih hr hr'⟩

theorem before_connex {a b : Place} (h : before a b = false) (h' : before b a = false) :
    a = b := by
  induction a generalizing b with
  | nil =>
    cases b with
    | nil => rfl
    | cons y ys => simp [before] at h
  | cons x xs ih =>
    cases b with
    | nil => simp [before] at h'
    | cons y ys =>
      simp only [before, Bool.or_eq_false_iff, Bool.and_eq_false_iff, decide_eq_false_iff_not]
        at h h'
      have hxy : x = y := Key.connex h.1 h'.1
      have : xs = ys := ih (h.2.resolve_left (fun hn => hn hxy))
        (h'.2.resolve_left (fun hn => hn hxy.symm))
      rw [hxy, this]

instance : Key Place := ⟨before, before_irrefl, before_trans, before_connex⟩

end Place

namespace Path

/-- The texts between the separators of a path. -/
def segments (p : Path) : List String := (p.text.toList.splitOn '/').map String.ofList

/-- Whether a path holds a NUL; no file has such a path. -/
def holdsNul (p : Path) : Bool := p.text.toList.contains '\x00'

/-- Whether a path starts at the root. -/
def isAbsolute (p : Path) : Bool := p.text.toList.head? = some '/'

/-- The steps that segments after the first stand for. -/
def innerComponents (segments : List String) : List Component :=
  segments.filterMap fun s =>
    if s = "" || s = "." then none else if s = ".." then some .parent else some (.name s)

/-- The place a path names. -/
def place (p : Path) : Place :=
  match p.segments with
  | [] => []
  | first :: rest =>
    if p.isAbsolute then .root :: innerComponents rest
    else if first = "." then .here :: innerComponents rest
    else innerComponents (first :: rest)

/-- The path `rel` as seen from `base`; an absolute one stands for itself. -/
def join (base rel : Path) : Path :=
  if rel.isAbsolute then rel
  else if base.text = "" || base.text.toList.getLast? = some '/' then ⟨base.text ++ rel.text⟩
  else ⟨base.text ++ "/" ++ rel.text⟩

/-- What stands before the last separator of a path. -/
def folder (p : Path) : Path := ⟨"/".intercalate p.segments.dropLast⟩

/-- The name that a path ends in, if it ends in one. -/
def fileName (p : Path) : Option String :=
  match p.place.getLast? with
  | some (.name s) => some s
  | _ => none

/-- What follows the last dot of the file name, unless that dot starts the name. -/
def extension (p : Path) : Option String := do
  let cs := (← p.fileName).toList
  let ending := (cs.reverse.takeWhile (· ≠ '.')).reverse
  if ending.length + 1 < cs.length then some (String.ofList ending) else none

/-- Drops segments that name no step at both ends. -/
def trimSegments (segments : List String) : List String :=
  let idle (s : String) : Bool := s = "" || s = "."
  ((segments.dropWhile idle).reverse.dropWhile idle).reverse

/-- The segments left when the steps of `base` are taken off the front. -/
def dropSteps : Nat → List String → List String
  | 0, segments => segments
  | _ + 1, [] => []
  | n + 1, s :: rest =>
    if s = "" || s = "." then dropSteps (n + 1) rest else dropSteps n rest

/-- The path itself without the segments at its end that name no step. -/
def withoutTail (p : Path) : Path :=
  match p.segments with
  | [] => p
  | first :: rest =>
    let kept := (rest.reverse.dropWhile fun s => s = "" || s = ".").reverse
    if p.isAbsolute then ⟨"/" ++ "/".intercalate kept⟩ else ⟨"/".intercalate (first :: kept)⟩

/-- The path below `base`, as written, when it lies there. -/
def below (base p : Path) : Option Path :=
  if base.place.isPrefixOf p.place then
    let left (steps : Nat) (segments : List String) : Option Path :=
      some ⟨"/".intercalate (trimSegments (dropSteps steps segments))⟩
    match base.place with
    | [] => some p.withoutTail
    | .root :: steps | .here :: steps => left steps.length (p.segments.drop 1)
    | steps => left steps.length p.segments
  else none

end Path

end LanguageClient
