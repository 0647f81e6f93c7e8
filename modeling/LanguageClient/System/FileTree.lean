import LanguageClient.Path.Basic
import LanguageClient.System.Access
import LanguageClient.Text.Utf8

/-!
# File trees

Folders and files by place, without links. A path is followed from the root step by step, so what
stands before a `..` or a closing `/` has to be a folder that is there. No name is longer than 255
bytes; one that is, is refused where it is reached.
-/

namespace LanguageClient

/-- What there is at a place. -/
inductive FileEntry where
  | folder
  | file (bytes : Bytes)
  deriving DecidableEq, Repr, Inhabited

/-- Folders and files by place. The root is a folder without being listed. -/
structure FileTree where
  entries : Table Place FileEntry

namespace FileTree

/-- The tree without files. -/
def empty : FileTree := ⟨.empty⟩

instance : Inhabited FileTree := ⟨empty⟩

/-- The place of the root. -/
def rootPlace : Place := [.root]

/-- What there is at a place. -/
def entryAt (t : FileTree) (p : Place) : Option FileEntry :=
  if p = rootPlace then some .folder else t.entries.get? p

/-- The tree with something at a place. -/
def put (t : FileTree) (p : Place) (e : FileEntry) : FileTree := ⟨t.entries.set p e⟩

/-- The folder around a place; the root is around itself. -/
def around (p : Place) : Place := if p = rootPlace then rootPlace else p.dropLast

/-- The place that one step leads to from a folder. -/
def step (p : Place) (segment : String) : Place :=
  if segment = "" || segment = "." then p
  else if segment = ".." then around p
  else p ++ [.name segment]

/-- How many bytes a name may have. -/
def maxNameLength : Nat := 255

/-- Where segments lead from a place. Only folders can be left. -/
def follow (t : FileTree) (p : Place) (segments : List String) : Except AccessFault Place :=
  match t.entryAt p, segments with
  | none, _ => .error .notFound
  | some _, [] => .ok p
  | some .folder, s :: rest =>
    if maxNameLength < s.utf8ByteSize then .error .tooLong else t.follow (step p s) rest
  | some (.file _), _ :: _ => .error .notDirectory

/-- The place that an absolute path leads to. -/
def find (t : FileTree) (path : Path) : Except AccessFault Place :=
  if path.holdsNul then .error .nulInName
  else if path.text = "" then .error .notFound
  else t.follow rootPlace path.segments

/-- The shortest path to a place. -/
def pathTo (p : Place) : Path :=
  ⟨"/" ++ "/".intercalate (p.filterMap fun
    | .name s => some s
    | _ => none)⟩

/-- The contents of a file. -/
def read (t : FileTree) (path : Path) : Except AccessFault Bytes := do
  match t.entryAt (← t.find path) with
  | some (.file bytes) => .ok bytes
  | _ => .error .isDirectory

/-- The place that a new file would take: its folder is there. -/
def placeForNew (t : FileTree) (path : Path) : Except AccessFault Place := do
  if path.holdsNul then throw .nulInName
  let segments := path.segments
  let name := segments.getLast?.getD ""
  let folder ← t.follow rootPlace segments.dropLast
  match t.entryAt folder with
  | some .folder =>
    if maxNameLength < name.utf8ByteSize then .error .tooLong else .ok (step folder name)
  | _ => .error .notDirectory

/-- Makes a file with the given contents or replaces those it has. -/
def write (t : FileTree) (path : Path) (bytes : Bytes) : Except AccessFault FileTree := do
  let place ← t.placeForNew path
  match t.entryAt place with
  | some .folder => .error .isDirectory
  | _ => .ok (t.put place (.file bytes))

/-- Makes the folders that segments lead through from a place. -/
def makeFoldersFrom (t : FileTree) (p : Place) (segments : List String) :
    Except AccessFault FileTree :=
  let t := if (t.entryAt p).isNone then t.put p .folder else t
  match t.entryAt p, segments with
  | some .folder, s :: rest =>
    if maxNameLength < s.utf8ByteSize then .error .tooLong else t.makeFoldersFrom (step p s) rest
  | some (.file _), _ :: _ => .error .notDirectory
  | some (.file _), [] => .error .occupied
  | _, _ => .ok t

/-- Makes a folder, and those around it that are missing. -/
def makeFolders (t : FileTree) (path : Path) : Except AccessFault FileTree :=
  if path.holdsNul then .error .nulInName else t.makeFoldersFrom rootPlace path.segments

/-- The tree with a folder, as far as it can be made. -/
def withFolder (t : FileTree) (path : Path) : FileTree := (t.makeFolders path).toOption.getD t

/-- The tree with a file and the folders around it, as far as they can be made. -/
def withFile (t : FileTree) (path : Path) (bytes : Bytes) : FileTree :=
  let t := t.withFolder path.folder
  (t.write path bytes).toOption.getD t

end FileTree

end LanguageClient
