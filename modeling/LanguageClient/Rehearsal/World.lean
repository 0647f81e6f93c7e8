import LanguageClient.Rehearsal.Script
import LanguageClient.System.FileAccess
import LanguageClient.System.FileTree
import LanguageClient.System.ServerControl

/-!
# A world in memory

A system to run commands on without touching the real one: a file tree, programs, a clock that only
waiting moves, and servers that follow one script. A server does all that a message makes it do at
once, so its events are there before anything else happens.
-/

namespace LanguageClient

/-- A system in memory. -/
structure World where
  files : FileTree
  /-- The working folder. -/
  folder : Path
  /-- The programs there are, by the names and paths they are called by. -/
  programs : List String
  script : Script
  /-- The time, in milliseconds. -/
  clock : Nat
  servers : Table ConnectionId ScriptedServer
  /-- The events that were not taken yet. -/
  queue : List Event
  /-- The messages that servers have read. -/
  heard : List Json

namespace World

/-- A world in which no server was started. -/
def new (files : FileTree) (folder : Path) (programs : List String) (script : Script) : World :=
  ⟨files, folder, programs, script, 0, .empty, [], []⟩

instance : Inhabited World := ⟨new .empty ⟨"/"⟩ [] .silent⟩

/-- A path as seen from the root. -/
def absolute (w : World) (path : Path) : Path :=
  if path.text = "" then path else w.folder.join path

/-! ## Files -/

/-- The path to the same place that has no detours. It is followed name by name, so a path of any
length can be. -/
def canonical (w : World) (path : Path) : Except AccessFault Path :=
  (w.files.find (w.absolute path)).map FileTree.pathTo

/-- How many bytes a path that is used as a whole may have. -/
def maxPathLength : Nat := 4095

/-- The path from the root of one that is used as a whole. -/
def reach (w : World) (path : Path) : Except AccessFault Path :=
  if maxPathLength < path.text.utf8ByteSize then .error .tooLong else .ok (w.absolute path)

/-- Whether there is anything at a path. -/
def isPresent (w : World) (path : Path) : Bool := (w.reach path >>= w.files.find).toBool

/-- The contents of the file at a path. -/
def read (w : World) (path : Path) : Except AccessFault Bytes := w.reach path >>= w.files.read

/-- Whether a program is called by its path, and not by its name alone. -/
def isProgramPath (w : World) (text : String) : Bool :=
  text.toList.contains '/' && w.programs.contains text

/-- Whether there is a file at a path; programs are files too. -/
def isFile (w : World) (path : Path) : Bool :=
  w.isProgramPath path.text || (w.read path).toBool

/-- Runs a change of the files at a path. -/
def changeFiles (path : Path) (change : FileTree → Path → Except AccessFault FileTree) :
    StateM World (Except AccessFault Unit) := fun w =>
  match w.reach path >>= change w.files with
  | .ok files => (.ok (), { w with files := files })
  | .error fault => (.error fault, w)

instance : FileAccess (StateM World) where
  canonical path := return (← get).canonical path
  isPresent path := return (← get).isPresent path
  isFile path := return (← get).isFile path
  read path := return (← get).read path
  write path bytes := changeFiles path fun t path => t.write path bytes
  makeFolders path := changeFiles path fun t path => t.makeFolders path
  findsProgram name := return (← get).programs.contains name

/-! ## Servers -/

/-- Why there is no program of a name. One with a `/` in it is looked for at that path; no file of
the tree is a program. Any other is looked for in the folders of the search path, where `.` and `..`
are folders too. -/
def programFault (w : World) (command : String) : Option AccessFault :=
  if w.programs.contains command then none
  else if command.toList.contains '/' then
    match w.reach ⟨command⟩ >>= w.files.find with
    | .ok _ => some .denied
    | .error fault => some fault
  else if command = "." || command = ".." then some .denied
  else if FileTree.maxNameLength < command.utf8ByteSize then some .tooLong
  else some .notFound

/-- Why a server does not start, in words. Its name and its arguments are handed over with a NUL at
the end of each, so they hold none. -/
def launchFault (w : World) (config : ServerConfig) : Option String :=
  if (config.command :: config.args).any fun s => s.toList.contains '\x00' then
    some "nul byte found in provided data"
  else (w.programFault config.command).map AccessFault.message

/-- Starts a server. -/
def launch (id : ConnectionId) (config : ServerConfig) : StateM World Launched := fun w =>
  match w.launchFault config with
  | some reason => (.refused s!"{config.command}: {reason}", w)
  | none => (.running true, { w with servers := w.servers.set id ⟨.reading, 0⟩ })

/-- How a server goes on after a message, and the code it exits with, if it does. -/
def courseAfter (w : World) (cue : Cue) (message : Json) : Course × Option Nat :=
  if cue.hangs then (.hanging (w.clock + Script.hangTime), none)
  else
    match cue.exitCode with
    | some code => (.ended, some code)
    | none => if Script.isFarewell message then (.ended, some 0) else (.reading, none)

/-- Hands a message to a server. -/
def send (w : World) (id : ConnectionId) (message : Json) : World :=
  match w.servers.get? id with
  | some ⟨.reading, count⟩ =>
    let cue := w.script (count + 1)
    let (course, code) := w.courseAfter cue message
    { w with
      servers := w.servers.set id ⟨course, count + 1⟩
      heard := w.heard ++ [message]
      queue := w.queue ++ (cue.stderr.map (Event.stderr id)).toList
        ++ (cue.stdout.map (Event.stdout id)).toList
        ++ (code.map fun code => Event.exited id (some code)).toList }
  | _ => w

/-- The server is gone, with the code it exited with or none if it was killed. -/
def finish (w : World) (id : ConnectionId) (code : Option Int) : World :=
  { w with
    servers := w.servers.modify id fun server => { server with course := .ended }
    queue := w.queue ++ [.exited id code] }

/-- Closes the input of a server and kills it when it is still there after `grace`. -/
def retire (w : World) (id : ConnectionId) (grace : Nat) : World :=
  match (w.servers.get? id).map ScriptedServer.course with
  | some .reading => w.finish id (some 0)
  | some (.hanging moment) =>
    w.finish id (if moment ≤ w.clock + grace then some 0 else none)
  | _ => w

/-- The server whose hanging ends next, up to a moment. -/
def nextToEnd (w : World) (limit : Nat) : Option (ConnectionId × Nat) :=
  w.servers.entries.foldl (fun found (id, server) =>
    match server.course with
    | .hanging moment =>
      if moment < (found.map (·.2)).getD limit then some (id, moment) else found
    | _ => found) none

/-- Takes the next event, or lets the time pass up to `limit`. No event comes in no time. -/
def await (limit : Nat) : StateM World (Option Event) := fun w =>
  if limit ≤ w.clock then (none, w)
  else
    match w.queue, w.nextToEnd limit with
    | event :: rest, _ => (some event, { w with queue := rest })
    | [], some (id, moment) =>
      (some (.exited id (some 0)),
        { w.finish id (some 0) with clock := moment, queue := [] })
    | [], none => (none, { w with clock := limit })

/-- Takes an event that is already there. -/
def takeReady : StateM World (Option Event) := fun w =>
  match w.queue with
  | event :: rest => (some event, { w with queue := rest })
  | [] => (none, w)

instance : ServerControl (StateM World) where
  launch id config _ := launch id config
  send id message := modify fun w => w.send id message
  retire id grace := modify fun w => w.retire id grace
  reap _ := pure ()
  now := return (← get).clock
  await := await
  ready := takeReady

end World

end LanguageClient
