import YeccDefr.CommandLine.Run

/-!
# Directories as values

A `Workspace` is a directory with all that lies under it, together with the two standard streams. It
is a host for runs of the command line. A path is followed name by name, so it fails at the first
name that is missing or that is a file with further names behind it.
-/

namespace YeccDefr.CommandLine

/-- What a directory holds under a name. -/
inductive Entry where
  | file (content : ByteArray)
  | directory

/-- The names that lead from a directory to an entry. -/
abbrev Trail := List String

/-- A directory with the entries under it, and the standard streams. -/
structure Workspace where
  entries : List (Trail × Entry)
  input : ByteArray
  output : String

namespace Workspace

/-- The entry at the end of a trail. The workspace itself is a directory. -/
def entry? (w : Workspace) (trail : Trail) : Option Entry :=
  if trail = [] then some .directory else w.entries.lookup trail

/-- Puts an entry at the end of a trail, in place of what is there. -/
def put (w : Workspace) (trail : Trail) (e : Entry) : Workspace :=
  if (w.entries.lookup trail).isSome then
    { w with entries := w.entries.map fun p => if p.1 = trail then (trail, e) else p }
  else { w with entries := w.entries ++ [(trail, e)] }

/-- Follows names from a directory, and gives the trail to what they lead to. All but the last name
have to be those of directories. Above the workspace there are directories alone. -/
def follow (w : Workspace) (here : Trail) : List String → Except Cause Trail
  | [] => .ok here
  | name :: names =>
    if name = "" ∨ name = "." then w.follow here names
    else if name = ".." then
      if here ≠ [] then w.follow here.dropLast names
      else if names.all (· ∈ ["", ".", ".."]) then .error .isDirectory
      else .error .noSuchFile
    else if names = [] then .ok (here ++ [name])
    else
      match w.entry? (here ++ [name]) with
      | some .directory => w.follow (here ++ [name]) names
      | some (.file _) => .error .notDirectory
      | none => .error .noSuchFile

/-- The trail for names that come from the text of a path. A path that starts at the root leads out
of the workspace, where the root is a directory and nothing else is known. -/
def trailOf (w : Workspace) : List String → Except Cause Trail
  | "" :: names => if names.all (· = "") then .error .isDirectory else .error .noSuchFile
  | names => w.follow [] names

/-- The names on a path, which are what stands between its slashes. -/
def namesOn (path : String) : List String :=
  let names := path.toList.foldr
    (fun c names => if c = '/' then [] :: names else names.modifyHead (c :: ·)) [[]]
  names.map String.ofList

/-- The text in a file. -/
def readFile (w : Workspace) (path : String) : Except Cause String := do
  let trail ← w.trailOf (namesOn path)
  match w.entry? trail with
  | some (.file content) =>
    match String.fromUTF8? content with
    | some text => .ok text
    | none => .error .notText
  | some .directory => .error .isDirectory
  | none => .error .noSuchFile

/-- Names without the empty ones at their end. -/
def withoutSlashes (names : List String) : List String :=
  (names.reverse.dropWhile (· = "")).reverse

/-- Writes a text to a file, which comes into being if it is not there. A path that ends in a slash
stands for a directory, whether it is there or not. -/
def writeFile (w : Workspace) (path text : String) : Except Cause Workspace := do
  let names := namesOn path
  if names.getLast? = some "" then
    let _ ← w.trailOf (withoutSlashes names)
    .error .isDirectory
  else
    let trail ← w.trailOf names
    match w.entry? trail with
    | some .directory => .error .isDirectory
    | _ => .ok (w.put trail (.file text.toUTF8))

/-- The text on the standard input. -/
def readInput (w : Workspace) : Except Cause String :=
  match String.fromUTF8? w.input with
  | some text => .ok text
  | none => .error .notText

/-- A workspace as the surroundings of a run. -/
def host : Host (StateM Workspace) where
  readFile path := return (← get).readFile path
  readInput := return (← get).readInput
  writeFile path text := do
    match (← get).writeFile path text with
    | .ok w =>
      set w
      return .ok ()
    | .error cause => return .error cause
  writeOutput text := do
    modify fun w => { w with output := w.output ++ text }
    return .ok ()

/-- Puts an entry at the end of a trail, with the directories that lead to it. -/
def putDeep (w : Workspace) (here : Trail) : List String → Entry → Workspace
  | [], _ => w
  | [name], e => w.put (here ++ [name]) e
  | name :: names, e =>
    let w :=
      if (w.entry? (here ++ [name])).isSome then w else w.put (here ++ [name]) .directory
    w.putDeep (here ++ [name]) names e

/-- The workspace with the given entries and standard input. -/
def ofEntries (entries : List (String × Entry)) (input : ByteArray) : Workspace :=
  entries.foldl (fun w p => w.putDeep [] (namesOn p.1) p.2) ⟨[], input, ""⟩

/-- The files with their paths. -/
def files (w : Workspace) : List (String × ByteArray) :=
  w.entries.filterMap fun p =>
    match p.2 with
    | .file content => some ("/".intercalate p.1, content)
    | .directory => none

end Workspace

end YeccDefr.CommandLine
