import ChangeContext.CommandLine.Invocation
import ChangeContext.CommandLine.Message
import Std.Time.DateTime.Timestamp

/-!
# The program

The program takes down the part of the file tree that a command line is about, carries out what is
asked for on it, and writes back the files that are new or changed.

The working directory and the root of the project are taken down with everything below them; of
other paths only what lies on the way and what they lead to.  A link is taken down as one to the
place where it ends, and this place is taken down too; a link that ends nowhere becomes one to
itself.  What cannot be read is left out.
-/

set_option autoImplicit false

namespace ChangeContext

/-- A place in the file tree to take down. -/
structure Survey.Place where
  path : Path
  /-- Everything below is wanted too. -/
  below : Bool

/-- What has been taken down, and the places that are still wanted. -/
structure Survey where
  nodes : List (Location × Node) := []
  wanted : List Survey.Place := []

namespace Survey

/-- The location that an absolute path spells. -/
def locationOf (p : Path) : Location :=
  p.normalize.components.filterMap fun
    | .name s => some s
    | _ => none

/-- What is at a location, a link not followed, and the place that a link leads to. -/
def lookAt (l : Location) (below : Bool) : IO (Node × List Place) := do
  let text := (FileTree.pathOf l).text
  let path := (← IO.currentDir) / text
  let info ← path.symlinkMetadata
  match info.type with
  | .dir => return (.directory, [])
  | .file =>
    return (.file (← IO.FS.readBinFile path) ⟨info.modified.sec, info.modified.nsec.toNat⟩, [])
  | .symlink =>
    let target ← try pure (← IO.FS.realPath path).toString catch _ => pure text
    return (.link target, if target = text then [] else [⟨⟨target⟩, below⟩])
  | .other => throw (IO.userError text)

/-- Take down what is at a location, unless that has been done. -/
def node (s : Survey) (l : Location) (below : Bool) : IO Survey := do
  if l.isEmpty || s.nodes.any (·.1 == l) then return s
  try
    let (found, more) ← lookAt l below
    return { nodes := (l, found) :: s.nodes, wanted := more ++ s.wanted }
  catch _ => return s

/-- A directory has been taken down at this location. -/
def hasDirectory (s : Survey) (l : Location) : Bool :=
  l.isEmpty || s.nodes.lookup l == some .directory

/-- Take down a location and everything below it. -/
partial def descend (s : Survey) (l : Location) : IO Survey := do
  let s ← s.node l true
  if !s.hasDirectory l then return s
  let entries ← try ((← IO.currentDir) / (FileTree.pathOf l).text).readDir catch _ => pure #[]
  entries.foldlM (fun s entry ↦ descend s (l ++ [entry.fileName])) s

/-- Take down the way to a place and the place. -/
def place (s : Survey) (p : Place) : IO Survey := do
  let l := locationOf p.path
  let s ← (List.range l.length).foldlM (fun s n ↦ s.node (l.take (n + 1)) p.below) s
  if p.below then s.descend l else return s

/-- Take down all places that are wanted. -/
partial def run (s : Survey) : IO Survey := do
  match s.wanted with
  | [] => return s
  | p :: rest => run (← { s with wanted := rest }.place p)

end Survey

/-- The file tree as far as an invocation is about it. -/
def takeDown (i : Invocation) : IO FileTree := do
  let here : Path := ⟨(← IO.currentDir).toString⟩
  let places := ⟨here, true⟩ :: (i.root.toList.map fun r ↦ ⟨here.join r, true⟩)
    ++ i.paths.map fun p ↦ ⟨here.join p, false⟩
  let s ← Survey.run { wanted := places }
  return ⟨s.nodes.reverse, Survey.locationOf here⟩

/-- Write the files and directories that one tree has and another has not. -/
def writeBack (old new : FileTree) : IO Unit := do
  for (l, found) in new.nodes do
    if old.node? l != some found then
      let path := (← IO.currentDir) / (FileTree.pathOf l).text
      match found with
      | .directory => IO.FS.createDirAll path
      | .file bytes _ => IO.FS.writeBinFile path bytes
      | .link _ => pure ()

/-- What the clock shows now. -/
def readClock : IO Clock := do
  let now ← Std.Time.Timestamp.now
  let nanos := now.toNanosecondsSinceUnixEpoch.val
  return Clock.still ⟨nanos / 1000000000, (nanos % 1000000000).toNat⟩

/-- Carry out a command line, and return the exit code. -/
def carryOut (words : List String) : IO UInt32 := do
  match Invocation.ofWords words with
  | .error e =>
    if e.isAnswer then
      IO.print e.message
      return 0
    else
      IO.eprint e.message
      return 2
  | .ok i =>
    let old ← takeDown i
    let (answer, new) := i.run old (← readClock)
    writeBack old new
    match answer with
    | .ok text =>
      IO.print text
      return 0
    | .error e =>
      IO.eprint e.message
      return 1

end ChangeContext

/-- The program. -/
def main (words : List String) : IO UInt32 :=
  ChangeContext.carryOut words
