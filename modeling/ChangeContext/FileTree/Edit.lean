import ChangeContext.FileTree.Basic

/-!
# Changing a file tree

Changes follow the same paths as questions do.  Writing a file needs its directory to exist, and
writes through a link at the end of the path; making a directory makes the directories that lead to
it.  A change that cannot be made has no resulting tree, except that the directories made on the way
to one that cannot be made stay.
-/

set_option autoImplicit false

namespace ChangeContext

namespace FileTree

/-- Put a node at a location. -/
def put (t : FileTree) (l : Location) (n : Node) : FileTree :=
  if t.nodes.any (·.1 == l) then
    { t with nodes := t.nodes.map fun e ↦ if e.1 == l then (l, n) else e }
  else { t with nodes := t.nodes ++ [(l, n)] }

/-- Write a regular file. -/
def writeFile? (t : FileTree) (p : Path) (bytes : ByteArray) (now : Instant) : Option FileTree :=
  match t.resolve p true with
  | .found l =>
    match t.node? l with
    | some (.file _ _) => some (t.put l (.file bytes now))
    | _ => none
  | .missing l => some (t.put l (.file bytes now))
  | .unreachable => none

/-- Make the directory at a path whose parent exists, unless it is there. -/
def makeDir? (t : FileTree) (p : Path) : Option FileTree :=
  match t.resolve p false with
  | .missing l => some (t.put l .directory)
  | .found _ => if t.isDir p then some t else none
  | .unreachable => none

/-- Make the directories at these paths one after the other, and say whether all are there. -/
def makeEach (t : FileTree) : List Path → FileTree × Bool
  | [] => (t, true)
  | p :: rest =>
    match t.makeDir? p with
    | some t => makeEach t rest
    | none => (t, false)

/-- The paths made of the first components of a path, the shortest first. -/
def stages (p : Path) : List Path :=
  (List.range p.components.length).map fun n ↦ Path.ofComponents (p.components.take (n + 1))

/-- Make a directory and those that lead to it, and say whether it is there. -/
def makeDirs (t : FileTree) (p : Path) : FileTree × Bool :=
  if t.isDir p then (t, true) else t.makeEach (stages p)

/-- Put a link at a path where there is nothing. -/
def makeLink? (t : FileTree) (p : Path) (target : String) : Option FileTree :=
  match t.resolve p false with
  | .missing l => some (t.put l (.link target))
  | _ => none

/-- Take away what a path leads to, a link itself, a directory with everything below it. -/
def remove? (t : FileTree) (p : Path) : Option FileTree :=
  match t.resolve p false with
  | .found l => some { t with nodes := t.nodes.filter fun e ↦ !l.isPrefixOf e.1 }
  | _ => none

/-- Set the time of the last change of a regular file. -/
def touch? (t : FileTree) (p : Path) (modified : Instant) : Option FileTree :=
  match t.resolve p true with
  | .found l =>
    match t.node? l with
    | some (.file bytes _) => some (t.put l (.file bytes modified))
    | _ => none
  | _ => none

end FileTree

end ChangeContext
