import ChangeContext.Instant.Basic
import ChangeContext.Path.Basic

/-!
# File trees

Everything the library learns from files, it learns from a file tree: directories, regular files
with their bytes and the time of their last change, and links that stand for another path.  A tree
is a value, so what is found out about a project is a function of the tree, and a command that
writes files returns the tree it leaves behind.

The tree is kept as a list of its nodes, each under its location — the names that lead to it from
the root.  The root itself is always a directory.  Relative paths start at the location where the
tree is being looked at from.

## Following a path

A path is followed step by step.  Every step needs a directory to start from.  A link that is met on
the way is replaced by its target; a link at the very end is replaced too, unless the caller wants
the link itself.  Links may lead in a circle, so no more than forty are followed.  A slash at the
end of a path demands a directory, as if a `.` stood behind it.
-/

set_option autoImplicit false

namespace ChangeContext

/-- The names that lead to a node from the root. -/
abbrev Location := List String

/-- What a location can hold. -/
inductive Node where
  | directory
  | file (bytes : ByteArray) (modified : Instant)
  | link (target : String)

/-- Two files are the same when their bytes and the times of their last changes are. -/
theorem Node.file_eq_iff (x y : ByteArray) (s u : Instant) :
    x.data = y.data ∧ s = u ↔ Node.file x s = Node.file y u := by
  constructor
  · rintro ⟨h, rfl⟩
    exact congrArg (Node.file · s) (ByteArray.ext h)
  · intro h
    injection h with h h'
    exact ⟨congrArg ByteArray.data h, h'⟩

instance : DecidableEq Node
  | .directory, .directory => .isTrue rfl
  | .link a, .link b => decidable_of_iff (a = b) (by simp)
  | .file x s, .file y u => decidable_of_iff (x.data = y.data ∧ s = u) (Node.file_eq_iff x y s u)
  | .directory, .file _ _ | .directory, .link _ | .file _ _, .directory | .file _ _, .link _
  | .link _, .directory | .link _, .file _ _ => .isFalse (by simp)

/-- A tree of files, looked at from a directory. -/
structure FileTree where
  nodes : List (Location × Node)
  /-- Where relative paths start. -/
  here : Location

namespace FileTree

/-- A tree without files, looked at from `here`; the directories that lead there are all it has. -/
def bare (here : Location) : FileTree where
  nodes := (List.range here.length).map fun n ↦ (here.take (n + 1), .directory)
  here := here

/-- What a location holds. -/
def node? (t : FileTree) (l : Location) : Option Node :=
  if l.isEmpty then some .directory else t.nodes.lookup l

/-- The steps of a path after the root or the working directory. -/
def stepsOf (text : String) : List String :=
  let pieces := text.toList.splitOn '/'
  let names := (pieces.filter (· ≠ [])).map String.ofList
  if pieces.getLast? = some [] then names ++ ["."] else names

/-- How far steps lead before a link has to be replaced. -/
inductive Progress where
  /-- The steps lead to a node. -/
  | arrived (l : Location)
  /-- The last step leads to a name that its directory does not have. -/
  | absent (l : Location)
  /-- A link in the directory `l` has to be replaced by its target. -/
  | linked (l : Location) (target : String) (rest : List String)
  /-- A step does not lead anywhere. -/
  | stuck

/-- Follow steps up to the first link. -/
def advance (t : FileTree) (followLast : Bool) : Location → List String → Progress
  | l, [] => .arrived l
  | l, step :: rest =>
    match t.node? l with
    | some .directory =>
      if step = "." then advance t followLast l rest
      else if step = ".." then advance t followLast l.dropLast rest
      else
        match t.node? (l ++ [step]) with
        | none => if rest.isEmpty then .absent (l ++ [step]) else .stuck
        | some (.link target) =>
          if rest.isEmpty && !followLast then .arrived (l ++ [step]) else .linked l target rest
        | some _ => advance t followLast (l ++ [step]) rest
    | _ => .stuck

/-- Where a path leads. -/
inductive Target where
  | found (l : Location)
  /-- There is nothing there, but its directory exists. -/
  | missing (l : Location)
  | unreachable
deriving DecidableEq

/-- Where a path starts. -/
def startOf (text : String) (base : Location) : Location :=
  if text.toList.head? = some '/' then [] else base

/-- Follow steps, replacing at most `links` links. -/
def follow (t : FileTree) (followLast : Bool) : (links : Nat) → Location → List String → Target
  | links, l, steps =>
    match t.advance followLast l steps with
    | .arrived l => .found l
    | .absent l => .missing l
    | .stuck => .unreachable
    | .linked l target rest =>
      match links with
      | 0 => .unreachable
      | links + 1 => follow t followLast links (startOf target l) (stepsOf target ++ rest)

/-- The number of links that are followed on one path. -/
def linkLimit : Nat := 40

/-- Where a path leads; the empty path leads nowhere. -/
def resolve (t : FileTree) (p : Path) (followLast : Bool) : Target :=
  if p.text = "" then .unreachable
  else t.follow followLast linkLimit (startOf p.text t.here) (stepsOf p.text)

/-- The node at a path, links followed. -/
def at? (t : FileTree) (p : Path) : Option Node :=
  match t.resolve p true with
  | .found l => t.node? l
  | _ => none

/-- The node at a path, a link at its end not followed. -/
def atLink? (t : FileTree) (p : Path) : Option Node :=
  match t.resolve p false with
  | .found l => t.node? l
  | _ => none

/-! ## Questions about a path -/

/-- The path leads to something. -/
def pathExists (t : FileTree) (p : Path) : Bool :=
  (t.at? p).isSome

/-- The path leads to a directory. -/
def isDir (t : FileTree) (p : Path) : Bool :=
  match t.at? p with
  | some .directory => true
  | _ => false

/-- The path leads to a regular file. -/
def isFile (t : FileTree) (p : Path) : Bool :=
  match t.at? p with
  | some (.file _ _) => true
  | _ => false

/-- The bytes of a regular file and the time of its last change. -/
def file? (t : FileTree) (p : Path) : Option (ByteArray × Instant) :=
  match t.at? p with
  | some (.file bytes modified) => some (bytes, modified)
  | _ => none

/-- The text of a regular file, if its bytes are text. -/
def readText? (t : FileTree) (p : Path) : Option String :=
  (t.file? p).bind fun f ↦ String.fromUTF8? f.1

/-- The names in a directory, in ascending order. -/
def namesIn (t : FileTree) (l : Location) : List String :=
  (t.nodes.filterMap fun e ↦ if e.1 ≠ [] && e.1.dropLast = l then e.1.getLast? else none).mergeSort
    fun a b ↦ decide (a ≤ b)

/-- The names in the directory at a path, in ascending order; there are none to read when the path
does not lead to a directory. -/
def list? (t : FileTree) (p : Path) : Option (List String) :=
  match t.resolve p true with
  | .found l => if t.node? l = some .directory then some (t.namesIn l) else none
  | _ => none

/-- The absolute path of a location. -/
def pathOf (l : Location) : Path :=
  ⟨"/" ++ "/".intercalate l⟩

/-- The absolute path without links that a path leads to. -/
def canonical? (t : FileTree) (p : Path) : Option Path :=
  match t.resolve p true with
  | .found l => some (pathOf l)
  | _ => none

end FileTree

end ChangeContext
