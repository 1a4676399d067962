import ChangeContext.FileTree.Basic

/-!
# The nearest file of a name

Who mentions a file by its name alone, or by a path that leads nowhere, probably means a file of
that name somewhere in the project.  The file is looked for below the root of the project and then
below the directories where sources usually are.  Below each the search goes level by level, so the
nearest file is found, and on one level in the order of the directories.  It goes two levels down
and never into an ignored directory.
-/

set_option autoImplicit false

namespace ChangeContext

namespace Mention

/-- The directories below which a file is looked for, from the root of the project. -/
def sourceRoots : List String :=
  ["", "src", "lib", "app"]

/-- The number of levels that the search goes down. -/
def searchLevels : Nat := 2

/-- The entry of this name in a directory, unless it is a directory itself. -/
def entryIn? (t : FileTree) (name : String) (dir : Path) : Option Path :=
  if ((t.list? dir).getD []).contains name && !t.isDir (dir.child name) then some (dir.child name)
  else none

/-- The directories in a directory that the search goes into. -/
def openDirs (t : FileTree) (ignored : List String) (dir : Path) : List Path :=
  ((t.list? dir).getD []).filterMap fun name ↦
    if t.isDir (dir.child name) && !ignored.contains name then some (dir.child name) else none

/-- Look on one level after the other, `levels` levels down. -/
def searchBelow (t : FileTree) (ignored : List String) (name : String) :
    (levels : Nat) → List Path → Option Path
  | levels, dirs =>
    match dirs.findSome? (entryIn? t name) with
    | some found => some found
    | none =>
      match levels with
      | 0 => none
      | levels + 1 => searchBelow t ignored name levels (dirs.flatMap (openDirs t ignored))

/-- The directory below which a search starts. -/
def searchRoot (root : Path) (name : String) : Path :=
  if name = "" then root else root.child name

/-- The nearest file of this name. -/
def nearest? (t : FileTree) (root : Path) (ignored : List String) (name : String) : Option Path :=
  ((sourceRoots.map (searchRoot root)).filter t.isDir).findSome? fun dir ↦
    searchBelow t ignored name searchLevels [dir]

end Mention

end ChangeContext
