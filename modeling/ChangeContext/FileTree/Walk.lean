import ChangeContext.FileTree.Basic

/-!
# Walking a file tree

A walk lists what lies at and below a path, each directory before its entries and these by name,
files and directories mixed.  Links are listed and not entered; only the path where the walk starts
may itself be a link to a directory.  The walk goes down a bounded number of levels, and the caller
says which directories it passes over altogether.
-/

set_option autoImplicit false

namespace ChangeContext

namespace FileTree

/-- What a walk meets. -/
structure Visit where
  path : Path
  /-- The node at the path, a link not followed. -/
  node : Node

/-- Walk through the entries of a directory, `levels` levels down. -/
def walkIn (t : FileTree) (skips : String → Bool) : (levels : Nat) → Path → List Visit
  | 0, _ => []
  | levels + 1, dir =>
    ((t.list? dir).getD []).flatMap fun name ↦
      let path := dir.child name
      match t.atLink? path with
      | none => []
      | some .directory =>
        if skips name then [] else ⟨path, .directory⟩ :: walkIn t skips levels path
      | some node => [⟨path, node⟩]

/-- Walk at and below a path, `levels` levels down. -/
def walk (t : FileTree) (skips : String → Bool) (levels : Nat) (root : Path) : List Visit :=
  match t.atLink? root with
  | none => []
  | some .directory => ⟨root, .directory⟩ :: t.walkIn skips levels root
  | some (.link target) =>
    if t.isDir root then ⟨root, .link target⟩ :: t.walkIn skips levels root
    else if t.pathExists root then [⟨root, .link target⟩]
    else []
  | some node => [⟨root, node⟩]

end FileTree

end ChangeContext
