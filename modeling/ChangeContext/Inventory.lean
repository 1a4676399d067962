import ChangeContext.Bundle.Basic
import ChangeContext.FileTree.Basic
import ChangeContext.Json.Basic
import ChangeContext.Text.LowerCase

/-!
# Inventory of a project

The inventory lists the folders of a project and its files by extension.  Links are followed, and
nothing is done about circles: the depth limit is what bounds the search.  A directory lists all its
folders and files, by name, before the search goes into the first of the folders.  Directories with
an ignored name are neither listed nor entered; a folder at the depth limit is listed and not
entered.
-/

set_option autoImplicit false

namespace ChangeContext

/-- The folders and files of a project, relative to its root. -/
structure Inventory where
  /-- The folders in the order in which they were met. -/
  folders : List Path
  /-- The files by their extension in lower case, those without one under the empty name. -/
  files : NameMap (List Path)
  totalFiles : Nat
deriving DecidableEq, Inhabited

namespace Inventory

/-- Nothing found. -/
def empty : Inventory where
  folders := []
  files := ∅
  totalFiles := 0

/-- Something that an inventory lists. -/
inductive Item where
  | folder (path : Path)
  | file (extension : String) (path : Path)

/-- Add an item at the end of its list. -/
def add (i : Inventory) : Item → Inventory
  | .folder path => { i with folders := i.folders ++ [path] }
  | .file extension path =>
    { i with
      files := i.files.alter extension fun old ↦ some (old.getD [] ++ [path])
      totalFiles := i.totalFiles + 1 }

/-- The inventory of these items. -/
def ofItems (items : List Item) : Inventory :=
  items.foldl add empty

/-- The extension under which a file is listed. -/
def extensionKey (name : String) : String :=
  ((Path.mk name).extension?.map Text.lowercase).getD ""

/-- What the entry `name` of a directory is listed as; `relative` is its path from the root. -/
def itemOf? (t : FileTree) (ignored : List String) (path relative : Path) (name : String) :
    Option Item :=
  match t.at? path with
  | some .directory => if ignored.contains name then none else some (.folder relative)
  | some (.file _ _) => some (.file (extensionKey name) relative)
  | _ => none

/-- The items at and below a directory, `levels` levels further down. -/
def itemsIn (t : FileTree) (ignored : List String) : (levels : Nat) → (dir relative : Path) →
    List Item
  | levels, dir, relative =>
    let names := (t.list? dir).getD []
    let items := names.filterMap fun name ↦
      (itemOf? t ignored (dir.child name) (relative.child name) name).map fun i ↦ (name, i)
    items.map (·.2) ++
      match levels with
      | 0 => []
      | levels + 1 => items.flatMap fun i ↦
        match i.2 with
        | .folder path => itemsIn t ignored levels (dir.child i.1) path
        | .file _ _ => []

/-- The inventory of a directory, going down `levels` levels. -/
def scan (t : FileTree) (ignored : List String) (levels : Nat) (root : Path) : Inventory :=
  ofItems (itemsIn t ignored levels root ⟨""⟩)

/-- The folders, and the number of files of each extension. -/
def summary (i : Inventory) : StructureSummary where
  folders := i.folders
  fileCounts := i.files.map List.length
  totalFiles := i.totalFiles

/-- An inventory as JSON. -/
def toJson (i : Inventory) : Json :=
  .record [("folders", .ofList (fun p : Path ↦ .text p.text) i.folders),
    ("files_by_extension", .record (i.files.toList.map fun e ↦
      (e.1, .ofList (fun p : Path ↦ .text p.text) e.2))),
    ("total_files", .nat i.totalFiles)]

end Inventory

end ChangeContext
