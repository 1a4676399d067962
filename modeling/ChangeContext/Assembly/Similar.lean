import ChangeContext.Assembly.Project
import ChangeContext.FileTree.Walk
import ChangeContext.Text.LowerCase

/-!
# Similar files

Files of the same kind as the requested ones show how such files are written in this project.  They
are looked for by walking through the project: regular files with the extension of one of the
related files, whatever its case, that were not requested themselves, that are not too large, and
whose bytes are text.  The first few in the order of the walk are taken.
-/

set_option autoImplicit false

namespace ChangeContext

namespace Similar

/-- The extensions of these files in lower case. -/
def extensions (related : List FileRecord) : List String :=
  related.filterMap fun r ↦ r.extension?.map Text.lowercase

/-- What is met on the walk is a regular file of one of these kinds, of at most this size, and none
of the files that were requested. -/
def suits (extensions : List String) (maxSize : Nat) (covered : List Path)
    (v : FileTree.Visit) : Bool :=
  match v.node with
  | .file bytes _ =>
    !Path.memSame v.path covered
      && (v.path.extension?.map Text.lowercase).any extensions.contains
      && bytes.size ≤ maxSize
  | _ => false

/-- Load the first `limit` of these files that can be read. -/
def loadFirst (t : FileTree) : (limit : Nat) → List Path → List FileRecord
  | 0, _ => []
  | _ + 1, [] => []
  | limit + 1, path :: rest =>
    match FileRecord.load? t path with
    | some r => r :: loadFirst t limit rest
    | none => loadFirst t (limit + 1) rest

/-- The files of a project that are similar to the related ones. -/
def files (p : Project) (t : FileTree) (related : List FileRecord) (covered : List Path) :
    List FileRecord :=
  let c := p.settings.context
  let kinds := extensions related
  if kinds.isEmpty || c.similarFilesLimit = 0 then []
  else
    let met := t.walk p.ignored.contains c.similarSearchDepth p.root
    loadFirst t c.similarFilesLimit ((met.filter (suits kinds c.maxFileSize covered)).map (·.path))

end Similar

end ChangeContext
