import ChangeContext.Bundle.Basic
import ChangeContext.FileTree.Basic

/-!
# Loading a file

A file record holds the text of a file with its size and the time of its last change, as they are at
the time of loading.  A path that does not lead to a regular file, or to one whose bytes are not
text, has no record.
-/

set_option autoImplicit false

namespace ChangeContext

namespace FileRecord

/-- The record of the file at a path. -/
def load? (t : FileTree) (path : Path) : Option FileRecord := do
  let (bytes, modified) ← t.file? path
  let content ← String.fromUTF8? bytes
  return {
    path := path
    content := content
    language := Language.ofPath path
    size := bytes.size
    modified := some modified
    isNew := false }

end FileRecord

end ChangeContext
