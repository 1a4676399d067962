import ChangeContext.Digest
import ChangeContext.FileTree.Basic
import ChangeContext.Path.Order

/-!
# Keys and states of file sets

A bundle is remembered under the set of files that it was gathered for, and is good as long as these
files have not changed.  Both are expressed by digests.  The key of a file set is the digest of its
paths, one to a line.  The state of a file set is the digest of a line for each file with its path,
the time of its last change, its size and the length of its content; when one of the files cannot be
read, the set has no state.

A key depends on the order and the spelling of the paths, so it is always taken of the canonical
form of a set.
-/

set_option autoImplicit false

namespace ChangeContext

namespace Cache

/-- The text whose digest is the key of a file set. -/
def keyText (files : List Path) : String :=
  "\n".intercalate (files.map (·.text))

/-- The key of a list of files. -/
def key (files : List Path) : String :=
  Digest.ofText (keyText files)

/-- The nanoseconds since the beginning of 1970 that stand for a time; earlier times count as that
moment. -/
def stamp (modified : Instant) : Nat :=
  modified.toNanos.toNat

/-- The line that describes the state of a file. -/
def stateLine (path : Path) (modified : Instant) (size length : Nat) : String :=
  s!"{path.text}|{stamp modified}|{size}|{length}\n"

/-- The line that describes the file at a path as it is now. -/
def stateLine? (t : FileTree) (path : Path) : Option String :=
  (t.file? path).map fun f ↦ stateLine path f.2 f.1.size f.1.size

/-- The state of a list of files as they are now. -/
def state? (t : FileTree) (files : List Path) : Option String :=
  (files.mapM (stateLine? t)).map fun lines ↦ Digest.ofText (String.join lines)

end Cache

end ChangeContext
