/-!
# Paths

A path is kept as it was written, because answers show it that way.  What it *means* is its list of
components: the root, the current directory, the parent directory, or a name.  Repeated and
trailing slashes say nothing, and neither does a `.` that is not the first component.  Two paths are
the same path when their components agree, whatever their spelling (`Path.Same`).

Everything asked of a path — its file name, its extension, its parent, whether it is absolute — is
read off the components; joining works on the text, so that the spelling of the parts survives.
-/

set_option autoImplicit false

namespace ChangeContext

/-- A path as it was written. -/
structure Path where
  text : String
deriving DecidableEq, Inhabited

namespace Path

/-- One step of a path. -/
inductive Component where
  /-- Start at the top of the tree. -/
  | root
  /-- Stay. -/
  | here
  /-- Go up. -/
  | up
  /-- Go down to the entry of this name. -/
  | name (text : String)
deriving DecidableEq

/-- How a component is written. -/
def Component.text : Component → String
  | root => "/"
  | here => "."
  | up => ".."
  | name s => s

/-- The step that a stretch between two slashes stands for, if it says anything. -/
def stepOf? (piece : List Char) : Option Component :=
  if piece = [] || piece = ['.'] then none
  else if piece = ['.', '.'] then some .up
  else some (.name (String.ofList piece))

/-- The step that the stretch before the first slash stands for; it is also told whether a slash
follows. -/
def firstStep? (piece : List Char) (slash : Bool) : Option Component :=
  if piece = [] then if slash then some .root else none
  else if piece = ['.'] then some .here
  else stepOf? piece

/-- The components of a path. -/
def components (p : Path) : List Component :=
  match p.text.toList.splitOn '/' with
  | [] => []
  | first :: rest => (firstStep? first (!rest.isEmpty)).toList ++ rest.filterMap stepOf?

/-- Two spellings of one path. -/
def Same (p q : Path) : Prop :=
  p.components = q.components

instance (p q : Path) : Decidable (p.Same q) :=
  inferInstanceAs (Decidable (p.components = q.components))

/-- The path starts at the root. -/
def isAbsolute (p : Path) : Bool :=
  p.text.toList.head? == some '/'

/-- `q` seen from `p`: an absolute `q` stands alone. -/
def join (p q : Path) : Path :=
  if q.isAbsolute then q
  else if p.text = "" || p.text.toList.getLast? == some '/' then ⟨p.text ++ q.text⟩
  else ⟨p.text ++ "/" ++ q.text⟩

/-- The entry `name` of the directory `p`. -/
def child (p : Path) (name : String) : Path :=
  p.join ⟨name⟩

/-- Write components out. -/
def ofComponents (cs : List Component) : Path :=
  cs.foldl (fun p c ↦ p.child c.text) ⟨""⟩

/-- The last component, when it is a name. -/
def fileName? (p : Path) : Option String :=
  match p.components.getLast? with
  | some (.name s) => some s
  | _ => none

/-- The part of a file name after its last dot; a dot at the start opens no extension. -/
def extensionOf? (fileName : String) : Option String :=
  let reversed := fileName.toList.reverse
  match reversed.dropWhile (· ≠ '.') with
  | '.' :: _ :: _ => some (String.ofList (reversed.takeWhile (· ≠ '.')).reverse)
  | _ => none

/-- The extension of the file name, without its dot. -/
def extension? (p : Path) : Option String :=
  p.fileName?.bind extensionOf?

/-- The path without its last step; the root and the empty path have none. -/
def parent? (p : Path) : Option Path :=
  match p.components.getLast? with
  | none | some .root => none
  | some _ => some (ofComponents p.components.dropLast)

end Path

end ChangeContext
