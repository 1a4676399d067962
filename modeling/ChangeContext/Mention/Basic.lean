import ChangeContext.Bundle.Codec
import ChangeContext.Mention.Candidate
import ChangeContext.Mention.Nearest
import ChangeContext.Path.Normalize

/-!
# Mentions of files

A mention is a piece of text that names a file, together with the file it stands for.  A path stands
for its normal form seen from the root of the project; a path with a drive letter belongs to another
system and is left as it is.  Where there is no such file, the nearest file of the same name in the
project is taken instead, and if there is none either, the file is one that does not exist yet.
-/

set_option autoImplicit false

namespace ChangeContext

/-- A file that a text mentions. -/
structure Mention where
  /-- The text, without its quotation marks. -/
  wording : String
  /-- The path of the file, or the best guess when there is no such file. -/
  resolved : Path
  existing : Bool
  extension : String
  fileName : String
  isAbsolute : Bool
deriving DecidableEq, Inhabited

namespace Mention

/-- The text begins with a drive letter. -/
def hasDrive (s : String) : Bool :=
  match s.toList with
  | letter :: ':' :: slash :: _ => letter.isAlpha && (slash == '\\' || slash == '/')
  | _ => false

/-- A text with all backslashes turned. -/
def withSlashes (s : String) : String :=
  String.ofList (s.toList.map fun c ↦ if c == '\\' then '/' else c)

/-- The file at the end of a path in either kind of slashes. -/
def fileNameIn? (s : String) : Option String :=
  (Path.mk (withSlashes s)).fileName?

/-- The path that a text names, and whether it is absolute. -/
def named (root : Path) (shape : Shape) (text : String) : Path × Bool :=
  if shape = .drive || hasDrive text then (⟨text⟩, true)
  else ((root.join ⟨text⟩).normalize, (Path.mk text).isAbsolute)

/-- The file that a path stands for, and whether it exists. -/
def locate (t : FileTree) (root : Path) (ignored : List String) (text : String) (path : Path) :
    Path × Bool :=
  if t.pathExists path then (path, true)
  else
    match (fileNameIn? text).bind (nearest? t root ignored) with
    | some found => (found, true)
    | none => (path, false)

/-- The mention that a candidate makes. -/
def ofCandidate (t : FileTree) (root : Path) (ignored : List String) (c : Candidate) : Mention :=
  let (path, absolute) := named root c.shape c.text
  let (resolved, existing) := locate t root ignored c.text path
  let fileName := (fileNameIn? resolved.text).getD c.text
  { wording := c.text
    resolved := resolved
    existing := existing
    extension := (Path.mk fileName).extension?.getD ""
    fileName := fileName
    isAbsolute := absolute }

/-- Of candidates with the same text, keep the first. -/
def distinct (cs : List Candidate) : List Candidate :=
  cs.foldl (fun kept c ↦ if kept.any (·.text == c.text) then kept else kept ++ [c]) []

/-- The files that a text mentions, each piece of text once. -/
def ofText (t : FileTree) (root : Path) (ignored : List String) (text : String) : List Mention :=
  (distinct (candidates text)).map (ofCandidate t root ignored)

/-- The mention that a text is most likely about: one of a file that exists, else one by an absolute
path, else the first. -/
def primary? (mentions : List Mention) : Option Mention :=
  (mentions.find? (·.existing)).or ((mentions.find? (·.isAbsolute)).or mentions.head?)

/-- A mention as JSON. -/
def toJson (m : Mention) : Json :=
  .record [("original", .text m.wording), ("resolved", m.resolved.toJson),
    ("exists", .bool m.existing), ("extension", .text m.extension),
    ("file_name", .text m.fileName), ("is_absolute", .bool m.isAbsolute)]

end Mention

end ChangeContext
