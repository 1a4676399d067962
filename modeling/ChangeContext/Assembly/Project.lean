import ChangeContext.Bundle.Load
import ChangeContext.Mention.Basic
import ChangeContext.Path.Order
import ChangeContext.Settings.Basic

/-!
# Projects and what is requested of them

A project is a directory together with the settings for working on it.  A request names a file and
says whether it exists: the files that the intent mentions come first, as they were found when it
was read, and then the files that were given as targets, which are looked up now.
-/

set_option autoImplicit false

namespace ChangeContext

/-- A directory to work on, and how. -/
structure Project where
  root : Path
  settings : Settings
deriving DecidableEq, Inhabited

/-- A file that a bundle is to be about. -/
structure Request where
  path : Path
  existing : Bool
deriving DecidableEq, Inhabited

namespace Project

/-- The directories that no search enters. -/
def ignored (p : Project) : List String :=
  p.settings.project.ignoreDirs

/-- The normal form of a path seen from the root of the project. -/
def absolute (p : Project) (path : Path) : Path :=
  (p.root.join path).normalize

/-- The files that a text mentions. -/
def mentions (p : Project) (t : FileTree) (text : String) : List Mention :=
  Mention.ofText t p.root p.ignored text

/-- The request for a target. -/
def requestOf (p : Project) (t : FileTree) (target : Path) : Request :=
  ⟨p.absolute target, t.pathExists (p.absolute target)⟩

/-- The requests for mentions and then targets. -/
def requests (p : Project) (t : FileTree) (mentions : List Mention) (targets : List Path) :
    List Request :=
  mentions.map (fun m ↦ ⟨m.resolved, m.existing⟩) ++ targets.map (p.requestOf t)

end Project

namespace Request

/-- Of requests for the same path, keep the first; `seen` are the paths that came before. -/
def distinctAfter (seen : List Path) : List Request → List Request
  | [] => []
  | r :: rest =>
    if Path.memSame r.path seen then distinctAfter seen rest
    else r :: distinctAfter (r.path :: seen) rest

/-- The record for a request: of a file that exists if it can be read, and else a placeholder. -/
def record? (t : FileTree) (r : Request) : Option FileRecord :=
  if r.existing then FileRecord.load? t r.path else some (FileRecord.placeholder r.path)

/-- The records for requests, one for each path. -/
def records (t : FileTree) (requests : List Request) : List FileRecord :=
  (distinctAfter [] requests).filterMap (record? t)

end Request

end ChangeContext
