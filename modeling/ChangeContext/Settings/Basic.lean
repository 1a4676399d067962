import ChangeContext.Path.Basic

/-!
# Settings

What a user can choose: the directories that no search enters, how far the searches go and how much
they bring back, and whether and for how long bundles are remembered.  Every setting has a value
from the start, so that a settings file need only name the ones it changes.
-/

set_option autoImplicit false

namespace ChangeContext

/-- Settings for the whole project. -/
structure ProjectSettings where
  /-- The names of the directories that no search enters. -/
  ignoreDirs : List String :=
    [".git", "node_modules", "target", "dist", "build", "out", "coverage", ".next", ".cache",
      "__pycache__", ".venv"]
deriving DecidableEq, Inhabited

/-- The bounds on what is gathered. -/
structure ContextSettings where
  /-- The levels that the inventory goes down. -/
  scanDepth : Nat := 4
  /-- The number of similar files in a bundle. -/
  similarFilesLimit : Nat := 5
  /-- The levels that the search for similar files goes down. -/
  similarSearchDepth : Nat := 3
  /-- The number of imports and of patterns in a bundle. -/
  topK : Nat := 10
  /-- The size in bytes above which a file is not taken as a similar one. -/
  maxFileSize : Nat := 1024 * 1024
deriving DecidableEq, Inhabited

/-- The settings of the cache. -/
structure CacheSettings where
  enabled : Bool := true
  /-- The age in seconds at which an entry is too old. -/
  maxAgeSecs : Nat := 30 * 60
  maxEntries : Nat := 100
  /-- The cache is kept in a snapshot from one run to the next. -/
  persist : Bool := false
  /-- The place of the snapshot, from the root of the project. -/
  snapshotPath : Path := ⟨".patchwright/context-cache.json"⟩
deriving DecidableEq, Inhabited

/-- All settings. -/
structure Settings where
  project : ProjectSettings := {}
  context : ContextSettings := {}
  cache : CacheSettings := {}
deriving DecidableEq, Inhabited

end ChangeContext
