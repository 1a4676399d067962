import ChangeContext.Instant.Basic
import ChangeContext.Language
import ChangeContext.NameMap
import ChangeContext.Style

/-!
# Context bundles

A bundle is what has been gathered for an intended change: the files that the intent names, files
like them, the habits of all of these, what they import and which idioms they use, what kind of
project they are in, and when the bundle was put together.  A bundle does not change afterwards.
-/

set_option autoImplicit false

namespace ChangeContext

/-- A source file as it was read. -/
structure FileRecord where
  path : Path
  content : String
  language : String
  /-- The size in bytes. -/
  size : Nat
  modified : Option Instant
  /-- The file does not exist yet. -/
  isNew : Bool
deriving DecidableEq, Inhabited

namespace FileRecord

/-- The record of a file that is to be created. -/
def placeholder (path : Path) : FileRecord where
  path := path
  content := ""
  language := Language.ofPath path
  size := 0
  modified := none
  isNew := true

/-- The extension of the file. -/
def extension? (r : FileRecord) : Option String :=
  r.path.extension?

end FileRecord

/-- A name and how often it was counted. -/
structure RankedItem where
  name : String
  count : Nat
deriving DecidableEq, Inhabited

/-- What is known about a project from well-known files. -/
structure ProjectFlags where
  hasStrictTyping : Bool
  hasLintConfig : Bool
  packageManager : Option String
  frameworks : List String
deriving DecidableEq, Inhabited

namespace ProjectFlags

/-- Nothing is known. -/
def none : ProjectFlags := ⟨false, false, .none, []⟩

end ProjectFlags

/-- The folders of a project and the number of its files by extension. -/
structure StructureSummary where
  folders : List Path
  fileCounts : NameMap Nat
  totalFiles : Nat
deriving DecidableEq, Inhabited

namespace StructureSummary

/-- No folder and no file. -/
def empty : StructureSummary := ⟨[], ∅, 0⟩

end StructureSummary

/-- The context of an intended change. -/
structure Bundle where
  intent : String
  relatedFiles : List FileRecord
  similarFiles : List FileRecord
  style : Style
  commonImports : List RankedItem
  commonPatterns : List RankedItem
  project : ProjectFlags
  layout : StructureSummary
  assembledAt : Instant
deriving DecidableEq, Inhabited

namespace Bundle

/-- The files that are to be created. -/
def filesToCreate (b : Bundle) : List FileRecord :=
  b.relatedFiles.filter (·.isNew)

/-- The bundle of an intent for which nothing was gathered. -/
def bare (intent : String) (assembledAt : Instant) : Bundle where
  intent := intent
  relatedFiles := []
  similarFiles := []
  style := Style.standard
  commonImports := []
  commonPatterns := []
  project := ProjectFlags.none
  layout := StructureSummary.empty
  assembledAt := assembledAt

end Bundle

end ChangeContext
