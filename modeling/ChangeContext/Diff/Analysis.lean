import ChangeContext.Diff.Counts
import ChangeContext.Diff.Overlay
import ChangeContext.Language
import ChangeContext.Outline.Tier

/-!
# Analysis of a change

The analysis of a change puts together what the lines show and what the outlines mean: the hunks
with their counts, the names that came and went, the changes that may break other files, and a
summary in one line.  The path of the changed file, when there is one, tells the language of both
versions and is named as the affected file.
-/

set_option autoImplicit false

namespace ChangeContext

namespace Diff

/-- All that is found out about a change. -/
structure Analysis where
  hunks : List Hunk
  semanticChanges : List SemanticChange
  breakingChanges : List BreakingChange
  counts : Counts
  summary : String
deriving DecidableEq, Inhabited

namespace Analysis

/-- The two texts differ. -/
def hasChanges (a : Analysis) : Bool :=
  !a.hunks.isEmpty

/-- A number of things, if there are any. -/
def counted? (thing : Nat × String) : Option String :=
  match thing.1 with
  | 0 => none
  | 1 => some s!"1 {thing.2}"
  | n => some s!"{n} {thing.2}s"

/-- The line that says of each kind of change how many there are. -/
def summarize (counts : Counts) (semantic breaking : Nat) : String :=
  if counts.isEmpty && semantic == 0 && breaking == 0 then "No changes"
  else
    ", ".intercalate ([(counts.additions, "addition"), (counts.deletions, "deletion"),
      (counts.modifications, "modification"), (semantic, "semantic change"),
      (breaking, "breaking change")].filterMap counted?)

/-- Analyse the change from `old` to `new` of the file at `path`. -/
def ofTexts (old new : String) (path : Option Path) : Analysis :=
  let hunks := Diff.hunks old new
  let language := (path.map Language.ofPath).getD Language.unknown
  let before := Outline.ofSource old language
  let after := Outline.ofSource new language
  let semantic := Diff.semanticChanges before after
  let breaking := Diff.breakingChanges before after path.toList
  let counts := Counts.ofHunks hunks
  { hunks := hunks
    semanticChanges := semantic
    breakingChanges := breaking
    counts := counts
    summary := summarize counts semantic.length breaking.length }

end Analysis

end Diff

end ChangeContext
