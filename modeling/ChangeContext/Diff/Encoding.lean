import ChangeContext.Diff.Analysis
import ChangeContext.Json.Basic

/-!
# Analyses as JSON

How an analysis is shown to programs: every part is an object with a fixed order of members, kinds
are written as lower-case words, and a line number that a line does not have is null.
-/

set_option autoImplicit false

namespace ChangeContext

namespace Diff

/-- The word for a kind of line. -/
def LineKind.word : LineKind → String
  | add => "add"
  | remove => "remove"
  | unchanged => "unchanged"

/-- The word for a kind of semantic change. -/
def SemanticKind.word : SemanticKind → String
  | functionAdded => "function-added"
  | functionRemoved => "function-removed"
  | importAdded => "import-added"
  | importRemoved => "import-removed"
  | exportAdded => "export-added"
  | exportRemoved => "export-removed"

/-- The word for an impact. -/
def Impact.word : Impact → String
  | low => "low"
  | medium => "medium"
  | high => "high"

/-- The word for a kind of breaking change. -/
def BreakingKind.word : BreakingKind → String
  | removal => "removal"
  | signatureChange => "signature-change"

/-- A line of a hunk. -/
def Line.toJson (l : Line) : Json :=
  .record [("kind", .text l.kind.word), ("content", .text l.content),
    ("old_line", .ofOption .nat l.old?), ("new_line", .ofOption .nat l.new?)]

/-- A hunk. -/
def Hunk.toJson (h : Hunk) : Json :=
  .record [("old_start", .nat h.oldStart), ("old_lines", .nat h.oldLines),
    ("new_start", .nat h.newStart), ("new_lines", .nat h.newLines),
    ("lines", .ofList Line.toJson h.lines)]

/-- A semantic change. -/
def SemanticChange.toJson (c : SemanticChange) : Json :=
  .record [("category", .text c.kind.word), ("name", .text c.name),
    ("impact", .text c.impact.word)]

/-- A breaking change. -/
def BreakingChange.toJson (c : BreakingChange) : Json :=
  .record [("category", .text c.kind.word), ("description", .text c.description),
    ("affected_files", .ofList (fun p : Path ↦ .text p.text) c.affectedFiles),
    ("suggestion", .text c.suggestion)]

/-- The counts of changed lines. -/
def Counts.toJson (c : Counts) : Json :=
  .record [("additions", .nat c.additions), ("deletions", .nat c.deletions),
    ("modifications", .nat c.modifications)]

/-- An analysis. -/
def Analysis.toJson (a : Analysis) : Json :=
  .record [("hunks", .ofList Hunk.toJson a.hunks),
    ("semantic_changes", .ofList SemanticChange.toJson a.semanticChanges),
    ("breaking_changes", .ofList BreakingChange.toJson a.breakingChanges),
    ("stats", a.counts.toJson), ("summary", .text a.summary)]

end Diff

end ChangeContext
