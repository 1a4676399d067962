import ChangeContext.Diff.Analysis

/-!
# Analyses for reading

An analysis is printed as its hunks, each under a header with its place in both texts and each line
behind a sign that tells what happened to it; then the semantic and the breaking changes, if there
are any; and at last the summary.
-/

set_option autoImplicit false

namespace ChangeContext

namespace Diff

/-- The sign before a line. -/
def LineKind.sign : LineKind → String
  | add => "+"
  | remove => "-"
  | unchanged => " "

/-- The name under which a kind of semantic change is printed. -/
def SemanticKind.label : SemanticKind → String
  | functionAdded => "FunctionAdded"
  | functionRemoved => "FunctionRemoved"
  | importAdded => "ImportAdded"
  | importRemoved => "ImportRemoved"
  | exportAdded => "ExportAdded"
  | exportRemoved => "ExportRemoved"

/-- The name under which an impact is printed. -/
def Impact.label : Impact → String
  | low => "Low"
  | medium => "Medium"
  | high => "High"

/-- The header of a hunk. -/
def Hunk.header (h : Hunk) : String :=
  s!"@@ -{h.oldStart},{h.oldLines} +{h.newStart},{h.newLines} @@\n"

/-- A hunk as it is printed. -/
def Hunk.report (h : Hunk) : String :=
  h.header ++ String.join (h.lines.map fun l ↦ l.kind.sign ++ l.content ++ "\n")

/-- The section of the semantic changes. -/
def semanticSection (changes : List SemanticChange) : String :=
  if changes.isEmpty then ""
  else "\nSemantic changes:\n" ++ String.join (changes.map fun c ↦
    s!"  {c.kind.label} {c.name} [{c.impact.label}]\n")

/-- The section of the breaking changes. -/
def breakingSection (changes : List BreakingChange) : String :=
  if changes.isEmpty then ""
  else "\nBreaking changes:\n" ++ String.join (changes.map fun c ↦
    s!"  {c.description}\n    → {c.suggestion}\n")

/-- An analysis as it is printed. -/
def Analysis.report (a : Analysis) : String :=
  String.join (a.hunks.map Hunk.report) ++ semanticSection a.semanticChanges
    ++ breakingSection a.breakingChanges ++ s!"\n{a.summary}\n"

end Diff

end ChangeContext
