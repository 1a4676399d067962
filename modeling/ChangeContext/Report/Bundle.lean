import ChangeContext.Bundle.Basic

/-!
# Bundles for reading

A bundle is printed with a section for each of its parts.  The files come first, those that are to
be created with a note; a section about something that was not found is left out.
-/

set_option autoImplicit false

namespace ChangeContext

/-- The name under which an indentation is printed. -/
def Indentation.label : Indentation → String
  | spaces => "Spaces"
  | tabs => "Tabs"

/-- The name under which a kind of quotation marks is printed. -/
def Quotes.label : Quotes → String
  | single => "Single"
  | double => "Double"

/-- The name under which a style of waiting is printed. -/
def AsyncStyle.label : AsyncStyle → String
  | asyncAwait => "AsyncAwait"
  | promises => "Promises"

/-- The name under which a way to join names is printed. -/
def Naming.label : Naming → String
  | camelCase => "CamelCase"
  | snakeCase => "SnakeCase"

namespace Style

/-- A style in one line. -/
def line (s : Style) : String :=
  s!"Style: {s.indentation.label} ({s.indentSize}), {s.quotes.label} quotes, semicolons: " ++
    s!"{s.semicolons}, {s.asyncStyle.label}, {s.naming.label}\n"

end Style

namespace Bundle

/-- A related file in one line. -/
def relatedLine (f : FileRecord) : String :=
  s!"  {f.path.text} [{f.language}]" ++ (if f.isNew then " (new)" else "") ++ "\n"

/-- The section of the similar files. -/
def similarSection (files : List FileRecord) : String :=
  if files.isEmpty then ""
  else "\nSimilar files:\n" ++ String.join (files.map fun f ↦ s!"  {f.path.text}\n")

/-- Counted names in one line under a title. -/
def rankingLine (title : String) (items : List RankedItem) : String :=
  if items.isEmpty then ""
  else
    let texts := items.map fun i ↦ s!"{i.name} ({i.count})"
    s!"{title}: " ++ ", ".intercalate texts ++ "\n"

/-- The flags of a project in one line. -/
def projectLine (f : ProjectFlags) : String :=
  let manager := f.packageManager.getD "unknown"
  let frameworks := if f.frameworks.isEmpty then "none" else ", ".intercalate f.frameworks
  s!"Project: strict typing: {f.hasStrictTyping}, lint config: {f.hasLintConfig}, " ++
    s!"package manager: {manager}, frameworks: {frameworks}\n"

/-- The layout of a project in one line. -/
def layoutLine (s : StructureSummary) : String :=
  s!"Structure: {s.totalFiles} files in {s.folders.length} folders\n"

/-- A bundle as it is printed. -/
def report (b : Bundle) : String :=
  s!"Intent: {b.intent}\n" ++ "\nRelated files:\n"
    ++ String.join (b.relatedFiles.map relatedLine) ++ similarSection b.similarFiles
    ++ "\n" ++ b.style.line ++ rankingLine "Common imports" b.commonImports
    ++ rankingLine "Common patterns" b.commonPatterns ++ projectLine b.project
    ++ layoutLine b.layout

end Bundle

end ChangeContext
