import ChangeContext.Bundle.Basic
import ChangeContext.Instant.Text
import ChangeContext.Json.Basic
import ChangeContext.Json.Decode

/-!
# Bundles as JSON

Bundles are shown as JSON and kept in snapshots as JSON, so each part has a form that is written and
a reader for that form.  A reader accepts whatever a record in JSON may look like, which is more
than is ever written: members in any order, unknown members, and records given as arrays.
-/

set_option autoImplicit false

namespace ChangeContext

/-- A path is written as its text. -/
def Path.toJson (p : Path) : Json := .text p.text

/-- Read a path. -/
def Path.ofJson? (v : Json) : Option Path := v.asText?.map Path.mk

/-- An instant is written as its text. -/
def Instant.toJson (t : Instant) : Json := .text t.toText

/-- Read an instant. -/
def Instant.ofJson? (v : Json) : Option Instant := v.asText?.bind Instant.read?

/-! ## Style -/

namespace Style

/-- The words for indentation. -/
def indentations : List (String × Indentation) := [("spaces", .spaces), ("tabs", .tabs)]

/-- The words for quotation marks. -/
def quoteKinds : List (String × Quotes) := [("single", .single), ("double", .double)]

/-- The words for the styles of waiting. -/
def asyncStyles : List (String × AsyncStyle) :=
  [("async-await", .asyncAwait), ("promises", .promises)]

/-- The words for the ways to join names. -/
def namings : List (String × Naming) := [("camelCase", .camelCase), ("snakeCase", .snakeCase)]

/-- The word for a choice. -/
def wordFor {α : Type} [BEq α] (words : List (String × α)) (a : α) : String :=
  ((words.find? (·.2 == a)).map (·.1)).getD ""

/-- A style. -/
def toJson (s : Style) : Json :=
  .record [("indentation", .text (wordFor indentations s.indentation)),
    ("indent_size", .nat s.indentSize), ("quotes", .text (wordFor quoteKinds s.quotes)),
    ("semicolons", .bool s.semicolons), ("async_style", .text (wordFor asyncStyles s.asyncStyle)),
    ("naming", .text (wordFor namings s.naming))]

/-- Read a style. -/
def ofJson? (v : Json) : Option Style := do
  match ← v.fields? ["indentation", "indent_size", "quotes", "semicolons", "async_style", "naming"]
    with
  | [indentation, indentSize, quotes, semicolons, asyncStyle, naming] =>
    return {
      indentation := ← Json.required? (Json.asChoice? indentations) indentation
      indentSize := ← Json.required? Json.asNat? indentSize
      quotes := ← Json.required? (Json.asChoice? quoteKinds) quotes
      semicolons := ← Json.required? Json.asBool? semicolons
      asyncStyle := ← Json.required? (Json.asChoice? asyncStyles) asyncStyle
      naming := ← Json.required? (Json.asChoice? namings) naming }
  | _ => none

end Style

/-! ## Files and counts -/

namespace FileRecord

/-- A file record. -/
def toJson (r : FileRecord) : Json :=
  .record [("path", r.path.toJson), ("content", .text r.content), ("language", .text r.language),
    ("size", .nat r.size), ("modified", .ofOption Instant.toJson r.modified),
    ("is_new", .bool r.isNew)]

/-- Read a file record. -/
def ofJson? (v : Json) : Option FileRecord := do
  match ← v.fields? ["path", "content", "language", "size", "modified", "is_new"] with
  | [path, content, language, size, modified, isNew] =>
    return {
      path := ← Json.required? Path.ofJson? path
      content := ← Json.required? Json.asText? content
      language := ← Json.required? Json.asText? language
      size := ← Json.required? Json.asNat? size
      modified := ← Json.absent? Instant.ofJson? modified
      isNew := ← Json.required? Json.asBool? isNew }
  | _ => none

end FileRecord

namespace RankedItem

/-- A counted name. -/
def toJson (i : RankedItem) : Json :=
  .record [("name", .text i.name), ("count", .nat i.count)]

/-- Read a counted name. -/
def ofJson? (v : Json) : Option RankedItem := do
  match ← v.fields? ["name", "count"] with
  | [name, count] =>
    return {
      name := ← Json.required? Json.asText? name
      count := ← Json.required? Json.asNat? count }
  | _ => none

end RankedItem

/-! ## The project -/

namespace ProjectFlags

/-- The flags of a project. -/
def toJson (f : ProjectFlags) : Json :=
  .record [("has_strict_typing", .bool f.hasStrictTyping),
    ("has_lint_config", .bool f.hasLintConfig),
    ("package_manager", .ofOption .text f.packageManager),
    ("frameworks", .ofList .text f.frameworks)]

/-- Read the flags of a project. -/
def ofJson? (v : Json) : Option ProjectFlags := do
  match ← v.fields? ["has_strict_typing", "has_lint_config", "package_manager", "frameworks"] with
  | [strict, lint, manager, frameworks] =>
    return {
      hasStrictTyping := ← Json.required? Json.asBool? strict
      hasLintConfig := ← Json.required? Json.asBool? lint
      packageManager := ← Json.absent? Json.asText? manager
      frameworks := ← Json.required? (Json.asList? Json.asText?) frameworks }
  | _ => none

end ProjectFlags

namespace StructureSummary

/-- The layout of a project. -/
def toJson (s : StructureSummary) : Json :=
  .record [("folders", .ofList Path.toJson s.folders),
    ("file_counts", .record (s.fileCounts.toList.map fun e ↦ (e.1, .nat e.2))),
    ("total_files", .nat s.totalFiles)]

/-- Read the layout of a project. -/
def ofJson? (v : Json) : Option StructureSummary := do
  match ← v.fields? ["folders", "file_counts", "total_files"] with
  | [folders, counts, total] =>
    return {
      folders := ← Json.required? (Json.asList? Path.ofJson?) folders
      fileCounts := NameMap.ofList (← Json.required? (Json.asMembers? Json.asNat?) counts)
      totalFiles := ← Json.required? Json.asNat? total }
  | _ => none

end StructureSummary

/-! ## Bundles -/

namespace Bundle

/-- A bundle. -/
def toJson (b : Bundle) : Json :=
  .record [("intent", .text b.intent),
    ("related_files", .ofList FileRecord.toJson b.relatedFiles),
    ("similar_files", .ofList FileRecord.toJson b.similarFiles),
    ("style", b.style.toJson),
    ("common_imports", .ofList RankedItem.toJson b.commonImports),
    ("common_patterns", .ofList RankedItem.toJson b.commonPatterns),
    ("project", b.project.toJson),
    ("structure", b.layout.toJson),
    ("assembled_at", b.assembledAt.toJson)]

/-- Read a bundle. -/
def ofJson? (v : Json) : Option Bundle := do
  match ← v.fields? ["intent", "related_files", "similar_files", "style", "common_imports",
    "common_patterns", "project", "structure", "assembled_at"] with
  | [intent, related, similar, style, imports, patterns, project, layout, assembledAt] =>
    return {
      intent := ← Json.required? Json.asText? intent
      relatedFiles := ← Json.required? (Json.asList? FileRecord.ofJson?) related
      similarFiles := ← Json.required? (Json.asList? FileRecord.ofJson?) similar
      style := ← Json.required? Style.ofJson? style
      commonImports := ← Json.required? (Json.asList? RankedItem.ofJson?) imports
      commonPatterns := ← Json.required? (Json.asList? RankedItem.ofJson?) patterns
      project := ← Json.required? ProjectFlags.ofJson? project
      layout := ← Json.required? StructureSummary.ofJson? layout
      assembledAt := ← Json.required? Instant.ofJson? assembledAt }
  | _ => none

end Bundle

end ChangeContext
