import ChangeContext.Bundle.Codec
import ChangeContext.Proofs.Json.Shape

/-!
# What a bundle looks like in JSON

Every part of a bundle is a record, and its fields are listed here with what they may hold.  Only the
time of the last change of a file and the package manager of a project may be absent.
-/

set_option autoImplicit false

namespace ChangeContext

open Json (IsText IsBool IsWord IsOneOf IsList IsTable IsRecord Field Recognizes isSome_field_iff)

theorem Path.recognizes : Recognizes ofJson? IsText :=
  Json.recognizes_text.map Path.mk

/-- The text of an instant. -/
def IsInstant (v : Json) : Prop :=
  ∃ s, v = .text s ∧ (Instant.read? s).isSome = true

theorem Instant.recognizes : Recognizes ofJson? IsInstant := by
  intro v
  rw [ofJson?]
  cases v with
  | string s => cases s <;> simp [Json.asText?, IsInstant, Json.text]
  | _ => simp [Json.asText?, IsInstant, Json.text]

namespace Style

/-- The fields of a style. -/
def fields : List Field :=
  [.required "indentation" (IsOneOf ["spaces", "tabs"]),
    .required "indent_size" IsWord,
    .required "quotes" (IsOneOf ["single", "double"]),
    .required "semicolons" IsBool,
    .required "async_style" (IsOneOf ["async-await", "promises"]),
    .required "naming" (IsOneOf ["camelCase", "snakeCase"])]

theorem recognizes : Recognizes ofJson? (IsRecord fields) := by
  refine Json.recognizes_record fields fun values hlength ↦ ?_
  match values, hlength with
  | [_, _, _, _, _, _], _ =>
    refine isSome_field_iff ((Json.recognizes_choice indentations).required _ _) fun _ ↦ ?_
    refine isSome_field_iff (Json.recognizes_nat.required _ _) fun _ ↦ ?_
    refine isSome_field_iff ((Json.recognizes_choice quoteKinds).required _ _) fun _ ↦ ?_
    refine isSome_field_iff (Json.recognizes_bool.required _ _) fun _ ↦ ?_
    refine isSome_field_iff ((Json.recognizes_choice asyncStyles).required _ _) fun _ ↦ ?_
    refine isSome_field_iff ((Json.recognizes_choice namings).required _ _) fun _ ↦ ?_
    simp

end Style

/-! ## Files and counts -/

namespace FileRecord

/-- The fields of a file record. -/
def fields : List Field :=
  [.required "path" IsText,
    .required "content" IsText,
    .required "language" IsText,
    .required "size" IsWord,
    .optional "modified" IsInstant,
    .required "is_new" IsBool]

theorem recognizes : Recognizes ofJson? (IsRecord fields) := by
  refine Json.recognizes_record fields fun values hlength ↦ ?_
  match values, hlength with
  | [_, _, _, _, _, _], _ =>
    refine isSome_field_iff (Path.recognizes.required _ _) fun _ ↦ ?_
    refine isSome_field_iff (Json.recognizes_text.required _ _) fun _ ↦ ?_
    refine isSome_field_iff (Json.recognizes_text.required _ _) fun _ ↦ ?_
    refine isSome_field_iff (Json.recognizes_nat.required _ _) fun _ ↦ ?_
    refine isSome_field_iff (Instant.recognizes.absent _ _) fun _ ↦ ?_
    refine isSome_field_iff (Json.recognizes_bool.required _ _) fun _ ↦ ?_
    simp

end FileRecord

namespace RankedItem

/-- The fields of a counted name. -/
def fields : List Field :=
  [.required "name" IsText,
    .required "count" IsWord]

theorem recognizes : Recognizes ofJson? (IsRecord fields) := by
  refine Json.recognizes_record fields fun values hlength ↦ ?_
  match values, hlength with
  | [_, _], _ =>
    refine isSome_field_iff (Json.recognizes_text.required _ _) fun _ ↦ ?_
    refine isSome_field_iff (Json.recognizes_nat.required _ _) fun _ ↦ ?_
    simp

end RankedItem

/-! ## The project -/

namespace ProjectFlags

/-- The fields of the flags of a project. -/
def fields : List Field :=
  [.required "has_strict_typing" IsBool,
    .required "has_lint_config" IsBool,
    .optional "package_manager" IsText,
    .required "frameworks" (IsList IsText)]

theorem recognizes : Recognizes ofJson? (IsRecord fields) := by
  refine Json.recognizes_record fields fun values hlength ↦ ?_
  match values, hlength with
  | [_, _, _, _], _ =>
    refine isSome_field_iff (Json.recognizes_bool.required _ _) fun _ ↦ ?_
    refine isSome_field_iff (Json.recognizes_bool.required _ _) fun _ ↦ ?_
    refine isSome_field_iff (Json.recognizes_text.absent _ _) fun _ ↦ ?_
    refine isSome_field_iff (Json.recognizes_text.list.required _ _) fun _ ↦ ?_
    simp

end ProjectFlags

namespace StructureSummary

/-- The fields of the layout of a project. -/
def fields : List Field :=
  [.required "folders" (IsList IsText),
    .required "file_counts" (IsTable IsWord),
    .required "total_files" IsWord]

theorem recognizes : Recognizes ofJson? (IsRecord fields) := by
  refine Json.recognizes_record fields fun values hlength ↦ ?_
  match values, hlength with
  | [_, _, _], _ =>
    refine isSome_field_iff (Path.recognizes.list.required _ _) fun _ ↦ ?_
    refine isSome_field_iff (Json.recognizes_nat.members.required _ _) fun _ ↦ ?_
    refine isSome_field_iff (Json.recognizes_nat.required _ _) fun _ ↦ ?_
    simp

end StructureSummary

/-! ## Bundles -/

namespace Bundle

/-- The fields of a bundle. -/
def fields : List Field :=
  [.required "intent" IsText,
    .required "related_files" (IsList (IsRecord FileRecord.fields)),
    .required "similar_files" (IsList (IsRecord FileRecord.fields)),
    .required "style" (IsRecord Style.fields),
    .required "common_imports" (IsList (IsRecord RankedItem.fields)),
    .required "common_patterns" (IsList (IsRecord RankedItem.fields)),
    .required "project" (IsRecord ProjectFlags.fields),
    .required "structure" (IsRecord StructureSummary.fields),
    .required "assembled_at" IsInstant]

theorem recognizes : Recognizes ofJson? (IsRecord fields) := by
  refine Json.recognizes_record fields fun values hlength ↦ ?_
  match values, hlength with
  | [_, _, _, _, _, _, _, _, _], _ =>
    refine isSome_field_iff (Json.recognizes_text.required _ _) fun _ ↦ ?_
    refine isSome_field_iff (FileRecord.recognizes.list.required _ _) fun _ ↦ ?_
    refine isSome_field_iff (FileRecord.recognizes.list.required _ _) fun _ ↦ ?_
    refine isSome_field_iff (Style.recognizes.required _ _) fun _ ↦ ?_
    refine isSome_field_iff (RankedItem.recognizes.list.required _ _) fun _ ↦ ?_
    refine isSome_field_iff (RankedItem.recognizes.list.required _ _) fun _ ↦ ?_
    refine isSome_field_iff (ProjectFlags.recognizes.required _ _) fun _ ↦ ?_
    refine isSome_field_iff (StructureSummary.recognizes.required _ _) fun _ ↦ ?_
    refine isSome_field_iff (Instant.recognizes.required _ _) fun _ ↦ ?_
    simp

end Bundle

end ChangeContext
