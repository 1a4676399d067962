import ChangeContext.Outline.Basic
import ChangeContext.Path.Basic

/-!
# What a change means

The outlines of the two versions of a file tell what a change of lines means: which functions,
imports and exports came and went.  Two kinds of change can break other files: an export that is
gone, and a function whose parameters are no longer the same.

Names are reported in ascending order within each kind, and the kinds in a fixed order.
-/

set_option autoImplicit false

namespace ChangeContext

namespace Diff

/-- The kinds of semantic change. -/
inductive SemanticKind where
  | functionAdded
  | functionRemoved
  | importAdded
  | importRemoved
  | exportAdded
  | exportRemoved
deriving DecidableEq, Inhabited

/-- How far a change reaches. -/
inductive Impact where
  | low
  | medium
  | high
deriving DecidableEq, Inhabited

/-- What a change of this kind reaches. -/
def SemanticKind.impact : SemanticKind → Impact
  | functionAdded => .medium
  | functionRemoved => .high
  | importAdded => .low
  | importRemoved => .medium
  | exportAdded => .medium
  | exportRemoved => .high

/-- A name that came or went. -/
structure SemanticChange where
  kind : SemanticKind
  name : String
  impact : Impact
deriving DecidableEq, Inhabited

/-- The kinds of breaking change. -/
inductive BreakingKind where
  | removal
  | signatureChange
deriving DecidableEq, Inhabited

/-- A change that other files may not survive. -/
structure BreakingChange where
  kind : BreakingKind
  description : String
  affectedFiles : List Path
  suggestion : String
deriving DecidableEq, Inhabited

/-- The same kind of change for a list of names. -/
def SemanticChange.each (kind : SemanticKind) (names : List String) : List SemanticChange :=
  names.map fun name ↦ ⟨kind, name, kind.impact⟩

/-- The names of `m` that `n` does not hold, in ascending order. -/
def missingFrom {β γ : Type} (m : NameMap β) (n : NameMap γ) : List String :=
  m.keys.filter fun name ↦ !n.contains name

/-- What came and went between two outlines. -/
def semanticChanges (before after : Outline) : List SemanticChange :=
  SemanticChange.each .functionAdded (missingFrom after.functions before.functions)
    ++ SemanticChange.each .functionRemoved (missingFrom before.functions after.functions)
    ++ SemanticChange.each .importAdded (missingFrom after.imports before.imports)
    ++ SemanticChange.each .importRemoved (missingFrom before.imports after.imports)
    ++ SemanticChange.each .exportAdded (missingFrom after.exports before.exports)
    ++ SemanticChange.each .exportRemoved (missingFrom before.exports after.exports)

/-- An export is gone. -/
def BreakingChange.ofRemoval (files : List Path) (name : String) : BreakingChange where
  kind := .removal
  description := s!"Exported \x60{name}\x60 was removed"
  affectedFiles := files
  suggestion :=
    s!"Update every module importing \x60{name}\x60, or keep a re-export for compatibility"

/-- The parameters of a function are no longer the same. -/
def BreakingChange.ofSignature (files : List Path) (name old new : String) : BreakingChange where
  kind := .signatureChange
  description := s!"Signature of \x60{name}\x60 changed from ({old}) to ({new})"
  affectedFiles := files
  suggestion := s!"Review call sites of \x60{name}\x60; consider default values for new parameters"

/-- The change of parameters of a function that both outlines hold, if there is one. -/
def signatureChange? (after : Outline) (files : List Path) (function : String × String) :
    Option BreakingChange :=
  match after.functions.get? function.1 with
  | none => none
  | some params =>
    if Text.trim function.2.toList = Text.trim params.toList then none
    else some (.ofSignature files function.1 function.2 params)

/-- The changes between two outlines that other files may not survive. -/
def breakingChanges (before after : Outline) (files : List Path) : List BreakingChange :=
  (missingFrom before.exports after.exports).map (BreakingChange.ofRemoval files)
    ++ before.functions.toList.filterMap (signatureChange? after files)

end Diff

end ChangeContext
