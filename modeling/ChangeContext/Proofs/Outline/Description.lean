import ChangeContext.Proofs.NameMap
import ChangeContext.Proofs.Outline.ExportLists

/-!
# Outlines from reports

An outline is put together from what was found one after the other.  What counts is the order of the
functions, of which the first is filed under each name, and which modules and names there are.  So the
outline of a script is known from what each of the patterns for scripts reports.
-/

set_option autoImplicit false

namespace ChangeContext

namespace Outline

open Rules

/-- Functions with the text of their parameters, filed in their order. -/
def fileFunctions (fs : List (String × List Char)) (m : NameMap String) : NameMap String :=
  (fs.map fun f ↦ (f.1, String.ofList (stripParens f.2))).foldl (fun m e ↦ m.insertIfNew e.1 e.2) m

/-- The outline with these functions, imports and exports, reported in these orders. -/
def described (functions : List (String × List Char)) (imports exports : List String) : Outline where
  functions := fileFunctions functions ∅
  imports := NameSet.ofNames imports
  exports := NameSet.ofNames exports

theorem foldl_addFunction (fs : List (String × List Char)) (o : Outline) :
    fs.foldl (fun o f ↦ o.addFunction f.1 f.2) o =
      { o with functions := fileFunctions fs o.functions } := by
  induction fs generalizing o with
  | nil => rfl
  | cons f fs ih => exact ih _

theorem foldl_addImport (names : List String) (o : Outline) :
    names.foldl addImport o = { o with imports := names.foldl NameSet.add o.imports } := by
  induction names generalizing o with
  | nil => rfl
  | cons name names ih => exact ih _

theorem foldl_addExport (names : List String) (o : Outline) :
    names.foldl addExport o = { o with exports := names.foldl NameSet.add o.exports } := by
  induction names generalizing o with
  | nil => rfl
  | cons name names ih => exact ih _

theorem lookup_map_snd {β γ : Type} (l : List (String × β)) (g : β → γ) (name : String) :
    (l.map fun e ↦ (e.1, g e.2)).lookup name = (l.lookup name).map g := by
  induction l with
  | nil => rfl
  | cons e l ih =>
    rw [List.map_cons, List.lookup_cons, List.lookup_cons, ih]
    cases name == e.1 <;> rfl

/-- What is filed under a name is the first function of that name. -/
theorem get?_fileFunctions (fs : List (String × List Char)) (name : String) :
    (fileFunctions fs ∅).get? name =
      (fs.lookup name).map fun params ↦ String.ofList (stripParens params) := by
  rw [fileFunctions, NameMap.get?_foldl_insertIfNew, NameMap.get?_empty, Option.none_or]
  exact lookup_map_snd fs (fun params ↦ String.ofList (stripParens params)) name

theorem addExport_described (fs : List (String × List Char)) (is es : List String) (name : String) :
    (described fs is es).addExport name = described fs is (es ++ [name]) := by
  simp [described, NameSet.ofNames, addExport, List.foldl_append]

/-- **The outline of a script is what the patterns report.** -/
theorem outline_script (source : String) :
    script.outline source =
      described (functionsBy source.toList functionDeclaration ++
          functionsBy source.toList functionVariable)
        (importsBy source.toList importStatement ++ importsBy source.toList requireCall)
        ((exportsBy source.toList exportDeclaration).filterMap (·.2) ++
            (exportList.findAll source.toList).flatMap listedOf ++
          if hasAnonymousDefault source.toList
              ((exportsBy source.toList exportDeclaration).map (·.1)) defaultExportWords
          then ["default"] else []) := by
  rw [Rules.outline]
  simp only [script, List.flatMap_cons, List.flatMap_nil, List.append_nil, Option.toList_some,
    Option.any_some, foldl_addFunction, foldl_addImport, foldl_addExport]
  split
  · exact addExport_described ..
  · rw [List.append_nil]
    rfl

end Outline

end ChangeContext
