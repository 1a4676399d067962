import ChangeContext.Outline.Tier
import ChangeContext.Proofs.Outline.Description
import ChangeContext.Proofs.Outline.ExportDeclarations
import ChangeContext.Proofs.Outline.FunctionDeclarations
import ChangeContext.Proofs.Outline.FunctionVariables
import ChangeContext.Proofs.Outline.ImportPatterns
import ChangeContext.Proofs.Outline.Readings

/-!
# Where the tiers agree

A source of common statements can be outlined by its tree and by patterns, and either way the outline
is known from the statements (`structural?_source`, `heuristic_source`).  The imports are always the
same.  The functions and exports are not, and it is known exactly when.

* The tree has the declarations in the order of the text, the patterns have all function declarations
  before all variables.  Of several declarations of a name the first counts, so the two part where a
  variable stands before a function of the same name with other parameters (`FunctionsLead`).
* In an export list the patterns drop the word `type` in front of an item, also where it is the name of
  what is exported, so `type as x` is exported as `as x` (`NothingNamedType`).
-/

set_option autoImplicit false

namespace ChangeContext

namespace Outline

open Rules

/-! ## Outlines of sources -/

/-- A further statement reports behind the others. -/
theorem contribute_described (s : Statement) (fs : List (String × List Char)) (is es : List String) :
    s.contribute (described fs is es) =
      described (fs ++ s.declared?.toList) (is ++ s.modules) (es ++ s.exports) := by
  rw [Statement.contribute, foldl_addExport, foldl_addImport]
  cases s.declared? <;>
    simp [described, fileFunctions, NameSet.ofNames, List.foldl_append, addFunction]

theorem foldl_contribute (ss : List Statement) (fs : List (String × List Char))
    (is es : List String) :
    ss.foldl (fun o s ↦ s.contribute o) (described fs is es) =
      described (fs ++ ss.filterMap Statement.declared?) (is ++ ss.flatMap Statement.modules)
        (es ++ ss.flatMap Statement.exports) := by
  induction ss generalizing fs is es with
  | nil => simp
  | cons s ss ih =>
    rw [List.foldl_cons, contribute_described, ih]
    simp [List.filterMap_eq_flatMap_toList]

/-- **What the tree of a source describes.** -/
theorem structural?_source_eq_described (ss : List Statement) :
    structural? (source ss) = some (described (ss.filterMap Statement.declared?)
      (ss.flatMap Statement.modules) (ss.flatMap Statement.exports)) := by
  have hempty : empty = described [] [] [] := rfl
  rw [structural?_source, hempty, foldl_contribute]
  simp

/-- **What the patterns describe.** -/
theorem heuristic_source (ss : List Statement) :
    heuristic (source ss) "javascript" =
      described (ss.filterMap Statement.function? ++ ss.filterMap Statement.held?)
        (ss.flatMap imported ++ ss.flatMap required)
        (ss.filterMap Statement.exported? ++ ss.flatMap found) := by
  have htext : (source ss).toList = sourceChars ss := String.toList_ofList
  have hrules : ofLanguage "javascript" = script := rfl
  have hdefault (named : List Nat) :
      hasAnonymousDefault (sourceChars ss) named defaultExportWords = false := by
    rw [hasAnonymousDefault, findAll_defaultExportWords]
    rfl
  rw [heuristic, hrules, outline_script, htext, functionsBy_functionDeclaration,
    functionsBy_functionVariable, importsBy_importStatement, importsBy_requireCall,
    exportsBy_exportDeclaration, flatMap_exportList, hdefault, if_neg Bool.false_ne_true,
    List.append_nil]

/-! ## Where the reports agree -/

/-- What was declared first of all as a function under some name was declared first under it. -/
def FunctionsLead (ss : List Statement) : Prop :=
  ∀ name params, (ss.filterMap Statement.function?).lookup name = some params →
    (ss.filterMap Statement.declared?).lookup name = some params

/-- Nothing called `type` is exported under a new name. -/
def NothingNamedType (ss : List Statement) : Prop :=
  ∀ x y z, Statement.exportList x y z ∈ ss → x.text ≠ "type"

/-- Parameters of common statements are reported as they are. -/
theorem Statement.stripParens_of_declared? {s : Statement} {f : String × List Char}
    (h : s.declared? = some f) : stripParens f.2 = f.2 := by
  cases s with
  | function exported g xs returns =>
    obtain rfl := Option.some_inj.1 h
    exact stripParens_listChars xs
  | arrow exported g xs e =>
    obtain rfl := Option.some_inj.1 h
    exact xs.stripParens_inner
  | _ => simp [declared?, function?, held?] at h

/-- Where nothing was declared as a function, a variable is what was declared first. -/
theorem lookup_declared_of_none {ss : List Statement} {name : String}
    (h : (ss.filterMap Statement.function?).lookup name = none) :
    (ss.filterMap Statement.declared?).lookup name =
      (ss.filterMap Statement.held?).lookup name := by
  induction ss with
  | nil => rfl
  | cons s ss ih =>
    cases hs : s.function? with
    | some f =>
      have hdeclared : s.declared? = some f := by rw [Statement.declared?, hs]; rfl
      have hheld : s.held? = none := by
        cases s <;> first | rfl | simp [Statement.function?] at hs
      rw [List.filterMap_cons_some hs, List.lookup_cons] at h
      rw [List.filterMap_cons_some hdeclared, List.filterMap_cons_none hheld, List.lookup_cons]
      cases hname : name == f.1 with
      | true => simp [hname] at h
      | false => exact ih (by simpa [hname] using h)
    | none =>
      have hdeclared : s.declared? = s.held? := by rw [Statement.declared?, hs]; rfl
      rw [List.filterMap_cons_none hs] at h
      cases hheld : s.held? with
      | none => rw [List.filterMap_cons_none (hdeclared.trans hheld), List.filterMap_cons_none hheld, ih h]
      | some f =>
        rw [List.filterMap_cons_some (hdeclared.trans hheld), List.filterMap_cons_some hheld,
          List.lookup_cons, List.lookup_cons, ih h]

/-- Functions with plain parameters are filed alike if the same ones come first. -/
theorem fileFunctions_eq_iff {fs fs' : List (String × List Char)}
    (hfs : ∀ f ∈ fs ++ fs', stripParens f.2 = f.2) :
    fileFunctions fs ∅ = fileFunctions fs' ∅ ↔ ∀ name, fs.lookup name = fs'.lookup name := by
  have hplain {l : List (String × List Char)} (hl : l ⊆ fs ++ fs') (name : String) :
      (fileFunctions l ∅).get? name = (l.lookup name).map String.ofList := by
    rw [get?_fileFunctions]
    refine Option.map_congr fun params hparams ↦ ?_
    obtain ⟨before, after, rfl, -⟩ := List.lookup_eq_some_iff.1 hparams
    rw [hfs (name, params) (hl (by simp))]
  constructor
  · intro h name
    have hname := congrArg (·.get? name) h
    simp only [hplain (List.subset_append_left _ _), hplain (List.subset_append_right _ _)] at hname
    exact Option.map_injective (fun _ _ h ↦ String.ofList_injective h) hname
  · intro h
    refine NameMap.ext_get? fun name ↦ ?_
    rw [hplain (List.subset_append_left _ _), hplain (List.subset_append_right _ _), h]

theorem fileFunctions_declared_iff (ss : List Statement) :
    fileFunctions (ss.filterMap Statement.declared?) ∅ =
      fileFunctions (ss.filterMap Statement.function? ++ ss.filterMap Statement.held?) ∅ ↔
        FunctionsLead ss := by
  have hplain : ∀ f ∈ ss.filterMap Statement.declared? ++
      (ss.filterMap Statement.function? ++ ss.filterMap Statement.held?), stripParens f.2 = f.2 := by
    have hdeclared {s : Statement} {f : String × List Char}
        (h : s.function? = some f ∨ s.held? = some f) : s.declared? = some f := by
      cases s <;> simp_all [Statement.declared?, Statement.function?, Statement.held?]
    intro f hf
    simp only [List.mem_append, List.mem_filterMap] at hf
    rcases hf with ⟨s, -, hs⟩ | ⟨s, -, hs⟩ | ⟨s, -, hs⟩
    · exact Statement.stripParens_of_declared? hs
    · exact Statement.stripParens_of_declared? (hdeclared (.inl hs))
    · exact Statement.stripParens_of_declared? (hdeclared (.inr hs))
  rw [fileFunctions_eq_iff hplain]
  constructor
  · intro h name params hparams
    rw [h, List.lookup_append, hparams, Option.some_or]
  · intro h name
    rw [List.lookup_append]
    cases hname : (ss.filterMap Statement.function?).lookup name with
    | none => rw [Option.none_or, lookup_declared_of_none hname]
    | some params => rw [Option.some_or, h name params hname]

/-- The imports are those of either pattern. -/
theorem ofNames_modules_eq (ss : List Statement) :
    NameSet.ofNames (ss.flatMap Statement.modules) =
      NameSet.ofNames (ss.flatMap imported ++ ss.flatMap required) := by
  have hmodules (s : Statement) : s.modules = imported s ++ required s := by
    cases s <;> rfl
  refine NameSet.ofNames_eq_iff.2 fun name ↦ ?_
  simp only [List.mem_append, List.mem_flatMap, hmodules]
  grind

/-- What a statement exports has the name of an identifier. -/
theorem Statement.exists_identifier_of_mem_exports {s : Statement} {name : String}
    (h : name ∈ s.exports) : ∃ x : Identifier, name = x.text := by
  cases s with
  | function exported f xs returns => cases exported <;> simp_all [exports, exported?, listed]
  | arrow exported f xs e => cases exported <;> simp_all [exports, exported?, listed]
  | exportList x y z =>
    have hname : name = y.text ∨ name = z.text := by simpa [exports, exported?, listed] using h
    rcases hname with rfl | rfl
    · exact ⟨y, rfl⟩
    · exact ⟨z, rfl⟩
  | _ => simp_all [exports, exported?, listed]

/-- No identifier is what the patterns make of a name that was exported as another. -/
theorem Identifier.text_ne_as (x y : Identifier) : "as " ++ y.text ≠ x.text := by
  intro h
  have hchars : "as ".toList ++ y.chars = x.chars := by
    rw [← x.toList_text, ← h, String.toList_append, y.toList_text]
  have hblank : isIdentifierChar ' ' = true :=
    List.all_eq_true.1 x.all ' ' (hchars ▸ List.mem_append_left _ (by decide))
  exact absurd hblank (by decide)

/-- Apart from what is called `type`, an export list has the same names for the patterns. -/
theorem found_eq_listed {s : Statement}
    (h : ∀ x y z, s = .exportList x y z → x.text ≠ "type") : found s = s.listed := by
  cases s with
  | exportList x y z => rw [found, foundName, if_neg (h x y z rfl), Statement.listed]
  | _ => rfl

theorem ofNames_exports_iff (ss : List Statement) :
    NameSet.ofNames (ss.flatMap Statement.exports) =
      NameSet.ofNames (ss.filterMap Statement.exported? ++ ss.flatMap found) ↔
        NothingNamedType ss := by
  rw [NameSet.ofNames_eq_iff]
  constructor
  · intro h x y z hmem htype
    have hfound : "as " ++ y.text ∈ ss.flatMap found :=
      List.mem_flatMap.2 ⟨_, hmem, by simp [found, foundName, htype]⟩
    obtain ⟨s, -, hs⟩ := List.mem_flatMap.1 ((h _).2 (List.mem_append_right _ hfound))
    obtain ⟨w, hw⟩ := Statement.exists_identifier_of_mem_exports hs
    exact w.text_ne_as y hw
  · intro h name
    have hfound : ss.flatMap found = ss.flatMap Statement.listed :=
      List.flatMap_congr fun s hs ↦ found_eq_listed fun x y z heq ↦ h x y z (heq ▸ hs)
    rw [hfound]
    simp only [List.mem_append, List.mem_flatMap, List.mem_filterMap, Statement.exports,
      Option.mem_toList]
    grind

/-- **Both tiers outline every source of common statements, and it is known where they agree.**  The
imports are the same.  The functions are the same if and only if function declarations lead, and the
exports are the same if and only if nothing called `type` is exported under a new name. -/
theorem structural?_source_agrees (ss : List Statement) :
    ∃ o, structural? (source ss) = some o ∧
      o.imports = (heuristic (source ss) "javascript").imports ∧
      (o.functions = (heuristic (source ss) "javascript").functions ↔ FunctionsLead ss) ∧
      (o.exports = (heuristic (source ss) "javascript").exports ↔ NothingNamedType ss) := by
  rw [heuristic_source]
  exact ⟨_, structural?_source_eq_described ss, ofNames_modules_eq ss, fileFunctions_declared_iff ss,
    ofNames_exports_iff ss⟩

/-- An export list of something called `type`. -/
def renamedType : Statement :=
  .exportList { chars := "type".toList } { chars := "B".toList } { chars := "C".toList }

/-- What is called `type` is exported under different names by the two tiers. -/
theorem exports_renamedType :
    source [renamedType] = "export \x7b type as B, C \x7d;\n" ∧
    (structural? "export \x7b type as B, C \x7d;\n").map (·.exports.keys) = some ["B", "C"] ∧
    (heuristic "export \x7b type as B, C \x7d;\n" "javascript").exports.keys = ["C", "as B"] := by
  have hsource : source [renamedType] = "export \x7b type as B, C \x7d;\n" := by decide
  refine ⟨hsource, ?_, ?_⟩
  · rw [← hsource, structural?_source_eq_described]
    decide
  · rw [← hsource, heuristic_source]
    decide

end Outline

end ChangeContext
