import ChangeContext.Proofs.Diff.Mirror
import ChangeContext.Proofs.Outline.Signature

/-!
# Changes of parameters

An analysis reports a function once if its parameters have changed, and says which function it is
(`filter_concerns`).  In a TypeScript file the parameters are read by pattern, so a change is one of
what the patterns see of them: what stands before the first parenthesis that closes, without the
blanks around it.  Parameters that differ only behind it count as the same.
-/

set_option autoImplicit false

namespace ChangeContext

namespace Diff

open Outline (filedParams functionText)
open Outline.Rules (IsName DeclaresNothing script)

/-- The changes of parameters that an analysis reports. -/
def Analysis.signatureChanges (a : Analysis) : List BreakingChange :=
  a.breakingChanges.filter (·.kind = .signatureChange)

/-- The change is one of the parameters of this function. -/
def BreakingChange.concerns (c : BreakingChange) (name : String) : Bool :=
  c.suggestion = (BreakingChange.ofSignature [] name "" "").suggestion

section Reports

variable {before after : Outline} {files : List Path} {name : String} {e : String × String}
  {c : BreakingChange}

/-- A report concerns the function that it is made of. -/
theorem concerns_of_signatureChange? (h : signatureChange? after files e = some c) :
    c.kind = .signatureChange ∧ ∀ name, c.concerns name = true ↔ e.1 = name := by
  obtain ⟨new, -, -, rfl⟩ := signatureChange?_eq_some_iff.1 h
  refine ⟨rfl, fun name ↦ ?_⟩
  rw [BreakingChange.concerns, decide_eq_true_iff]
  exact ⟨eq_of_suggestion_eq, fun hname ↦ hname ▸ rfl⟩

/-- The changes of parameters are looked for function by function. -/
theorem filter_kind_breakingChanges (before after : Outline) (files : List Path) :
    (breakingChanges before after files).filter (·.kind = .signatureChange) =
      before.functions.toList.filterMap (signatureChange? after files) := by
  have hremovals : ((missingFrom before.exports after.exports).map
      (BreakingChange.ofRemoval files)).filter (·.kind = .signatureChange) = [] := by
    simp [List.filter_eq_nil_iff, BreakingChange.ofRemoval]
  rw [breakingChanges, List.filter_append, hremovals, List.nil_append, List.filter_eq_self]
  intro c hc
  obtain ⟨e, -, he⟩ := List.mem_filterMap.1 hc
  simpa using (concerns_of_signatureChange? he).1

/-- **A change of the parameters of a function is reported once, or not at all.** -/
theorem filter_concerns (before after : Outline) (files : List Path) (name : String) :
    (before.functions.toList.filterMap (signatureChange? after files)).filter (·.concerns name) =
      ((before.functions.get? name).bind fun old ↦
        signatureChange? after files (name, old)).toList := by
  have hpick (e : String × String) :
      (signatureChange? after files e).filter (·.concerns name) =
        if e.1 == name then signatureChange? after files e else none := by
    cases he : signatureChange? after files e with
    | none => simp
    | some c =>
      have hc := (concerns_of_signatureChange? he).2 name
      by_cases hname : e.1 = name
      · simp [hname, hc.2 hname]
      · simp [hname, mt hc.1 hname]
  rw [List.filter_filterMap, funext hpick, ← List.filterMap_filter, NameMap.filter_key]
  cases before.functions.get? name with
  | none => rfl
  | some old =>
    rw [Option.map_some, Option.toList_some, Option.bind_some]
    cases hchange : signatureChange? after files (name, old) <;> simp [hchange]

end Reports

section TypeScript

variable {path : Path} {f old new : String}

theorem ofSource_of_typescript (hpath : Language.ofPath path = "typescript") (source : String) :
    Outline.ofSource source (((some path).map Language.ofPath).getD Language.unknown) =
      script.outline source := by
  rw [Option.map_some, Option.getD_some, hpath]
  rfl

/-- The parameters of the function itself are compared as they are filed. -/
theorem signatureChange?_functionText (hf : IsName f.toList) (files : List Path) (old new : String) :
    signatureChange? (script.outline (functionText f new)) files (f, filedParams old) =
      if filedParams old = filedParams new then none
      else some (.ofSignature files f (filedParams old) (filedParams new)) := by
  have htrim (params : String) : Text.trim (filedParams params).toList = (filedParams params).toList := by
    rw [filedParams, String.toList_ofList]
    exact Text.trimWhile_trimWhile _ _
  simp only [signatureChange?, Outline.get?_functions_functionText hf, htrim, String.toList_inj]

/-- **A change of the parameters of a TypeScript function is reported just if the patterns see it.**
There is one report of the function itself, with both texts as they are filed, if its name is one for
the patterns and these texts differ, and none otherwise.  No other function is reported, unless the old
and the new parameters both look like the declaration of one. -/
theorem signatureChanges_functionText (hpath : Language.ofPath path = "typescript")
    (f old new : String) :
    let a := Analysis.ofTexts (functionText f old) (functionText f new) (some path)
    a.signatureChanges.filter (·.concerns f) =
        (if IsName f.toList ∧ filedParams old ≠ filedParams new then
          [.ofSignature [path] f (filedParams old) (filedParams new)] else []) ∧
      (IsName f.toList → DeclaresNothing old.toList ∨ DeclaresNothing new.toList →
        ∀ c ∈ a.signatureChanges, c.concerns f = true) := by
  intro a
  have hchanges : a.signatureChanges = (script.outline (functionText f old)).functions.toList.filterMap
      (signatureChange? (script.outline (functionText f new)) [path]) := by
    rw [← filter_kind_breakingChanges, ← ofSource_of_typescript hpath, ← ofSource_of_typescript hpath]
    rfl
  rw [hchanges]
  constructor
  · rw [filter_concerns]
    by_cases hf : IsName f.toList
    · rw [Outline.get?_functions_functionText hf, Option.bind_some, signatureChange?_functionText hf]
      by_cases heq : filedParams old = filedParams new <;> simp [hf, heq]
    · have hnone : (script.outline (functionText f old)).functions.get? f = none :=
        Option.eq_none_iff_forall_ne_some.2 fun _ h ↦ hf (Outline.isName_of_get?_functions h)
      rw [hnone, Option.bind_none, if_neg fun h ↦ hf h.1]
      rfl
  · intro hf hnothing c hc
    obtain ⟨⟨name, params⟩, hentry, hchange⟩ := List.mem_filterMap.1 hc
    refine ((concerns_of_signatureChange? hchange).2 f).2 ?_
    obtain ⟨params', hafter, -⟩ := signatureChange?_eq_some_iff.1 hchange
    have hbefore := NameMap.get?_eq_some_iff.2 hentry
    -- the name is filed for both texts, so one that declares nothing is enough
    rcases hnothing with hold | hnew
    · exact Outline.eq_of_get?_functions hf hold hbefore
    · exact Outline.eq_of_get?_functions hf hnew hafter

/-- One parameter without parentheses changes its type. -/
theorem signatureChanges_functionText_type :
    Language.ofPath ⟨"m.ts"⟩ = "typescript" ∧
      (Analysis.ofTexts (functionText "f" "a: number") (functionText "f" "a: string")
        (some ⟨"m.ts"⟩)).signatureChanges = [.ofSignature [⟨"m.ts"⟩] "f" "a: number" "a: string"] := by
  have hpath : Language.ofPath ⟨"m.ts"⟩ = "typescript" := by decide +kernel
  obtain ⟨hown, hothers⟩ := signatureChanges_functionText hpath "f" "a: number" "a: string"
  have hletters : ∀ keyword ∈ ["const", "let", "var"],
      ∃ c ∈ keyword.toList, c ∉ "a: number".toList := by
    decide +kernel
  have hnothing : DeclaresNothing "a: number".toList := by
    refine ⟨fun h ↦ ?_, ?_⟩
    · exact absurd (h.subset (by decide : 'f' ∈ "function".toList)) (by decide +kernel)
    · rintro _ ⟨keyword, hkeyword, blank, -, rfl⟩ h
      obtain ⟨c, hc, hnone⟩ := hletters keyword hkeyword
      exact hnone (h.subset (List.mem_append_left _ hc))
  refine ⟨hpath, ?_⟩
  rw [← List.filter_eq_self.2 (hothers (by decide +kernel) (.inl hnothing)), hown]
  decide +kernel

/-- Behind the parameters of a callback a change is not seen. -/
theorem signatureChanges_eq_nil_of_callback :
    Text.trim "cb: (a: number) => void".toList ≠ Text.trim "cb: (a: number) => string".toList ∧
      (Analysis.ofTexts (functionText "f" "cb: (a: number) => void")
        (functionText "f" "cb: (a: number) => string") (some ⟨"m.ts"⟩)).signatureChanges = [] := by
  decide +kernel

end TypeScript

end Diff

end ChangeContext
