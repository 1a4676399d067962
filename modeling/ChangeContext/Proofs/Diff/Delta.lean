import ChangeContext.Proofs.Diff.Signature
import ChangeContext.Proofs.Outline.Walk

/-!
# The delta between two outlines

What an analysis reports of names is a delta: it leads from the names of the old outline to those of
the new one, no name in it comes and goes, and none stands in it twice (`Delta`).  That is so for each
kind of names on its own, so a name may come as a function and go as an export.

The breaking changes are found in a second pass, which agrees with the first: an export is reported to
break other files just if it went, and the parameters of a function are reported to have changed only
if the function neither came nor went (`Analysis.overlays_ofTexts`).  Parameters are compared without
the blanks at their ends, and as outlines file them without these (`Outline.trimmed_ofSource`), all
parameters that are filed differently are reported.
-/

set_option autoImplicit false

namespace ChangeContext

/-! ## Parameters are filed without blanks at their ends -/

namespace Outline

/-- No parameters are filed with blanks at their ends. -/
def Trimmed (o : Outline) : Prop :=
  ∀ name params, o.functions.get? name = some params → Text.trim params.toList = params.toList

theorem trim_stripParens (params : List Char) :
    Text.trim (String.ofList (stripParens params)).toList =
      (String.ofList (stripParens params)).toList := by
  rw [String.toList_ofList]
  exact Text.trimWhile_trimWhile _ _

theorem trimmed_empty : empty.Trimmed := by
  intro name params h
  exact absurd h.symm (Option.some_ne_none params)

theorem Trimmed.congr {o o' : Outline} (h : o.Trimmed) (hfunctions : o'.functions = o.functions) :
    o'.Trimmed := by
  intro name params hget
  rw [hfunctions] at hget
  exact h name params hget

theorem Trimmed.addFunction {o : Outline} (h : o.Trimmed) (name : String) (params : List Char) :
    (o.addFunction name params).Trimmed := by
  intro name' params' hget
  rw [Outline.addFunction, NameMap.get?_insertIfNew] at hget
  split at hget
  next =>
    cases hold : o.functions.get? name with
    | none =>
      rw [hold, Option.getD_none, Option.some_inj] at hget
      exact hget ▸ trim_stripParens params
    | some old =>
      rw [hold, Option.getD_some, Option.some_inj] at hget
      exact hget ▸ h name old hold
  next => exact h name' params' hget

theorem Trimmed.takeIn {o : Outline} (h : o.Trimmed) (t : Script.Tree) : (o.takeIn t).Trimmed := by
  have hfunction : (((functionOf? t).map fun f ↦ o.addFunction f.1 f.2.toList).getD o).Trimmed := by
    cases functionOf? t with
    | none => exact h
    | some f => exact h.addFunction f.1 f.2.toList
  refine hfunction.congr ?_
  rw [Outline.takeIn, foldl_addExport]
  cases importOf? t <;> rfl

theorem Trimmed.walk {o : Outline} (h : o.Trimmed) (ts : List Script.Tree) : (walk ts o).Trimmed := by
  induction ts, o using walk.induct with
  | case1 o => rwa [Outline.walk]
  | case2 t ts o ih =>
    rw [Outline.walk]
    exact ih (h.takeIn t)

theorem trimmed_heuristic (source language : String) : (heuristic source language).Trimmed := by
  intro name params hget
  rw [heuristic, Rules.functions_outline, get?_fileFunctions] at hget
  obtain ⟨written, -, rfl⟩ := Option.map_eq_some_iff.1 hget
  exact trim_stripParens written

/-- **Either way of outlining files parameters without blanks at their ends.** -/
theorem trimmed_ofSource (source language : String) : (ofSource source language).Trimmed := by
  rw [ofSource]
  split
  next =>
    cases hscript : structural? source with
    | none => exact trimmed_heuristic source language
    | some o =>
      obtain ⟨t, -, rfl⟩ := Option.map_eq_some_iff.1 hscript
      exact trimmed_empty.walk [t]
  next => exact trimmed_heuristic source language

end Outline

namespace Diff

/-! ## Deltas -/

/-- The names that came and those that went lead from one list of names to another. -/
structure Delta (before after came went : List String) : Prop where
  /-- Without what went, and with what came, the names before are the names after. -/
  patched : (before.filter (· ∉ went) ++ came).Perm after
  /-- No name stands in the delta twice, and none came and went. -/
  nodup : (came ++ went).Nodup
  /-- Only what was there went. -/
  went_subset : went ⊆ before
  /-- Only what was not there came. -/
  came_disjoint : came.Disjoint before

theorem mem_missingFrom {β γ : Type} {m : NameMap β} {n : NameMap γ} {name : String} :
    name ∈ missingFrom m n ↔ name ∈ m.keys ∧ name ∉ n.keys := by
  rw [missingFrom, List.mem_filter, Bool.not_eq_true', ← Bool.not_eq_true, NameMap.contains_iff]

theorem nodup_missingFrom {β γ : Type} (m : NameMap β) (n : NameMap γ) : (missingFrom m n).Nodup :=
  m.keys_nodup.filter _

/-- **What either map has and the other has not is the delta between them.** -/
theorem delta_missingFrom {β γ : Type} (m : NameMap β) (n : NameMap γ) :
    Delta m.keys n.keys (missingFrom n m) (missingFrom m n) where
  patched := by
    have hnodup : (m.keys.filter (· ∉ missingFrom m n) ++ missingFrom n m).Nodup := by
      refine (m.keys_nodup.filter _).append (nodup_missingFrom n m) fun name hstayed hcame ↦ ?_
      exact (mem_missingFrom.1 hcame).2 (List.mem_filter.1 hstayed).1
    refine (List.perm_ext_iff_of_nodup hnodup n.keys_nodup).2 fun name ↦ ?_
    rw [List.mem_append, List.mem_filter, decide_eq_true_iff, mem_missingFrom, mem_missingFrom]
    tauto
  nodup := by
    refine (nodup_missingFrom n m).append (nodup_missingFrom m n) fun name hcame hwent ↦ ?_
    exact (mem_missingFrom.1 hcame).2 (mem_missingFrom.1 hwent).1
  went_subset name h := (mem_missingFrom.1 h).1
  came_disjoint name hcame := (mem_missingFrom.1 hcame).2

/-! ## What an analysis reports -/

/-- What an analysis reports is what came and went between two outlines of the file. -/
structure Analysis.Overlays (a : Analysis) (before after : Outline) (files : List Path) : Prop where
  functions : Delta before.functions.keys after.functions.keys (a.names .functionAdded)
    (a.names .functionRemoved)
  imports : Delta before.imports.keys after.imports.keys (a.names .importAdded)
    (a.names .importRemoved)
  exports : Delta before.exports.keys after.exports.keys (a.names .exportAdded)
    (a.names .exportRemoved)
  /-- The exports that break other files are those that went, in the same order. -/
  removals : a.breakingChanges.filter (·.kind = .removal) =
    (a.names .exportRemoved).map (BreakingChange.ofRemoval files)
  /-- Changes of parameters are those of functions that both outlines have, with other parameters. -/
  mem_signatures_iff : ∀ c, c ∈ a.signatureChanges ↔ ∃ name old new,
    before.functions.get? name = some old ∧ after.functions.get? name = some new ∧ old ≠ new ∧
      c = .ofSignature files name old new
  nodup_signatures : a.signatureChanges.Nodup
  /-- A function whose parameters have changed neither came nor went. -/
  stayed : ∀ c ∈ a.signatureChanges, ∀ name, c.concerns name = true →
    name ∉ a.names .functionAdded ∧ name ∉ a.names .functionRemoved

variable {before after : Outline} {files : List Path}

/-- The names that a kind of change is about. -/
def SemanticKind.namesBetween (before after : Outline) : SemanticKind → List String
  | functionAdded => missingFrom after.functions before.functions
  | functionRemoved => missingFrom before.functions after.functions
  | importAdded => missingFrom after.imports before.imports
  | importRemoved => missingFrom before.imports after.imports
  | exportAdded => missingFrom after.exports before.exports
  | exportRemoved => missingFrom before.exports after.exports

theorem names_semanticChanges (before after : Outline) (kind : SemanticKind) :
    ((semanticChanges before after).filter (·.kind = kind)).map (·.name) =
      kind.namesBetween before after := by
  simp only [semanticChanges, List.filter_append, List.map_append, names_each]
  cases kind <;> simp [SemanticKind.namesBetween]

theorem filter_removal_breakingChanges (before after : Outline) (files : List Path) :
    (breakingChanges before after files).filter (·.kind = .removal) =
      (missingFrom before.exports after.exports).map (BreakingChange.ofRemoval files) := by
  have hsignatures :
      (before.functions.toList.filterMap (signatureChange? after files)).filter (·.kind = .removal) =
        [] := by
    refine List.filter_eq_nil_iff.2 fun c hc ↦ ?_
    obtain ⟨e, -, he⟩ := List.mem_filterMap.1 hc
    simp [(concerns_of_signatureChange? he).1]
  rw [breakingChanges, List.filter_append, hsignatures, List.append_nil, List.filter_eq_self]
  exact List.forall_mem_map.2 fun name _ ↦ rfl

/-- No change of parameters is reported twice, as each is of another function. -/
theorem nodup_signatureChanges (before after : Outline) (files : List Path) :
    (before.functions.toList.filterMap (signatureChange? after files)).Nodup := by
  have hkeys : before.functions.toList.Pairwise fun e e' ↦ e.1 ≠ e'.1 :=
    List.pairwise_map.1 before.functions.keys_nodup
  refine List.pairwise_filterMap.2 (hkeys.imp fun {e e'} hne c hc c' hc' heq ↦ ?_)
  subst heq
  exact hne (((concerns_of_signatureChange? hc).2 e'.1).1
    (((concerns_of_signatureChange? hc').2 e'.1).2 rfl))

theorem mem_signatureChanges_iff (hbefore : before.Trimmed) (hafter : after.Trimmed)
    {c : BreakingChange} :
    c ∈ before.functions.toList.filterMap (signatureChange? after files) ↔ ∃ name old new,
      before.functions.get? name = some old ∧ after.functions.get? name = some new ∧ old ≠ new ∧
        c = .ofSignature files name old new := by
  have hdiffer {name old new : String} (hold : before.functions.get? name = some old)
      (hnew : after.functions.get? name = some new) :
      Text.trim old.toList ≠ Text.trim new.toList ↔ old ≠ new := by
    rw [hbefore name old hold, hafter name new hnew, Ne, String.toList_inj]
  rw [List.mem_filterMap]
  constructor
  · rintro ⟨⟨name, old⟩, hentry, hchange⟩
    obtain ⟨new, hnew, hne, rfl⟩ := signatureChange?_eq_some_iff.1 hchange
    have hold := NameMap.get?_eq_some_iff.2 hentry
    exact ⟨name, old, new, hold, hnew, (hdiffer hold hnew).1 hne, rfl⟩
  · rintro ⟨name, old, new, hold, hnew, hne, rfl⟩
    exact ⟨(name, old), NameMap.get?_eq_some_iff.1 hold,
      signatureChange?_eq_some_iff.2 ⟨new, hnew, (hdiffer hold hnew).2 hne, rfl⟩⟩

/-- A function whose parameters have changed is in both outlines. -/
theorem mem_keys_of_concerns {c : BreakingChange} {name : String}
    (hc : c ∈ before.functions.toList.filterMap (signatureChange? after files))
    (hname : c.concerns name = true) :
    name ∈ before.functions.keys ∧ name ∈ after.functions.keys := by
  obtain ⟨⟨name', old⟩, hentry, hchange⟩ := List.mem_filterMap.1 hc
  obtain rfl := ((concerns_of_signatureChange? hchange).2 name).1 hname
  obtain ⟨new, hnew, -⟩ := signatureChange?_eq_some_iff.1 hchange
  exact ⟨NameMap.mem_keys_iff.2 ⟨old, NameMap.get?_eq_some_iff.2 hentry⟩,
    NameMap.mem_keys_iff.2 ⟨new, hnew⟩⟩

/-- **An analysis reports the delta between the outlines of both versions.** -/
theorem Analysis.overlays_ofTexts (old new : String) (path : Option Path) :
    let outline source := Outline.ofSource source ((path.map Language.ofPath).getD Language.unknown)
    (ofTexts old new path).Overlays (outline old) (outline new) path.toList := by
  intro outline
  have hnames (kind : SemanticKind) :
      (ofTexts old new path).names kind = kind.namesBetween (outline old) (outline new) :=
    names_semanticChanges _ _ kind
  have hsignatures : (ofTexts old new path).signatureChanges =
      (outline old).functions.toList.filterMap (signatureChange? (outline new) path.toList) :=
    filter_kind_breakingChanges _ _ _
  exact {
    functions := by rw [hnames, hnames]; exact delta_missingFrom _ _
    imports := by rw [hnames, hnames]; exact delta_missingFrom _ _
    exports := by rw [hnames, hnames]; exact delta_missingFrom _ _
    removals := by rw [hnames]; exact filter_removal_breakingChanges _ _ _
    mem_signatures_iff := fun c ↦ by
      rw [hsignatures]
      exact mem_signatureChanges_iff (Outline.trimmed_ofSource old _)
        (Outline.trimmed_ofSource new _)
    nodup_signatures := by rw [hsignatures]; exact nodup_signatureChanges _ _ _
    stayed := fun c hc name hname ↦ by
      rw [hsignatures] at hc
      obtain ⟨hbefore, hafter⟩ := mem_keys_of_concerns hc hname
      rw [hnames, hnames]
      exact ⟨fun hcame ↦ (mem_missingFrom.1 hcame).2 hbefore,
        fun hwent ↦ (mem_missingFrom.1 hwent).2 hafter⟩ }

end Diff

end ChangeContext
