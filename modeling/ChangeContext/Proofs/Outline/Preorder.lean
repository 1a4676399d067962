import ChangeContext.Proofs.Outline.Contribution
import ChangeContext.Proofs.Outline.Description
import ChangeContext.Proofs.Script.Preorder

/-!
# The walk takes the nodes in the order of the text

What waits to be walked over is a stack: its top is taken off, and the children are put on, the last
of them first.  So the stack is always what is left of the text, and what is taken off it are the
nodes in the order of the text, each of them once (`pops_iff`).

An outline is then known from this list of nodes.  Its functions are the first ones of their names,
by the places of the nodes, and its imports and exports are those of all nodes (`collects_ofTree`).
-/

set_option autoImplicit false

namespace ChangeContext

namespace Outline

open Script

/-! ## The stack -/

/-- A stack, its top last, is emptied when these nodes are taken off it one after the other and the
children of each are put on, the last of them first. -/
inductive Pops : List Tree → List Tree → Prop
  | done : Pops [] []
  | turn {below visited : List Tree} {t : Tree} (h : Pops (below ++ t.children.reverse) visited) :
      Pops (below ++ [t]) (t :: visited)

variable {stack visited : List Tree}

/-- Only the nodes of the trees on the stack are taken off, in the order of the text. -/
theorem Pops.eq_flatMap_nodes (h : Pops stack visited) :
    visited = stack.reverse.flatMap Tree.nodes := by
  induction h with
  | done => rfl
  | turn _ ih =>
    rw [ih, List.reverse_append, List.reverse_reverse, List.flatMap_append, List.reverse_concat,
      List.flatMap_cons, Tree.nodes_eq, List.cons_append]

/-- The walk comes to an end. -/
theorem pops_flatMap_nodes (ts : List Tree) : Pops ts.reverse (ts.flatMap Tree.nodes) := by
  induction ts, empty using walk.induct with
  | case1 o => exact .done
  | case2 t waiting o ih =>
    rw [List.reverse_append] at ih
    rw [List.reverse_cons, List.flatMap_cons, Tree.nodes_eq, List.cons_append,
      ← List.flatMap_append]
    exact .turn ih

/-- **A stack gives the nodes of its trees in the order of the text.** -/
theorem pops_iff : Pops stack visited ↔ visited = stack.reverse.flatMap Tree.nodes := by
  constructor
  · exact Pops.eq_flatMap_nodes
  · rintro rfl
    simpa using pops_flatMap_nodes stack.reverse

/-- **The walk takes in what the stack gives.** -/
theorem walk_eq_foldl (ts : List Tree) (o : Outline) :
    walk ts o = (ts.flatMap Tree.nodes).foldl takeIn o := by
  induction ts, o using walk.induct with
  | case1 o => rw [walk, List.flatMap_nil, List.foldl_nil]
  | case2 t waiting o ih =>
    rw [walk, ih, List.flatMap_append, List.flatMap_cons, Tree.nodes_eq t, List.cons_append,
      List.foldl_cons]

theorem ofTree_eq_foldl (t : Tree) : ofTree t = t.nodes.foldl takeIn empty := by
  rw [ofTree, walk_eq_foldl, List.flatMap_singleton]

/-! ## The outline of a list of nodes -/

/-- The function of a node, as it is filed. -/
def fileable? (n : Tree) : Option (String × List Char) :=
  (functionOf? n).map fun f ↦ (f.1, f.2.toList)

theorem takeIn_described (fs : List (String × List Char)) (is es : List String) (n : Tree) :
    (described fs is es).takeIn n =
      described (fs ++ (fileable? n).toList) (is ++ (importOf? n).toList) (es ++ exportsOf n) := by
  rw [takeIn, foldl_addExport, fileable?]
  cases functionOf? n <;> cases importOf? n <;>
    simp [described, fileFunctions, NameSet.ofNames, List.foldl_append, addFunction, addImport]

theorem foldl_takeIn (ns : List Tree) (fs : List (String × List Char)) (is es : List String) :
    ns.foldl takeIn (described fs is es) =
      described (fs ++ ns.filterMap fileable?) (is ++ ns.filterMap importOf?)
        (es ++ ns.flatMap exportsOf) := by
  induction ns generalizing fs is es with
  | nil => simp
  | cons n ns ih =>
    rw [List.foldl_cons, takeIn_described, ih]
    simp [List.filterMap_eq_flatMap_toList]

/-- **The outline of a tree is what its nodes contribute.** -/
theorem ofTree_eq_described (t : Tree) :
    ofTree t = described (t.nodes.filterMap fileable?) (t.nodes.filterMap importOf?)
      (t.nodes.flatMap exportsOf) := by
  have hempty : empty = described [] [] [] := rfl
  rw [ofTree_eq_foldl, hempty, foldl_takeIn]
  simp

/-! ## What comes first -/

section Lookup

variable {β : Type} {pick : Tree → Option (String × β)} {name : String}

/-- Where nothing of the name is picked, it is looked up in what comes behind. -/
theorem lookup_filterMap_cons {n : Tree} (h : ∀ v, pick n ≠ some (name, v)) (ns : List Tree) :
    ((n :: ns).filterMap pick).lookup name = (ns.filterMap pick).lookup name := by
  cases hpick : pick n with
  | none => rw [List.filterMap_cons_none hpick]
  | some f =>
    have hne : (name == f.1) = false := beq_eq_false_iff_ne.2 fun hname ↦ h f.2 (hname ▸ hpick)
    rw [List.filterMap_cons_some hpick, List.lookup_cons, hne]

/-- Of what is picked at places in ascending order, the first of its name is found. -/
theorem lookup_filterMap_eq_some_iff {met : List (List Nat × Tree)}
    (hmet : (met.map (·.1)).Pairwise (· < ·)) (v : β) :
    ((met.map (·.2)).filterMap pick).lookup name = some v ↔
      ∃ place n, (place, n) ∈ met ∧ pick n = some (name, v) ∧
        ∀ earlier n', (earlier, n') ∈ met → earlier < place → ∀ v', pick n' ≠ some (name, v') := by
  induction met with
  | nil => simp
  | cons e met ih =>
    obtain ⟨hfirst, hmet⟩ := List.pairwise_cons.1 hmet
    have hbehind {place n} (hmem : (place, n) ∈ met) : e.1 < place :=
      hfirst place (List.mem_map_of_mem hmem)
    rw [List.map_cons]
    by_cases hskip : ∀ v', pick e.2 ≠ some (name, v')
    · rw [lookup_filterMap_cons hskip, ih hmet]
      constructor
      · rintro ⟨place, n, hmem, hn, hnone⟩
        refine ⟨place, n, List.mem_cons_of_mem _ hmem, hn, fun earlier n' hmem' hlt ↦ ?_⟩
        rcases List.mem_cons.1 hmem' with rfl | hmem'
        · exact hskip
        · exact hnone earlier n' hmem' hlt
      · rintro ⟨place, n, hmem, hn, hnone⟩
        rcases List.mem_cons.1 hmem with rfl | hmem
        · exact absurd hn (hskip v)
        · exact ⟨place, n, hmem, hn, fun earlier n' hmem' ↦
            hnone earlier n' (List.mem_cons_of_mem _ hmem')⟩
    · simp only [not_forall, not_not] at hskip
      obtain ⟨v', hpick⟩ := hskip
      rw [List.filterMap_cons_some hpick, List.lookup_cons_self]
      constructor
      · intro h
        obtain rfl := Option.some_inj.1 h
        refine ⟨e.1, e.2, List.mem_cons_self, hpick, fun earlier n' hmem hlt ↦ ?_⟩
        -- no place comes before the first one
        rcases List.mem_cons.1 hmem with rfl | hmem
        · exact absurd hlt (List.lt_irrefl _)
        · exact absurd hlt (List.lt_asymm (hbehind hmem))
      · rintro ⟨place, n, hmem, hn, hnone⟩
        rcases List.mem_cons.1 hmem with rfl | hmem
        · exact congrArg (Option.map Prod.snd) (hpick.symm.trans hn)
        · exact absurd hpick (hnone e.1 e.2 List.mem_cons_self (hbehind hmem) v')

end Lookup

theorem fileable?_eq_some_iff {n : Tree} {name : String} {cs : List Char} :
    fileable? n = some (name, cs) ↔ ∃ written, IsFunction n name written ∧ written.toList = cs := by
  simp [fileable?, Option.map_eq_some_iff, functionOf?_eq_some_iff]

/-! ## The outline of a tree -/

/-- The outline holds what the nodes of the tree contribute: of the functions of a name the first,
with bare parameters, and all imports and exports. -/
structure Collects (t : Tree) (o : Outline) : Prop where
  functions : ∀ name params, o.functions.get? name = some params ↔
    ∃ place n written, t.at? place = some n ∧ IsFunction n name written ∧ Bare written params ∧
      ∀ earlier n', earlier < place → t.at? earlier = some n' →
        ∀ written', ¬ IsFunction n' name written'
  imports : ∀ module, module ∈ o.imports.keys ↔ ∃ place n, t.at? place = some n ∧ Imports n module
  exports : ∀ name, name ∈ o.exports.keys ↔ ∃ place n, t.at? place = some n ∧ Exports n name

/-- The outline of a tree holds what its nodes contribute. -/
theorem collects_ofTree (t : Tree) : Collects t (ofTree t) := by
  rw [ofTree_eq_described]
  constructor
  case functions =>
    intro name params
    simp only [described, get?_fileFunctions, Option.map_eq_some_iff, Tree.nodes,
      lookup_filterMap_eq_some_iff t.pairwise_preorder, Tree.mem_preorder_iff]
    constructor
    · rintro ⟨cs, ⟨place, n, hat, hn, hnone⟩, rfl⟩
      obtain ⟨written, hfunction, rfl⟩ := fileable?_eq_some_iff.1 hn
      refine ⟨place, n, written, hat, hfunction, bare_iff.2 rfl, ?_⟩
      intro earlier n' hlt hat' written' hfunction'
      exact hnone earlier n' hat' hlt _ (fileable?_eq_some_iff.2 ⟨written', hfunction', rfl⟩)
    · rintro ⟨place, n, written, hat, hfunction, hbare, hnone⟩
      refine ⟨written.toList, ⟨place, n, hat, fileable?_eq_some_iff.2 ⟨written, hfunction, rfl⟩, ?_⟩,
        bare_iff.1 hbare⟩
      intro earlier n' hat' hlt cs hn'
      obtain ⟨written', hfunction', -⟩ := fileable?_eq_some_iff.1 hn'
      exact hnone earlier n' hlt hat' written' hfunction'
  case imports =>
    intro module
    simp only [described, NameSet.mem_keys_ofNames, List.mem_filterMap, importOf?_eq_some_iff,
      Tree.exists_mem_nodes_iff]
  case exports =>
    intro name
    simp only [described, NameSet.mem_keys_ofNames, List.mem_flatMap, mem_exportsOf_iff,
      Tree.exists_mem_nodes_iff]

/-- **The walk takes the nodes of a tree in the order of the text.**  Taken off the stack are the
nodes, each once and at its place, and the outline is what they contribute in this order. -/
theorem ofTree_in_preorder (t : Tree) :
    Enumerates t.preorder (fun place n ↦ t.at? place = some n) ∧
      (∀ visited, Pops [t] visited ↔ visited = t.preorder.map (·.2)) ∧
      ofTree t = (t.preorder.map (·.2)).foldl takeIn empty ∧
      Collects t (ofTree t) := by
  refine ⟨t.enumerates_preorder, fun visited ↦ ?_, ofTree_eq_foldl t, collects_ofTree t⟩
  rw [pops_iff, List.reverse_singleton, List.flatMap_singleton, Tree.nodes]

end Outline

end ChangeContext
