import ChangeContext.Proofs.Path.Normalize
import Mathlib.Logic.Relation

/-!
# Spellings of a path

There are parts of a path that say nothing: a slash behind another one, a `.` behind a slash, and
the slash at the end.  Leaving out one of them shortens the path (`Shortens`), and the components
stay what they are.  When nothing can be left out any more, the path is its components with slashes
between them (`reflTransGen_shortens`, `not_shortens_ofComponents`).  So two paths are the same just
if one spelling becomes the other by leaving out and putting in what says nothing
(`same_iff_eqvGen_shortens`).
-/

set_option autoImplicit false

namespace ChangeContext

namespace Path

/-- The second text is the first without something that says nothing. -/
inductive Shortens : List Char → List Char → Prop
  | slash (cs ds : List Char) : Shortens (cs ++ '/' :: '/' :: ds) (cs ++ '/' :: ds)
  | here (cs ds : List Char) : Shortens (cs ++ '/' :: '.' :: '/' :: ds) (cs ++ '/' :: ds)
  | lastHere (cs : List Char) : Shortens (cs ++ ['/', '.']) (cs ++ ['/'])
  | lastSlash {cs : List Char} (hne : cs ≠ []) : Shortens (cs ++ ['/']) cs

/-! ## What is left out says nothing -/

theorem stepOf?_eq_none_iff {piece : List Char} :
    stepOf? piece = none ↔ piece = [] ∨ piece = ['.'] := by
  rw [stepOf?]
  by_cases hpiece : piece = [] ∨ piece = ['.']
  · simp [hpiece]
  · have hsays : ¬ (decide (piece = []) || decide (piece = ['.'])) = true := by simpa using hpiece
    rw [if_neg hsays]
    split <;> simp [hpiece]

theorem toList_text_of_stepOf? {piece : List Char} {c : Component} (h : stepOf? piece = some c) :
    c.text.toList = piece := by
  rw [stepOf?] at h
  split at h
  next => simp at h
  next =>
    split at h
    next hup =>
      obtain rfl := Option.some_inj.1 h
      exact hup.symm
    next =>
      obtain rfl := Option.some_inj.1 h
      exact String.toList_ofList

/-- Leaving out what says nothing leaves the components as they are. -/
theorem same_of_shortens {p q : Path} (h : Shortens p.text.toList q.text.toList) : p.Same q := by
  generalize hp : p.text.toList = cs at h
  generalize hq : q.text.toList = ds at h
  cases h with
  | slash cs ds =>
    rw [Same, components_of_append hp, components_of_append hq]
    rfl
  | here cs ds =>
    rw [Same, components_of_append hp, components_of_append hq]
    rfl
  | lastHere cs =>
    rw [Same, components_of_append hp, components_of_append hq]
    rfl
  | lastSlash hne =>
    have hqne : q.text ≠ "" := fun hempty ↦ hne (by rw [← hq, hempty, String.toList_empty])
    rw [Same, components_of_append hp, components_eq_componentsBefore hqne, hq]
    exact List.append_nil _

theorem Shortens.length_lt {cs ds : List Char} (h : Shortens cs ds) : ds.length < cs.length := by
  cases h <;> simp

/-! ## Leaving out all that says nothing -/

section Shortening

variable {dir : Path} {pieces : List (List Char)}

open Relation (ReflTransGen EqvGen)

theorem Component.Moves.text_ne_empty {c : Component} (h : c.Moves) : c.text ≠ "" := by
  cases h with
  | up => decide
  | name h => exact h.1

theorem Component.Moves.slash_notMem {c : Component} (h : c.Moves) : '/' ∉ c.text.toList := by
  cases h with
  | up => decide
  | name h => exact h.2.2.2

/-- What the paths of the entries of a directory begin with ends with a slash. -/
theorem exists_lead_eq (hne : dir.text ≠ "") : ∃ cs, dir.lead = cs ++ ['/'] := by
  rw [lead]
  split
  next hlead => exact List.getLast?_eq_some_iff.1 (hlead.resolve_left hne)
  next => exact ⟨_, rfl⟩

/-- A slash at the end of a directory can be left out. -/
theorem reflTransGen_lead (hne : dir.text ≠ "") :
    ReflTransGen Shortens dir.lead dir.text.toList := by
  rw [lead]
  split
  next => exact .refl
  next => exact .single (.lastSlash (by simpa using hne))

/-- **Behind a directory, pieces between slashes can be shortened to the steps that they stand
for.** -/
theorem reflTransGen_pieces (hne : dir.text ≠ "") (hpieces : pieces ≠ [])
    (hslash : ∀ piece ∈ pieces, '/' ∉ piece) :
    ReflTransGen Shortens (dir.lead ++ ['/'].intercalate pieces)
      ((pieces.filterMap stepOf?).foldl (fun p c ↦ p.child c.text) dir).text.toList := by
  induction pieces generalizing dir with
  | nil => exact absurd rfl hpieces
  | cons piece rest ih =>
    obtain ⟨hpiece, hrest⟩ := List.forall_mem_cons.1 hslash
    obtain ⟨cs, hcs⟩ := exists_lead_eq hne
    cases hstep : stepOf? piece with
    | none =>
      rw [List.filterMap_cons_none hstep]
      cases rest with
      | nil =>
        rw [List.intercalate_singleton]
        rcases stepOf?_eq_none_iff.1 hstep with rfl | rfl
        · rw [List.append_nil]
          exact reflTransGen_lead hne
        · have hshort : Shortens (dir.lead ++ ['.']) dir.lead := by
            rw [hcs, List.append_assoc]
            exact .lastHere cs
          exact .head hshort (reflTransGen_lead hne)
      | cons next rest =>
        refine .head ?_ (ih hne (List.cons_ne_nil _ _) hrest)
        rw [List.intercalate_cons_cons, hcs]
        simp only [List.append_assoc, List.singleton_append]
        rcases stepOf?_eq_none_iff.1 hstep with rfl | rfl
        · exact .slash cs _
        · exact .here cs _
    | some c =>
      have hmoves : c.Moves := moves_of_stepOf? hpiece hstep
      have htext : c.text.toList = piece := toList_text_of_stepOf? hstep
      rw [List.filterMap_cons_some hstep, List.foldl_cons]
      cases rest with
      | nil =>
        rw [List.intercalate_singleton, List.filterMap_nil, List.foldl_nil,
          toList_child hmoves.slash_notMem, htext]
      | cons next rest =>
        have hchild : (dir.child c.text).text ≠ "" :=
          text_child_ne_empty hmoves.text_ne_empty hmoves.slash_notMem
        have hshort := ih hchild (List.cons_ne_nil _ _) hrest
        rwa [lead_child hmoves.text_ne_empty hmoves.slash_notMem, htext, List.append_assoc,
          List.append_assoc] at hshort

/-- What stands before the first slash is written as the step that it stands for. -/
theorem exists_firstStep? {first : List Char} (hslash : '/' ∉ first) :
    ∃ c, firstStep? first true = some c ∧ (ofComponents [c]).text ≠ "" ∧
      (ofComponents [c]).lead = first ++ ['/'] ∧
      (first ≠ [] → firstStep? first false = some c ∧ (ofComponents [c]).text.toList = first) := by
  cases hstep : stepOf? first with
  | none =>
    rcases stepOf?_eq_none_iff.1 hstep with rfl | rfl
    · exact ⟨.root, rfl, by decide, by decide, fun hne ↦ absurd rfl hne⟩
    · exact ⟨.here, rfl, by decide, by decide, fun _ ↦ ⟨rfl, by decide⟩⟩
  | some c =>
    have hmoves : c.Moves := moves_of_stepOf? hslash hstep
    have htext : c.text.toList = first := toList_text_of_stepOf? hstep
    have hlead : ((Path.mk "").child c.text).lead = first ++ ['/'] := by
      rw [lead_child hmoves.text_ne_empty hmoves.slash_notMem, htext]
      rfl
    have hwritten : ((Path.mk "").child c.text).text.toList = first := by
      rw [toList_child hmoves.slash_notMem, htext]
      rfl
    exact ⟨c, firstStep?_of_stepOf? hstep,
      text_child_ne_empty hmoves.text_ne_empty hmoves.slash_notMem, hlead,
      fun _ ↦ ⟨firstStep?_of_stepOf? hstep, hwritten⟩⟩

/-- **A path can be shortened to its components with slashes between them.** -/
theorem reflTransGen_shortens (p : Path) :
    ReflTransGen Shortens p.text.toList (ofComponents p.components).text.toList := by
  have hpieces : ∀ piece ∈ p.text.toList.splitOn '/', '/' ∉ piece := fun piece hpiece ↦
    Text.notMem_of_mem_splitOn hpiece
  have htext : ['/'].intercalate (p.text.toList.splitOn '/') = p.text.toList :=
    List.intercalate_splitOn '/'
  rw [components]
  cases hsplit : p.text.toList.splitOn '/' with
  | nil => exact absurd hsplit (List.splitOn_ne_nil _ _)
  | cons first rest =>
    rw [hsplit] at htext hpieces
    obtain ⟨hfirst, hrest⟩ := List.forall_mem_cons.1 hpieces
    obtain ⟨c, hc, hne, hlead, hone⟩ := exists_firstStep? hfirst
    rw [← htext]
    cases rest with
    | nil =>
      rw [List.intercalate_singleton]
      by_cases hempty : first = []
      · rw [hempty]
        exact .refl
      · obtain ⟨hstep, hwritten⟩ := hone hempty
        simp only [List.isEmpty_nil, Bool.not_true, hstep]
        show ReflTransGen Shortens first (ofComponents [c]).text.toList
        rw [hwritten]
    | cons next rest =>
      have hshort := reflTransGen_pieces hne (List.cons_ne_nil next rest) hrest
      rw [hlead, List.append_assoc] at hshort
      simp only [List.isEmpty_cons, Bool.not_false, hc]
      exact hshort

/-- Nothing more can be left out where components are written with slashes between them. -/
theorem not_shortens_ofComponents {steps : List Component} {cs : List Char}
    (h : (ofComponents steps).components = steps) :
    ¬ Shortens (ofComponents steps).text.toList cs := by
  intro hshortens
  have hle {ds es : List Char} (hshort : ReflTransGen Shortens ds es) : es.length ≤ ds.length := by
    induction hshort with
    | refl => exact Nat.le_refl _
    | tail _ hlast ih => exact hlast.length_lt.le.trans ih
  have hsame : (ofComponents steps).Same ⟨String.ofList cs⟩ :=
    same_of_shortens (by simpa using hshortens)
  -- what is shorter could be shortened to what it was made from
  have hback := reflTransGen_shortens ⟨String.ofList cs⟩
  rw [← hsame, h, String.toList_ofList] at hback
  exact absurd (hle hback) hshortens.length_lt.not_ge

theorem same_of_eqvGen_shortens {cs ds : List Char} (h : EqvGen Shortens cs ds) :
    (Path.mk (String.ofList cs)).Same ⟨String.ofList ds⟩ := by
  induction h with
  | rel cs ds h => exact same_of_shortens (by simpa using h)
  | refl cs => rfl
  | symm cs ds _ ih => exact Eq.symm ih
  | trans cs ds es _ _ ih ih' => exact Eq.trans ih ih'

/-- **Two paths are the same just if their spellings differ in what says nothing.** -/
theorem same_iff_eqvGen_shortens {p q : Path} :
    p.Same q ↔ EqvGen Shortens p.text.toList q.text.toList := by
  constructor
  · intro h
    have hp := EqvGen.reflTransGen_le_eqvGen Shortens _ _ (reflTransGen_shortens p)
    have hq := EqvGen.reflTransGen_le_eqvGen Shortens _ _ (reflTransGen_shortens q)
    rw [h] at hp
    exact .trans _ _ _ hp (.symm _ _ hq)
  · intro h
    simpa using same_of_eqvGen_shortens h

end Shortening

end Path

end ChangeContext
