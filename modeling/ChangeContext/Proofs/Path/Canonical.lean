import ChangeContext.Proofs.Path.Place
import ChangeContext.Proofs.Path.Spelling

/-!
# Canonical form

All spellings of a path have one normal form, and a path in normal form stays as it is.  What the
normal form looks like is known from what normalising settles on: the root if the path is absolute,
one step up if the path climbs an odd number of levels, and names (`isCanonical_normalize`).

Normalising keeps the steps on a stack and writes them out at the end.  It could as well write them
out as it goes, and go to the parent of what it has written for a step up (`foldl_go`).  A parent is
missing for the empty path and for the root only, so the step up is written out there, and a step up
that was written out has a parent and is taken off by the next one (`Settled.go_ofComponents`).
-/

set_option autoImplicit false

namespace ChangeContext

namespace Path

variable {steps moves : List Component}

/-! ## Writing out as one goes -/

/-- Go on from a path by a step: up to its parent, or down to what is joined to it.  A step up is
joined, too, if there is no parent. -/
def go (p : Path) : Component → Path
  | .here => p
  | .up => p.parent?.getD (p.child "..")
  | c => p.child c.text

theorem ofComponents_concat (cs : List Component) (c : Component) :
    ofComponents (cs ++ [c]) = (ofComponents cs).child c.text :=
  List.foldl_concat ..

/-- In normal form there is nothing before the root. -/
theorem Settled.eq_nil_of_root {below : List Component} (h : Settled (.root :: below)) :
    below = [] := by
  obtain ⟨names, ups, start, heq, -, hups, hstart⟩ := h
  induction names using List.reverseRecOn with
  | nil => rcases hups with rfl | rfl <;> rcases hstart with rfl | rfl <;> simp_all
  | append_singleton names name => simp at heq

/-- **Going on from steps in normal form is adding to them.** -/
theorem Settled.go_ofComponents {c : Component} (h : Settled steps) (hc : c.Moves) :
    (ofComponents steps.reverse).go c = ofComponents (Path.settle steps c).reverse := by
  cases hc with
  | name => simp [go, Path.settle, ofComponents_concat]
  | up =>
    rw [go, parent?, h.components_ofComponents, List.getLast?_reverse]
    cases steps with
    | nil => rfl
    | cons top below =>
      cases top with
      | root =>
        obtain rfl := h.eq_nil_of_root
        rfl
      | here | up | name => simp [Path.settle]

theorem Settled.foldl_go (h : Settled steps) (hmoves : ∀ c ∈ moves, c.Moves) :
    moves.foldl go (ofComponents steps.reverse) =
      ofComponents (moves.foldl Path.settle steps).reverse := by
  induction moves generalizing steps with
  | nil => rfl
  | cons c moves ih =>
    obtain ⟨hc, hmoves⟩ := List.forall_mem_cons.1 hmoves
    rw [List.foldl_cons, h.go_ofComponents hc, ih (h.settle hc) hmoves, List.foldl_cons]

/-- **The normal form is where one comes by going on from the empty path, step by step.** -/
theorem foldl_go (p : Path) : p.components.foldl go ⟨""⟩ = p.normalize := by
  obtain ⟨start, moves, heq, hstart, hmoves⟩ := components_eq_append p
  rw [normalize, settledComponents, heq, List.foldl_append, List.foldl_append]
  rcases hstart with rfl | rfl | rfl
  · exact settled_nil.foldl_go hmoves
  · exact settled_root.foldl_go hmoves
  · exact settled_nil.foldl_go hmoves

/-! ## What the normal form looks like -/

/-- The path says nothing that could be left out, it has no `.`, and it has one `..` at most, which
is the first component or stands directly behind the root. -/
structure IsCanonical (p : Path) : Prop where
  not_shortens : ∀ cs, ¬ Shortens p.text.toList cs
  here_notMem : .here ∉ p.components
  count_up_le : p.components.count .up ≤ 1
  eq_zero_or_one_of_up : ∀ i, p.components[i]? = some .up →
    i = 0 ∨ i = 1 ∧ p.components[0]? = some .root

/-- Where names follow one step up at most, the step up stands directly behind the start. -/
theorem eq_length_origin_of_up {p : Path} {ups i : Nat} {names : List String} (hups : ups ≤ 1)
    (h : (p.origin ++ (List.replicate ups .up ++ names.map .name))[i]? = some .up) :
    i = p.origin.length := by
  have horigin : .up ∉ p.origin := by
    rw [origin]
    split <;> simp
  rcases Nat.lt_or_ge i p.origin.length with hlt | hge
  · rw [List.getElem?_append_left hlt] at h
    exact absurd (List.mem_of_getElem? h) horigin
  · rw [List.getElem?_append_right hge] at h
    rcases Nat.lt_or_ge (i - p.origin.length) ups with hlt | hge'
    · omega
    · rw [List.getElem?_append_right (by simpa using hge')] at h
      exact absurd (List.mem_of_getElem? h) (by simp)

/-- Normal forms are in canonical form. -/
theorem isCanonical_normalize (p : Path) : p.normalize.IsCanonical := by
  have heq : p.normalize.components =
      p.origin ++ (List.replicate (p.climbs % 2) .up ++ p.course.names.map .name) := by
    rw [components_normalize, settledComponents_eq]
    rfl
  constructor
  case not_shortens =>
    exact fun cs ↦ not_shortens_ofComponents (components_normalize p)
  case here_notMem =>
    rw [heq, origin]
    split <;> simp
  case count_up_le =>
    have hnames : (p.course.names.map Component.name).count .up = 0 :=
      List.count_eq_zero.2 (by simp)
    have horigin : p.origin.count .up = 0 := by
      rw [origin]
      split <;> rfl
    rw [heq, List.count_append, List.count_append, List.count_replicate_self, horigin, hnames]
    omega
  case eq_zero_or_one_of_up =>
    intro i hi
    rw [heq] at hi ⊢
    obtain rfl := eq_length_origin_of_up (by omega) hi
    rw [origin]
    split
    · exact .inr ⟨rfl, rfl⟩
    · exact .inl rfl

/-- Normalising keeps whether a path is absolute. -/
theorem isAbsolute_normalize (p : Path) : p.normalize.isAbsolute = p.isAbsolute := by
  rw [Bool.eq_iff_iff, ← root_mem_components_iff, components_normalize, settledComponents_eq,
    List.mem_append, or_iff_left (Course.root_notMem_steps _), origin]
  split <;> simp_all

/-- **Normalising again changes nothing.** -/
theorem normalize_normalize (p : Path) : p.normalize.normalize = p.normalize := by
  have hnormal := isNormal_iff.1 (isNormal_normalize p)
  rw [normalize, hnormal, components_normalize, normalize]

/-- **Normalising brings paths into canonical form.**  Two paths are the same just if their
spellings differ in what says nothing, and then their normal forms are written alike.  Normalising
goes on from the empty path by one step after the other, and what it comes to is left as it is by
normalising again.  It says nothing that could be left out, it has no `.`, it has one `..` at most,
at its start, and it is absolute just if the path is. -/
theorem normalize_canonical (p q : Path) :
    (p.Same q ↔ Relation.EqvGen Shortens p.text.toList q.text.toList) ∧
      (p.Same q → p.normalize = q.normalize) ∧
      p.components.foldl go ⟨""⟩ = p.normalize ∧
      p.normalize.normalize = p.normalize ∧
      p.normalize.IsCanonical ∧
      p.normalize.isAbsolute = p.isAbsolute := by
  refine ⟨same_iff_eqvGen_shortens, fun hsame ↦ ?_, foldl_go p, normalize_normalize p,
    isCanonical_normalize p, isAbsolute_normalize p⟩
  rw [normalize, normalize, settledComponents, hsame, ← settledComponents]

/-- A path spelled out at length, with a step up directly behind the root. -/
theorem normalize_canonical_atLength :
    (Path.mk "/..//a/./b/").Same ⟨"/../a/b"⟩ ∧
      (Path.mk "/..//a/./b/").normalize = (Path.mk "/../a/b").normalize ∧
      (Path.mk "/..//a/./b/").normalize.components[1]? = some .up ∧
      (Path.mk "/..//a/./b/").normalize.components[0]? = some .root := by
  have hsame : (Path.mk "/..//a/./b/").Same ⟨"/../a/b"⟩ := by decide
  have hup : (Path.mk "/..//a/./b/").normalize.components[1]? = some .up := by decide
  obtain ⟨-, heq, -, -, hcanonical, -⟩ := normalize_canonical ⟨"/..//a/./b/"⟩ ⟨"/../a/b"⟩
  obtain ⟨-, hroot⟩ := (hcanonical.eq_zero_or_one_of_up 1 hup).resolve_left Nat.one_ne_zero
  exact ⟨hsame, heq hsame, hup, hroot⟩

end Path

end ChangeContext
