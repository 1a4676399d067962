import ChangeContext.Proofs.Path.Normalize

/-!
# Where a path leads

Without links a path can be followed on the names alone: from a place, which is a list of names, a
name goes down, a step up drops the last name, and a slash at the start goes to the top.  Whatever
the steps behind the start are, they come to a `Course`: so many levels up, and then down by names
(`foldl_move`).

Normalising reads off the same names, but of the levels up it keeps only whether they are odd, since
a step up takes off the step up that was kept before it (`foldl_settle`).  So a path and its normal
form lead to the same place if the path nowhere climbs two levels above where it starts, and else
only if there is so little above that it makes no difference (`placeFrom_normalize_iff`).  There is
nothing above the top: for absolute paths the normal form is always right.
-/

set_option autoImplicit false

namespace ChangeContext

namespace Path

/-! ## Places and courses -/

/-- Where a step leads from a place. -/
def Component.move (l : Location) : Component → Location
  | root => []
  | here => l
  | up => l.dropLast
  | name s => l ++ [s]

/-- Where a path leads from a place, step by step. -/
def placeFrom (p : Path) (l : Location) : Location :=
  p.components.foldl Component.move l

/-- What steps come to: so many levels up, and then down by these names. -/
structure Course where
  ups : Nat
  names : List String

namespace Course

/-- No step. -/
def start : Course := ⟨0, []⟩

/-- One more step. -/
def step : Course → Component → Course
  | _, .root => start
  | c, .here => c
  | ⟨ups, names⟩, .up => if names = [] then ⟨ups + 1, []⟩ else ⟨ups, names.dropLast⟩
  | ⟨ups, names⟩, .name s => ⟨ups, names ++ [s]⟩

/-- The course that steps take. -/
def ofSteps (steps : List Component) : Course :=
  steps.foldl step start

/-- The steps of a course. -/
def steps (c : Course) : List Component :=
  List.replicate c.ups .up ++ c.names.map .name

/-- Where a course leads from a place. -/
def placeFrom (c : Course) (l : Location) : Location :=
  l.take (l.length - c.ups) ++ c.names

/-- The course that normalising makes of it. -/
def halved (c : Course) : Course :=
  ⟨c.ups % 2, c.names⟩

theorem ofSteps_concat (steps : List Component) (c : Component) :
    ofSteps (steps ++ [c]) = (ofSteps steps).step c :=
  List.foldl_concat ..

/-- A step up from below goes back. -/
theorem step_up_concat (ups : Nat) (names : List String) (name : String) :
    step ⟨ups, names ++ [name]⟩ .up = ⟨ups, names⟩ := by
  simp [step]

/-- What follows each step of a course follows the course that steps take.  A step up either goes one
level above where the course starts, or it goes back from the name below. -/
theorem foldl_eq {β : Type} {f : β → Component → β} (follow : Course → β)
    (hhere : ∀ c, f (follow c) .here = follow c)
    (hname : ∀ ups names s, f (follow ⟨ups, names⟩) (.name s) = follow ⟨ups, names ++ [s]⟩)
    (hup : ∀ ups, f (follow ⟨ups, []⟩) .up = follow ⟨ups + 1, []⟩)
    (hback : ∀ ups names s, f (follow ⟨ups, names ++ [s]⟩) .up = follow ⟨ups, names⟩)
    {steps : List Component} (h : .root ∉ steps) :
    steps.foldl f (follow start) = follow (ofSteps steps) := by
  induction steps using List.reverseRecOn with
  | nil => rfl
  | append_singleton steps c ih =>
    simp only [List.mem_append, List.mem_singleton, not_or] at h
    rw [List.foldl_concat, ih h.1, ofSteps_concat]
    obtain ⟨ups, names⟩ := ofSteps steps
    cases c with
    | root => exact absurd rfl h.2
    | here => exact hhere _
    | name s => exact hname ups names s
    | up =>
      cases names using List.reverseRecOn with
      | nil => exact hup ups
      | append_singleton names name =>
        rw [step_up_concat]
        exact hback ups names name

theorem ofSteps_steps (c : Course) : ofSteps c.steps = c := by
  obtain ⟨ups, names⟩ := c
  induction names using List.reverseRecOn with
  | nil =>
    induction ups with
    | zero => rfl
    | succ ups ih =>
      rw [steps, List.map_nil, List.append_nil] at ih ⊢
      rw [List.replicate_succ', ofSteps_concat, ih]
      rfl
  | append_singleton names name ih =>
    rw [steps, List.map_append, ← List.append_assoc, List.map_singleton, ofSteps_concat]
    exact congrArg (step · (.name name)) ih

theorem root_notMem_steps (c : Course) : .root ∉ c.steps := by
  simp [steps]

end Course

/-- The course that a path takes. -/
def course (p : Path) : Course :=
  .ofSteps p.components

/-- The number of levels that a path climbs above where it starts. -/
def climbs (p : Path) : Nat :=
  p.course.ups

/-! ## What steps come to -/

section Steps

variable {steps : List Component}

/-- **Steps lead where their course leads.** -/
theorem foldl_move (h : .root ∉ steps) (l : Location) :
    steps.foldl Component.move l = (Course.ofSteps steps).placeFrom l := by
  have hstart : l = Course.start.placeFrom l := by simp [Course.placeFrom, Course.start]
  conv_lhs => rw [hstart]
  refine Course.foldl_eq (·.placeFrom l) (fun _ ↦ rfl) ?_ ?_ ?_ h
  · intro ups names s
    simp [Component.move, Course.placeFrom]
  · intro ups
    have hlength : min (l.length - ups - 1) l.length = l.length - (ups + 1) := by omega
    simp [Component.move, Course.placeFrom, List.dropLast_eq_take, List.take_take, hlength]
  · intro ups names s
    simp [Component.move, Course.placeFrom, ← List.append_assoc]

/-- **Normalising keeps the names, and of the levels up only whether they are odd.** -/
theorem foldl_settle (h : .root ∉ steps) {base : List Component}
    (hbase : base = [] ∨ base = [.root]) :
    steps.foldl settle base = (Course.ofSteps steps).halved.steps.reverse ++ base := by
  refine Course.foldl_eq (·.halved.steps.reverse ++ base) (fun _ ↦ rfl) ?_ ?_ ?_ h
  · intro ups names s
    simp [settle, Course.halved, Course.steps]
  · -- a step up that was kept is taken off again
    intro ups
    rcases Nat.mod_two_eq_zero_or_one ups with heven | hodd
    · have hsucc : (ups + 1) % 2 = 1 := by omega
      rcases hbase with rfl | rfl <;> simp [settle, Course.halved, Course.steps, heven, hsucc]
    · have hsucc : (ups + 1) % 2 = 0 := by omega
      rcases hbase with rfl | rfl <;> simp [settle, Course.halved, Course.steps, hodd, hsucc]
  · intro ups names s
    simp [settle, Course.halved, Course.steps]

end Steps

/-! ## Paths -/

section Paths

variable {p : Path}

theorem stepOf?_ne_root (piece : List Char) : stepOf? piece ≠ some .root := by
  rw [stepOf?]
  split
  · simp
  · split <;> simp

/-- A path starts at the root just if it is absolute. -/
theorem root_mem_components_iff : .root ∈ p.components ↔ p.isAbsolute = true := by
  constructor
  · intro h
    rw [components] at h
    cases hsplit : p.text.toList.splitOn '/' with
    | nil => exact absurd hsplit (List.splitOn_ne_nil _ _)
    | cons first rest =>
      simp only [hsplit, List.mem_append, Option.mem_toList, List.mem_filterMap] at h
      rcases h with h | ⟨piece, -, h⟩
      · have hjoin := congrArg (List.intercalate ['/']) hsplit
        rw [List.intercalate_splitOn] at hjoin
        rw [firstStep?] at h
        split at h
        next hfirst =>
          -- nothing stands before the first slash
          have hne : rest ≠ [] := by simpa using (Option.ite_none_right_eq_some.1 h).1
          obtain ⟨next, rest, rfl⟩ := List.exists_cons_of_ne_nil hne
          rw [isAbsolute, hjoin, hfirst]
          simp
        next =>
          split at h
          next => simp at h
          next => exact absurd h (stepOf?_ne_root first)
      · exact absurd h (stepOf?_ne_root piece)
  · intro h
    rw [isAbsolute, beq_iff_eq] at h
    obtain ⟨cs, hcs⟩ := List.head?_eq_some_iff.1 h
    have hslash : p.text.toList = [] ++ '/' :: cs := hcs
    rw [components_of_append hslash]
    exact List.mem_append_left _ (by decide)

/-- The start of a path: the root, or nothing. -/
def origin (p : Path) : List Component :=
  if p.isAbsolute then [.root] else []

/-- Behind the start of a path there is no other start. -/
theorem exists_components_eq_origin (p : Path) :
    ∃ steps, p.components = p.origin ++ steps ∧ .root ∉ steps := by
  obtain ⟨start, moves, heq, hstart, hmoves⟩ := components_eq_append p
  have hroot : .root ∉ moves := fun h ↦ nomatch hmoves _ h
  have habsolute := root_mem_components_iff (p := p)
  rw [heq] at habsolute ⊢
  rw [origin]
  rcases hstart with rfl | rfl | rfl
  · rw [if_neg (habsolute.not.1 (by simpa using hroot))]
    exact ⟨moves, rfl, hroot⟩
  · rw [if_pos (habsolute.1 (by simp))]
    exact ⟨moves, rfl, hroot⟩
  · rw [if_neg (habsolute.not.1 (by simpa using hroot))]
    exact ⟨.here :: moves, rfl, by simpa using hroot⟩

/-- Where the steps of a path behind its start are taken from. -/
def base (p : Path) (l : Location) : Location :=
  if p.isAbsolute then [] else l

theorem foldl_move_origin (p : Path) (l : Location) :
    p.origin.foldl Component.move l = p.base l := by
  rw [origin, base]
  split <;> rfl

theorem course_eq {steps : List Component} (heq : p.components = p.origin ++ steps) :
    p.course = .ofSteps steps := by
  rw [course, heq, origin]
  split <;> rfl

/-- **A path leads where its course leads.** -/
theorem placeFrom_eq (p : Path) (l : Location) : p.placeFrom l = p.course.placeFrom (p.base l) := by
  obtain ⟨steps, heq, hroot⟩ := exists_components_eq_origin p
  rw [course_eq heq, placeFrom, heq, List.foldl_append, foldl_move_origin, foldl_move hroot]

/-- **Normalising keeps where a path starts, and of its course all but pairs of steps up.** -/
theorem settledComponents_eq (p : Path) :
    p.settledComponents = p.origin ++ p.course.halved.steps := by
  obtain ⟨steps, heq, hroot⟩ := exists_components_eq_origin p
  have horigin : p.origin.foldl settle [] = p.origin ∧ p.origin.reverse = p.origin := by
    rw [origin]
    split <;> exact ⟨rfl, rfl⟩
  have hbase : p.origin = [] ∨ p.origin = [.root] := by
    rw [origin]
    split
    · exact .inr rfl
    · exact .inl rfl
  rw [settledComponents, heq, List.foldl_append, horigin.1, foldl_settle hroot hbase,
    List.reverse_append, List.reverse_reverse, horigin.2, course_eq heq]

/-- **The normal form leads where the course leads of which normalising has taken off pairs of
steps up.** -/
theorem placeFrom_normalize (p : Path) (l : Location) :
    p.normalize.placeFrom l = p.course.halved.placeFrom (p.base l) := by
  rw [placeFrom, components_normalize, settledComponents_eq, List.foldl_append, foldl_move_origin,
    foldl_move (Course.root_notMem_steps _), Course.ofSteps_steps]

/-- Two courses by the same names lead to the same place if they go up equally far, as far as there
is something above. -/
theorem Course.placeFrom_halved_iff (c : Course) (l : Location) :
    c.halved.placeFrom l = c.placeFrom l ↔ c.ups ≤ 1 ∨ l.length ≤ c.ups % 2 := by
  simp only [placeFrom, halved, List.append_cancel_right_eq]
  constructor
  · intro h
    have hlength := congrArg List.length h
    rw [List.length_take, List.length_take] at hlength
    omega
  · intro h
    have hleft : l.length - c.ups % 2 = l.length - c.ups := by omega
    rw [hleft]

/-- **The normal form of a path leads to the same place as the path just if the path is absolute, or
it climbs at most one level above where it starts, or there is no more above than the normal form
climbs.** -/
theorem placeFrom_normalize_iff (p : Path) (l : Location) :
    p.normalize.placeFrom l = p.placeFrom l ↔
      p.isAbsolute = true ∨ p.climbs ≤ 1 ∨ l.length ≤ p.climbs % 2 := by
  rw [placeFrom_normalize, placeFrom_eq, Course.placeFrom_halved_iff, climbs, base]
  by_cases habsolute : p.isAbsolute = true <;> simp [habsolute]

/-- Two steps up are no step at all in normal form. -/
theorem placeFrom_normalize_twoUp :
    (Path.mk "../..").normalize = ⟨""⟩ ∧
      (Path.mk "../..").normalize.placeFrom ["a", "b"] = ["a", "b"] ∧
      (Path.mk "../..").placeFrom ["a", "b"] = [] := by
  decide

end Paths

end Path

end ChangeContext
