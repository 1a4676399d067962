import ChangeContext.Path.Normalize
import ChangeContext.Proofs.FileTree.Trail
import ChangeContext.Proofs.Text.Lines

/-!
# Paths in normal form

What normalising settles on has a simple shape: it may start at the root, it may go up once, and then
it goes down by names (`Settled`).  Each step keeps this shape, and steps of this shape settle on
themselves.  A path in normal form is one that normalising leaves as it is; normal forms are in normal
form (`isNormal_normalize`), and so is what lies below them (`IsNormal.below`).

Normalising works on components and is written out as a text again, so the components of that text
have to be the ones that were settled on (`components_normalize`).
-/

set_option autoImplicit false

namespace ChangeContext

namespace Path

open FileTree (IsName)

/-! ## The components of a path -/

/-- The component can stand anywhere in a path. -/
inductive Component.Moves : Component → Prop
  | up : Moves .up
  | name {s : String} (h : IsName s) : Moves (.name s)

theorem moves_of_stepOf? {piece : List Char} {c : Component} (hslash : '/' ∉ piece)
    (h : stepOf? piece = some c) : c.Moves := by
  rw [stepOf?] at h
  split at h
  next => simp at h
  next hpiece =>
    simp only [Bool.or_eq_true, decide_eq_true_eq, not_or] at hpiece
    split at h
    next => exact Option.some_inj.1 h ▸ .up
    next hup =>
      obtain rfl := Option.some_inj.1 h
      refine .name ⟨?_, ?_, ?_, by simpa using hslash⟩
      · exact fun heq ↦ hpiece.1 (by simpa using congrArg String.toList heq)
      · exact fun heq ↦ hpiece.2 (by simpa using congrArg String.toList heq)
      · exact fun heq ↦ hup (by simpa using congrArg String.toList heq)

/-- **Only the first component can be anything but a move.** -/
theorem components_eq_append (p : Path) :
    ∃ start moves, p.components = start ++ moves ∧
      (start = [] ∨ start = [.root] ∨ start = [.here]) ∧ ∀ c ∈ moves, c.Moves := by
  rw [components]
  cases hsplit : p.text.toList.splitOn '/' with
  | nil => exact ⟨[], [], rfl, .inl rfl, by simp⟩
  | cons first rest =>
    have hmoves : ∀ c ∈ rest.filterMap stepOf?, c.Moves := by
      intro c hc
      obtain ⟨piece, hpiece, hstep⟩ := List.mem_filterMap.1 hc
      exact moves_of_stepOf? (Text.notMem_of_mem_splitOn (hsplit ▸ List.mem_cons_of_mem _ hpiece)) hstep
    have hfirst : '/' ∉ first := Text.notMem_of_mem_splitOn (hsplit ▸ List.mem_cons_self)
    simp only
    cases hstart : firstStep? first (!rest.isEmpty) with
    | none => exact ⟨[], _, rfl, .inl rfl, hmoves⟩
    | some c =>
      rw [firstStep?] at hstart
      split at hstart
      · split at hstart
        · obtain rfl := Option.some_inj.1 hstart
          exact ⟨[.root], _, rfl, .inr (.inl rfl), hmoves⟩
        · simp at hstart
      · split at hstart
        · obtain rfl := Option.some_inj.1 hstart
          exact ⟨[.here], _, rfl, .inr (.inr rfl), hmoves⟩
        · exact ⟨[], c :: rest.filterMap stepOf?, rfl, .inl rfl,
            List.forall_mem_cons.2 ⟨moves_of_stepOf? hfirst hstart, hmoves⟩⟩

theorem components_child_of_moves {dir : Path} {c : Component} (h : c.Moves) :
    (dir.child c.text).components = dir.components ++ [c] := by
  cases h with
  | up => exact components_child_of_stepOf? (by decide) (by decide)
  | name h => exact components_child h

/-- Moves that are written behind a path are added to its components. -/
theorem components_foldl_child {dir : Path} {moves : List Component} (h : ∀ c ∈ moves, c.Moves) :
    (moves.foldl (fun p c ↦ p.child c.text) dir).components = dir.components ++ moves := by
  induction moves generalizing dir with
  | nil => simp
  | cons c moves ih =>
    obtain ⟨hc, hmoves⟩ := List.forall_mem_cons.1 h
    rw [List.foldl_cons, ih hmoves, components_child_of_moves hc]
    simp

/-! ## Steps in normal form -/

/-- Steps in normal form, the most recent first: from the root or not, up once or not, and then down
by names. -/
def Settled (steps : List Component) : Prop :=
  ∃ (names : List String) (ups start : List Component),
    steps = (names.map Component.name).reverse ++ ups ++ start ∧
      (∀ name ∈ names, IsName name) ∧ (ups = [] ∨ ups = [.up]) ∧ (start = [] ∨ start = [.root])

variable {steps : List Component} {p : Path} {names : List String}

theorem settled_nil : Settled [] :=
  ⟨[], [], [], rfl, by simp, .inl rfl, .inl rfl⟩

theorem settled_root : Settled [.root] :=
  ⟨[], [], [.root], rfl, by simp, .inl rfl, .inr rfl⟩

/-- Names are put on top of what is settled. -/
theorem foldl_settle_names (steps : List Component) (names : List String) :
    (names.map Component.name).foldl settle steps =
      (names.map Component.name).reverse ++ steps := by
  induction names generalizing steps with
  | nil => rfl
  | cons name names ih =>
    rw [List.map_cons, List.foldl_cons, ih]
    simp [settle]

/-- **A move keeps the form.** -/
theorem Settled.settle {c : Component} (h : Settled steps) (hc : c.Moves) :
    Settled (settle steps c) := by
  obtain ⟨names, ups, start, rfl, hnames, hups, hstart⟩ := h
  cases hc with
  | @name s hname =>
    refine ⟨names ++ [s], ups, start, ?_, ?_, hups, hstart⟩
    · simp [Path.settle]
    · exact List.forall_mem_append.2 ⟨hnames, List.forall_mem_singleton.2 hname⟩
  | up =>
    induction names using List.reverseRecOn with
    | nil =>
      -- a step up that was kept is taken off again
      rcases hups with rfl | rfl
      · rcases hstart with rfl | rfl
        · exact ⟨[], [.up], [], rfl, by simp, .inr rfl, .inl rfl⟩
        · exact ⟨[], [.up], [.root], rfl, by simp, .inr rfl, .inr rfl⟩
      · exact ⟨[], [], start, by rcases hstart with rfl | rfl <;> rfl, by simp, .inl rfl, hstart⟩
    | append_singleton names name _ =>
      refine ⟨names, ups, start, ?_, (List.forall_mem_append.1 hnames).1, hups, hstart⟩
      simp [Path.settle]

theorem Settled.foldl_settle {moves : List Component} (h : Settled steps)
    (hmoves : ∀ c ∈ moves, c.Moves) : Settled (moves.foldl Path.settle steps) := by
  induction moves generalizing steps with
  | nil => exact h
  | cons c moves ih =>
    obtain ⟨hc, hmoves⟩ := List.forall_mem_cons.1 hmoves
    exact ih (h.settle hc) hmoves

/-- **Normalising settles on steps in normal form.** -/
theorem settled_foldl_components (p : Path) : Settled (p.components.foldl settle []) := by
  obtain ⟨start, moves, heq, hstart, hmoves⟩ := components_eq_append p
  rw [heq, List.foldl_append]
  refine Settled.foldl_settle ?_ hmoves
  rcases hstart with rfl | rfl | rfl
  · exact settled_nil
  · exact settled_root
  · exact settled_nil

/-- **Steps in normal form settle on themselves.** -/
theorem Settled.foldl_settle_reverse (h : Settled steps) :
    steps.reverse.foldl Path.settle [] = steps := by
  obtain ⟨names, ups, start, rfl, -, hups, hstart⟩ := h
  have hbase : (ups ++ start).reverse.foldl Path.settle [] = ups ++ start := by
    rcases hups with rfl | rfl <;> rcases hstart with rfl | rfl <;> rfl
  rw [List.append_assoc, List.reverse_append, List.foldl_append, hbase, List.reverse_reverse,
    foldl_settle_names]

/-- Steps in normal form are the components of how they are written. -/
theorem Settled.components_ofComponents (h : Settled steps) :
    (ofComponents steps.reverse).components = steps.reverse := by
  obtain ⟨names, ups, start, rfl, hnames, hups, hstart⟩ := h
  have hmoves : ∀ c ∈ ups ++ names.map Component.name, c.Moves := by
    refine List.forall_mem_append.2 ⟨fun c hc ↦ ?_, fun c hc ↦ ?_⟩
    · rcases hups with rfl | rfl
      · exact absurd hc List.not_mem_nil
      · exact List.mem_singleton.1 hc ▸ .up
    · obtain ⟨name, hname, rfl⟩ := List.mem_map.1 hc
      exact .name (hnames name hname)
  have hreverse : ((names.map Component.name).reverse ++ ups ++ start).reverse =
      start ++ (ups ++ names.map Component.name) := by
    rcases hups with rfl | rfl <;> rcases hstart with rfl | rfl <;> simp
  rw [hreverse, ofComponents, List.foldl_append, components_foldl_child hmoves]
  rcases hstart with rfl | rfl <;> rfl

/-! ## Normal forms -/

/-- **The components of the normal form are those that were settled on.** -/
theorem components_normalize (p : Path) : p.normalize.components = p.settledComponents :=
  (settled_foldl_components p).components_ofComponents

/-- Normalising leaves the path as it is, up to its spelling. -/
def IsNormal (p : Path) : Prop :=
  p.normalize.Same p

instance (p : Path) : Decidable p.IsNormal :=
  inferInstanceAs (Decidable (p.normalize.Same p))

theorem isNormal_iff : p.IsNormal ↔ p.settledComponents = p.components := by
  rw [IsNormal, Same, components_normalize]

/-- **Normal forms are in normal form.** -/
theorem isNormal_normalize (p : Path) : p.normalize.IsNormal := by
  rw [isNormal_iff, settledComponents, components_normalize, settledComponents,
    (settled_foldl_components p).foldl_settle_reverse]

/-- **Below a path in normal form all paths are in normal form.** -/
theorem IsNormal.below (h : p.IsNormal) (hnames : ∀ name ∈ names, IsName name) :
    (p.below names).IsNormal := by
  rw [isNormal_iff, settledComponents] at h ⊢
  rw [components_below hnames, List.foldl_append, foldl_settle_names, List.reverse_append, h,
    List.reverse_reverse]

end Path

end ChangeContext
