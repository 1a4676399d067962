import ChangeContext.NameMap
import ChangeContext.Proofs.FileTree.Entry
import Mathlib.Data.List.Induction
import Mathlib.Data.List.Nodup

/-!
# Trails

A trail is a list of names that leads down from a directory.  It can be written as a relative path,
and going down by its names one after the other leads to the same path as joining this relative path
to that of the directory (`join_ofTrail`).  Either way the names stand behind the components of the
directory (`components_below`).

Whatever a trail leads to is listed on the way: each directory on it lists the next name
(`mem_list?_of_at?`).  So a walk through listings misses nothing that a path could reach.  What a
directory lists is in ascending order, each name once, in a tree that has no location twice
(`pairwise_list?`).
-/

set_option autoImplicit false

namespace ChangeContext

namespace Path

open FileTree (IsName)

/-- The path that goes down from `dir` by these names. -/
def below (dir : Path) (trail : List String) : Path :=
  trail.foldl child dir

/-- The relative path that is made of these names. -/
def ofTrail (trail : List String) : Path :=
  ofComponents (trail.map .name)

@[simp] theorem below_nil (dir : Path) : dir.below [] = dir := rfl

@[simp] theorem below_cons (dir : Path) (name : String) (trail : List String) :
    dir.below (name :: trail) = (dir.child name).below trail := rfl

theorem below_append (dir : Path) (trail trail' : List String) :
    dir.below (trail ++ trail') = (dir.below trail).below trail' :=
  List.foldl_append

theorem below_append_singleton (dir : Path) (trail : List String) (name : String) :
    dir.below (trail ++ [name]) = (dir.below trail).child name := by
  simp [below]

theorem ofTrail_eq_below (trail : List String) : ofTrail trail = Path.below ⟨""⟩ trail :=
  List.foldl_map

/-- The path goes down from `dir` by names. -/
def LiesBelow (dir p : Path) : Prop :=
  ∃ trail, (∀ name ∈ trail, IsName name) ∧ p = dir.below trail

/-! ## How paths below a directory are written -/

/-- What the paths of the entries of a directory begin with. -/
def lead (dir : Path) : List Char :=
  if dir.text = "" ∨ dir.text.toList.getLast? = some '/' then dir.text.toList
  else dir.text.toList ++ ['/']

variable {dir : Path} {name : String} {trail : List String}

theorem toList_child (h : '/' ∉ name.toList) :
    (dir.child name).text.toList = dir.lead ++ name.toList := by
  rw [FileTree.text_child dir h, lead]
  split <;> simp

theorem text_child_ne_empty (hne : name ≠ "") (hslash : '/' ∉ name.toList) :
    (dir.child name).text ≠ "" := by
  intro hempty
  have htext : (dir.child name).text.toList = _ := toList_child hslash
  rw [hempty] at htext
  simp [hne] at htext

theorem lead_child (hne : name ≠ "") (hslash : '/' ∉ name.toList) :
    (dir.child name).lead = dir.lead ++ name.toList ++ ['/'] := by
  have hname : name.toList ≠ [] := by simpa using hne
  have hlast : (dir.lead ++ name.toList).getLast? ≠ some '/' := by
    rw [List.getLast?_append_of_ne_nil _ hname]
    exact fun hlast ↦ hslash (List.mem_of_getLast? hlast)
  rw [lead, if_neg, toList_child hslash]
  rintro (hempty | hend)
  · exact text_child_ne_empty hne hslash hempty
  · exact hlast (toList_child hslash ▸ hend)

/-- Below a directory the names stand with slashes between them. -/
theorem toList_below (hne : trail ≠ []) (h : ∀ name ∈ trail, IsName name) :
    (dir.below trail).text.toList = dir.lead ++ ['/'].intercalate (trail.map String.toList) := by
  induction trail generalizing dir with
  | nil => exact absurd rfl hne
  | cons name rest ih =>
    obtain ⟨hname, hrest⟩ := List.forall_mem_cons.1 h
    rw [below_cons]
    cases rest with
    | nil => simpa using toList_child hname.2.2.2
    | cons next rest =>
      rw [ih (List.cons_ne_nil _ _) hrest, lead_child hname.1 hname.2.2.2]
      simp

theorem text_below_ne_empty (hne : dir.text ≠ "") (h : ∀ name ∈ trail, IsName name) :
    (dir.below trail).text ≠ "" := by
  induction trail generalizing dir with
  | nil => exact hne
  | cons name rest ih =>
    obtain ⟨hname, hrest⟩ := List.forall_mem_cons.1 h
    exact ih (text_child_ne_empty hname.1 hname.2.2.2) hrest

theorem toList_ofTrail (hne : trail ≠ []) (h : ∀ name ∈ trail, IsName name) :
    (ofTrail trail).text.toList = ['/'].intercalate (trail.map String.toList) := by
  rw [ofTrail_eq_below, toList_below hne h]
  rfl

theorem ofTrail_singleton (h : IsName name) : ofTrail [name] = ⟨name⟩ := by
  have htext := toList_ofTrail (List.cons_ne_nil name []) (List.forall_mem_singleton.2 h)
  have heq : (ofTrail [name]).text = name := String.toList_injective (by simpa using htext)
  exact congrArg Path.mk heq

/-- **A trail leads where its relative path leads.** -/
theorem join_ofTrail (hne : trail ≠ []) (h : ∀ name ∈ trail, IsName name) :
    dir.join (ofTrail trail) = dir.below trail := by
  have habsolute : (ofTrail trail).isAbsolute = false := by
    rw [isAbsolute, toList_ofTrail hne h, beq_eq_false_iff_ne]
    cases trail with
    | nil => exact absurd rfl hne
    | cons name rest =>
      have hname : IsName name := h name List.mem_cons_self
      have hne' : name.toList ≠ [] := by simpa using hname.1
      have hhead : (['/'].intercalate ((name :: rest).map String.toList)).head? =
          name.toList.head? := by
        cases rest with
        | nil => simp
        | cons next rest => simp [List.head?_append_of_ne_nil _ hne']
      rw [hhead]
      exact fun hslash ↦ hname.2.2.2 (List.mem_of_mem_head? hslash)
  have htext : (dir.join (ofTrail trail)).text.toList = dir.lead ++ (ofTrail trail).text.toList := by
    rw [join, habsolute, lead]
    simp only [Bool.false_eq_true, if_false, Bool.or_eq_true, beq_iff_eq, decide_eq_true_eq]
    split <;> simp
  have heq : (dir.join (ofTrail trail)).text = (dir.below trail).text := by
    refine String.toList_injective ?_
    rw [htext, toList_ofTrail hne h, toList_below hne h]
  exact congrArg Path.mk heq

/-! ## The components of paths below a directory -/

theorem stepOf?_of_isName (h : IsName name) : stepOf? name.toList = some (.name name) := by
  have hhere : name.toList ≠ ['.'] := fun heq ↦ h.2.1 (String.toList_injective heq)
  have hup : name.toList ≠ ['.', '.'] := fun heq ↦ h.2.2.1 (String.toList_injective heq)
  simp [stepOf?, h.1, hhere, hup]

/-- The components of a text that a slash follows. -/
def componentsBefore (cs : List Char) : List Component :=
  match cs.splitOn '/' with
  | [] => []
  | first :: rest => (firstStep? first true).toList ++ rest.filterMap stepOf?

theorem components_eq_componentsBefore {p : Path} (h : p.text ≠ "") :
    p.components = componentsBefore p.text.toList := by
  rw [components, componentsBefore]
  cases hsplit : p.text.toList.splitOn '/' with
  | nil => rfl
  | cons first rest =>
    cases rest with
    | cons next rest => rfl
    | nil =>
      -- only where nothing stands before the slash does it matter whether there is one
      have hjoin := congrArg (List.intercalate ['/']) hsplit
      rw [List.intercalate_splitOn, List.intercalate_singleton] at hjoin
      have hne : first ≠ [] := by
        rintro rfl
        exact h (String.toList_injective (hjoin.trans String.toList_empty.symm))
      simp [firstStep?, hne]

theorem components_of_append {p : Path} {cs ds : List Char} (h : p.text.toList = cs ++ '/' :: ds) :
    p.components = componentsBefore cs ++ (ds.splitOn '/').filterMap stepOf? := by
  have hne : p.text ≠ "" := by
    intro hempty
    simp [hempty] at h
  rw [components_eq_componentsBefore hne, h, componentsBefore, componentsBefore,
    List.splitOn_append_cons_self]
  cases hsplit : cs.splitOn '/' with
  | nil => exact absurd hsplit (List.splitOn_ne_nil _ _)
  | cons first rest => simp

theorem firstStep?_of_stepOf? {cs : List Char} {slash : Bool} {c : Component}
    (h : stepOf? cs = some c) : firstStep? cs slash = some c := by
  rw [stepOf?] at h
  split at h
  next => simp at h
  next hpiece =>
    simp only [Bool.or_eq_true, decide_eq_true_eq, not_or] at hpiece
    rw [firstStep?, if_neg hpiece.1, if_neg hpiece.2, stepOf?, if_neg (by simp [hpiece])]
    exact h

/-- **A step that is added to a path is added to its components.** -/
theorem components_child_of_stepOf? {s : String} {c : Component} (hslash : '/' ∉ s.toList)
    (hstep : stepOf? s.toList = some c) : (dir.child s).components = dir.components ++ [c] := by
  have hsplit : s.toList.splitOn '/' = [s.toList] := List.splitOn_eq_singleton hslash
  have htext : (dir.child s).text.toList = dir.lead ++ s.toList := toList_child hslash
  rw [lead] at htext
  split at htext
  next hlead =>
    by_cases hempty : dir.text = ""
    · have hnone : dir.components = [] := by
        rw [components, hempty]
        decide
      rw [hempty, String.toList_empty, List.nil_append] at htext
      rw [components, htext, hsplit, hnone]
      simp [firstStep?_of_stepOf? hstep]
    · obtain ⟨cs, hcs⟩ := List.getLast?_eq_some_iff.1 (hlead.resolve_left hempty)
      rw [hcs, List.append_assoc, List.singleton_append] at htext
      rw [components_of_append htext, components_of_append hcs, hsplit,
        List.filterMap_cons_some hstep]
      simp [stepOf?]
  next hlead =>
    rw [not_or] at hlead
    rw [List.append_assoc, List.singleton_append] at htext
    rw [components_of_append htext, components_eq_componentsBefore hlead.1, hsplit,
      List.filterMap_cons_some hstep, List.filterMap_nil]

theorem components_child (h : IsName name) :
    (dir.child name).components = dir.components ++ [.name name] :=
  components_child_of_stepOf? h.2.2.2 (stepOf?_of_isName h)

/-- **The components of a path below a directory are those of the directory and then the names.** -/
theorem components_below (h : ∀ name ∈ trail, IsName name) :
    (dir.below trail).components = dir.components ++ trail.map .name := by
  induction trail generalizing dir with
  | nil => simp
  | cons name rest ih =>
    obtain ⟨hname, hrest⟩ := List.forall_mem_cons.1 h
    rw [below_cons, ih hrest, components_child hname]
    simp

/-- Different trails lead to different paths, in whatever spelling. -/
theorem below_same_iff {trail' : List String} (h : ∀ name ∈ trail, IsName name)
    (h' : ∀ name ∈ trail', IsName name) : (dir.below trail).Same (dir.below trail') ↔
      trail = trail' := by
  rw [Same, components_below h, components_below h', List.append_cancel_left_eq]
  exact (List.map_injective_iff.2 fun _ _ ↦ Component.name.inj).eq_iff

/-- **The components of a trail's path are its names.** -/
theorem components_ofTrail (h : ∀ name ∈ trail, IsName name) :
    (ofTrail trail).components = trail.map .name := by
  rw [ofTrail_eq_below, components_below h]
  rfl

theorem ofTrail_inj {trail' : List String} (h : ∀ name ∈ trail, IsName name)
    (h' : ∀ name ∈ trail', IsName name) (heq : ofTrail trail = ofTrail trail') :
    trail = trail' := by
  rw [ofTrail_eq_below, ofTrail_eq_below] at heq
  exact (below_same_iff h h').1 (congrArg components heq)

/-- The file name of a trail's path is its last name. -/
theorem fileName?_ofTrail (h : ∀ name ∈ trail, IsName name) :
    (ofTrail trail).fileName? = trail.getLast? := by
  rw [fileName?, components_ofTrail h, List.getLast?_map]
  cases trail.getLast? <;> rfl

end Path

namespace FileTree

variable {t : FileTree} {l m : Location} {dir : Path} {name : String}

/-- No location is there twice. -/
def Distinct (t : FileTree) : Prop :=
  (t.nodes.map (·.1)).Nodup

instance (t : FileTree) : Decidable t.Distinct :=
  inferInstanceAs (Decidable (t.nodes.map (·.1)).Nodup)

/-! ## What is reached is listed -/

/-- Steps that lead to an entry lead to its directory first. -/
theorem follow_of_append_singleton (h : IsName name) {links : Nat} {start : Location}
    {steps : List String} (hfollow : t.follow true links start (steps ++ [name]) = .found m) :
    ∃ l, t.follow true links start steps = .found l ∧ t.node? l = some .directory ∧
      (t.node? (l ++ [name])).isSome = true := by
  have hne : [name] ≠ [] := List.cons_ne_nil _ _
  -- the last step asks for a directory, and for an entry of this name in it
  have hlast {l : Location} (hstuck : t.advance true l [name] ≠ .stuck)
      (habsent : ∀ l', t.advance true l [name] ≠ .absent l') :
      t.node? l = some .directory ∧ (t.node? (l ++ [name])).isSome = true := by
    have hdir : t.node? l = some .directory := by
      by_contra hdir
      refine hstuck ?_
      rw [advance]
      split
      next hnode => exact absurd hnode hdir
      next => rfl
    refine ⟨hdir, ?_⟩
    rw [advance_singleton h hdir] at habsent
    cases hentry : t.node? (l ++ [name]) with
    | none => exact absurd (by rw [hentry]) (habsent (l ++ [name]))
    | some node => rfl
  induction links generalizing start steps with
  | zero =>
    rw [follow, advance_append true start steps hne] at hfollow
    rw [follow]
    cases hadvance : t.advance true start steps with
    | arrived l =>
      simp only [hadvance] at hfollow
      exact ⟨l, rfl, hlast (fun hstuck ↦ by simp [hstuck] at hfollow)
        (fun l' habsent ↦ by simp [habsent] at hfollow)⟩
    | _ => simp [hadvance] at hfollow
  | succ links ih =>
    rw [follow, advance_append true start steps hne] at hfollow
    rw [follow]
    cases hadvance : t.advance true start steps with
    | arrived l =>
      simp only [hadvance] at hfollow
      exact ⟨l, rfl, hlast (fun hstuck ↦ by simp [hstuck] at hfollow)
        (fun l' habsent ↦ by simp [habsent] at hfollow)⟩
    | linked l target more =>
      simp only [hadvance, ← List.append_assoc] at hfollow
      exact ih hfollow
    | _ => simp [hadvance] at hfollow

/-- A path that leads to a directory leads there with a stay at its end, too. -/
theorem follow_append_dot {links : Nat} {start : Location} {steps : List String}
    (h : t.follow true links start steps = .found l) (hdir : t.node? l = some .directory) :
    t.follow true links start (steps ++ ["."]) = .found l := by
  obtain ⟨left, hleft⟩ := follow_append h
  rw [hleft true ["."] (List.cons_ne_nil _ _)]
  cases left <;> simp [follow, advance, hdir]

/-- **A path to an entry leads through its directory.** -/
theorem resolve_of_resolve_child (h : IsName name) (hne : dir.text ≠ "")
    (hchild : t.resolve (dir.child name) true = .found m) :
    ∃ l, t.resolve dir true = .found l ∧ t.node? l = some .directory ∧
      (t.node? (l ++ [name])).isSome = true := by
  obtain ⟨steps, hsteps, hstepsChild⟩ := stepsOf_child h hne
  rw [resolve, if_neg (Path.text_child_ne_empty h.1 h.2.2.2), hstepsChild, startOf_child h hne] at hchild
  obtain ⟨l, hfollow, hdir, hentry⟩ := follow_of_append_singleton h hchild
  refine ⟨l, ?_, hdir, hentry⟩
  rw [resolve, if_neg hne]
  rcases hsteps with hsteps | hsteps
  · rwa [hsteps]
  · rw [hsteps]
    exact follow_append_dot hfollow hdir

theorem mem_namesIn_of_isSome (h : (t.node? (l ++ [name])).isSome = true) : name ∈ t.namesIn l := by
  obtain ⟨node, hnode⟩ := Option.isSome_iff_exists.1 h
  rw [node?, if_neg (by simp)] at hnode
  rw [namesIn, List.mem_mergeSort, List.mem_filterMap]
  obtain ⟨before, after, hnodes, -⟩ := List.lookup_eq_some_iff.1 hnode
  exact ⟨(l ++ [name], node), by simp [hnodes], by simp⟩

/-- **What a path leads to is listed in its directory.** -/
theorem mem_list?_of_at? (h : IsName name) (hne : dir.text ≠ "") {node : Node}
    (hat : t.at? (dir.child name) = some node) :
    t.at? dir = some .directory ∧ name ∈ (t.list? dir).getD [] := by
  rw [at?] at hat
  split at hat
  next m hm =>
    obtain ⟨l, hl, hdir, hentry⟩ := resolve_of_resolve_child h hne hm
    rw [at?, list?, hl]
    simpa [hdir] using mem_namesIn_of_isSome hentry
  next => simp at hat

/-- All that a trail leads through are directories. -/
theorem at?_below_of_append {front back : List String} (hne : dir.text ≠ "") (hback : back ≠ [])
    (h : ∀ name ∈ front ++ back, IsName name) {node : Node}
    (hat : t.at? (dir.below (front ++ back)) = some node) :
    t.at? (dir.below front) = some .directory := by
  induction back using List.reverseRecOn generalizing node with
  | nil => exact absurd rfl hback
  | append_singleton back name ih =>
    rw [← List.append_assoc] at h hat
    obtain ⟨hfront, hname⟩ := List.forall_mem_append.1 h
    rw [Path.below_append_singleton] at hat
    have hdir := (mem_list?_of_at? (hname name (List.mem_singleton_self _))
      (Path.text_below_ne_empty hne hfront) hat).1
    by_cases hnil : back = []
    · rwa [hnil, List.append_nil] at hdir
    · exact ih hnil hfront hdir

/-! ## Listings -/

/-- The name of an entry of this directory. -/
def entryName? (l m : Location) : Option String :=
  if m ≠ [] && m.dropLast = l then m.getLast? else none

theorem eq_of_entryName? (h : entryName? l m = some name) : m = l ++ [name] := by
  rw [entryName?] at h
  split at h
  next hin =>
    simp only [ne_eq, Bool.and_eq_true, decide_eq_true_eq] at hin
    rw [← hin.2]
    exact (List.dropLast_append_getLast? name h).symm
  next => simp at h

theorem nodup_namesIn (ht : t.Distinct) (l : Location) : (t.namesIn l).Nodup := by
  have hnames : t.nodes.filterMap (fun e ↦ entryName? l e.1) =
      (t.nodes.map (·.1)).filterMap (entryName? l) := by
    rw [List.filterMap_map]
    rfl
  have hnodup : ((t.nodes.map (·.1)).filterMap (entryName? l)).Nodup :=
    List.Nodup.filterMap (fun m m' name hm hm' ↦
      (eq_of_entryName? hm).trans (eq_of_entryName? hm').symm) ht
  exact (List.mergeSort_perm ..).nodup_iff.2 (hnames ▸ hnodup)

/-- **The names in a directory are in ascending order, each once.** -/
theorem pairwise_namesIn (ht : t.Distinct) (l : Location) : (t.namesIn l).Pairwise (· < ·) := by
  have hsorted : (t.namesIn l).Pairwise fun a b ↦ decide (a ≤ b) = true :=
    @List.pairwise_mergeSort String (fun a b ↦ decide (a ≤ b))
      (fun a b c hab hbc ↦ decide_eq_true
        (String.le_trans (of_decide_eq_true hab) (of_decide_eq_true hbc)))
      (fun a b ↦ by simpa using String.le_total ..) _
  refine hsorted.imp₂ (fun a b hle hne ↦ ?_) (nodup_namesIn ht l)
  exact NameMap.lt_of_not_lt_of_ne (String.not_lt.2 (of_decide_eq_true hle)) hne.symm

/-- A directory lists its names in ascending order, each once. -/
theorem pairwise_list? (ht : t.Distinct) (dir : Path) :
    ((t.list? dir).getD []).Pairwise (· < ·) := by
  rw [list?]
  split
  next l hl =>
    split
    next => exact pairwise_namesIn ht l
    next => exact .nil
  next => exact .nil

end FileTree

end ChangeContext
