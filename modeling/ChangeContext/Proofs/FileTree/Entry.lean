import ChangeContext.FileTree.Basic
import Mathlib.Data.List.Basic

/-!
# The entries of a directory

What a directory lists is there, but its path need not lead anywhere: an entry can be a link whose
target is missing, or one link more than are followed on one path.  `follow_append` takes a path
apart into the path of its directory and what follows.  So a listed name is found under its
directory when a link is not followed (`atLink?_child`), and when links are followed it either leads
somewhere or is a link that leads nowhere (`pathExists_or_dangling`).

Names are those that a directory can hold: not empty, not the names of the directory itself and of
the one above it, and without a slash.
-/

set_option autoImplicit false

namespace ChangeContext

namespace FileTree

/-- A directory can hold an entry of this name. -/
def IsName (s : String) : Prop :=
  s ≠ "" ∧ s ≠ "." ∧ s ≠ ".." ∧ '/' ∉ s.toList

instance (s : String) : Decidable (IsName s) :=
  inferInstanceAs (Decidable (_ ∧ _ ∧ _ ∧ _))

/-- All locations are made of names. -/
def Proper (t : FileTree) : Prop :=
  ∀ e ∈ t.nodes, ∀ s ∈ e.1, IsName s

instance (t : FileTree) : Decidable t.Proper :=
  inferInstanceAs (Decidable (∀ e ∈ t.nodes, ∀ s ∈ e.1, IsName s))

/-- There is a link at the path, but it leads nowhere. -/
def Dangling (t : FileTree) (p : Path) : Prop :=
  (∃ target, t.atLink? p = some (.link target)) ∧ t.pathExists p = false

variable {t : FileTree} {l m : Location}

/-- A path has the bytes of a file just if it leads to a regular file. -/
theorem file?_eq_some_iff {p : Path} {f : ByteArray × Instant} :
    t.file? p = some f ↔ t.at? p = some (.file f.1 f.2) := by
  rw [file?]
  split
  next bytes modified hat => simp [hat, Prod.ext_iff]
  next hnot =>
    constructor
    · intro h
      exact absurd h (Option.some_ne_none f).symm
    · intro hat
      exact absurd hat (hnot f.1 f.2)

/-! ## Following on -/

/-- Steps with more steps behind them go where they went, and on from there. -/
theorem advance_append (followLast : Bool) (start : Location) (steps : List String)
    {rest : List String} (hrest : rest ≠ []) :
    t.advance followLast start (steps ++ rest) =
      match t.advance true start steps with
      | .arrived l => t.advance followLast l rest
      | .linked l target more => .linked l target (more ++ rest)
      | _ => .stuck := by
  induction steps generalizing start with
  | nil => simp [advance]
  | cons step steps ih =>
    rw [List.cons_append, advance, advance]
    split
    next =>
      split
      next => exact ih start
      next =>
        split
        next => exact ih start.dropLast
        next =>
          split
          next => cases steps <;> simp [hrest]
          next => cases steps <;> simp [hrest]
          next => exact ih _
    next => rfl

/-- **Steps that lead to a node lead on from there**, with as many links left as have not been
followed yet. -/
theorem follow_append {links : Nat} {start : Location} {steps : List String}
    (h : t.follow true links start steps = .found m) :
    ∃ left, ∀ (followLast : Bool) (rest : List String), rest ≠ [] →
      t.follow followLast links start (steps ++ rest) = t.follow followLast left m rest := by
  induction links generalizing start steps with
  | zero =>
    rw [follow] at h
    split at h
    next l hadvance =>
      obtain rfl : l = m := by simpa using h
      refine ⟨0, fun followLast rest hrest ↦ ?_⟩
      rw [follow, follow, advance_append followLast start steps hrest, hadvance]
    next => simp at h
    next => simp at h
    next => simp at h
  | succ links ih =>
    rw [follow] at h
    split at h
    next l hadvance =>
      obtain rfl : l = m := by simpa using h
      refine ⟨links + 1, fun followLast rest hrest ↦ ?_⟩
      rw [follow, follow, advance_append followLast start steps hrest, hadvance]
    next => simp at h
    next => simp at h
    next l target more hadvance =>
      obtain ⟨left, hleft⟩ := ih h
      refine ⟨left, fun followLast rest hrest ↦ ?_⟩
      rw [follow, advance_append followLast start steps hrest, hadvance]
      simp only [← hleft followLast rest hrest, List.append_assoc]

/-- Staying at the end changes nothing. -/
theorem follow_of_append_dot {links : Nat} {start : Location} {steps : List String}
    (h : t.follow true links start (steps ++ ["."]) = .found m) :
    t.follow true links start steps = .found m := by
  have hstay (l : Location) : t.advance true l ["."] = .arrived l ∨ t.advance true l ["."] = .stuck := by
    rw [advance]
    split
    next => exact .inl rfl
    next => exact .inr rfl
  have hne : ["."] ≠ [] := List.cons_ne_nil _ _
  induction links generalizing start steps with
  | zero =>
    rw [follow, advance_append true start steps hne] at h
    rw [follow]
    cases hadvance : t.advance true start steps with
    | arrived l =>
      rcases hstay l with hl | hl
      · simpa only [hadvance, hl] using h
      · simp [hadvance, hl] at h
    | _ => simp [hadvance] at h
  | succ links ih =>
    rw [follow, advance_append true start steps hne] at h
    rw [follow]
    cases hadvance : t.advance true start steps with
    | arrived l =>
      rcases hstay l with hl | hl
      · simpa only [hadvance, hl] using h
      · simp [hadvance, hl] at h
    | linked l target more =>
      simp only [hadvance, ← List.append_assoc] at h
      exact ih h
    | _ => simp [hadvance] at h

/-! ## The path of an entry -/

theorem isAbsolute_of_slash_notMem {s : String} (h : '/' ∉ s.toList) :
    (Path.mk s).isAbsolute = false := by
  rw [Path.isAbsolute, beq_eq_false_iff_ne]
  intro hhead
  exact h (List.mem_of_mem_head? hhead)

theorem text_child (dir : Path) {name : String} (h : '/' ∉ name.toList) :
    (dir.child name).text.toList =
      if dir.text = "" ∨ dir.text.toList.getLast? = some '/' then dir.text.toList ++ name.toList
      else dir.text.toList ++ '/' :: name.toList := by
  rw [Path.child, Path.join, isAbsolute_of_slash_notMem h]
  simp only [Bool.false_eq_true, if_false, Bool.or_eq_true, beq_iff_eq, decide_eq_true_eq]
  split <;> simp

/-- The names between the slashes of a text. -/
def namesBetween (cs : List Char) : List String :=
  ((cs.splitOn '/').filter (· ≠ [])).map String.ofList

theorem namesBetween_append (cs ds : List Char) :
    namesBetween (cs ++ '/' :: ds) = namesBetween cs ++ namesBetween ds := by
  rw [namesBetween, List.splitOn_append_cons_self, List.filter_append, List.map_append]
  rfl

theorem stepsOf_cases (text : String) :
    stepsOf text = namesBetween text.toList ∨ stepsOf text = namesBetween text.toList ++ ["."] := by
  rw [stepsOf]
  split
  · exact .inr rfl
  · exact .inl rfl

/-- A text that ends in a name behind a slash. -/
theorem stepsOf_of_toList {text name : String} {cs : List Char} (h : IsName name)
    (htext : text.toList = cs ++ '/' :: name.toList) :
    stepsOf text = namesBetween cs ++ [name] := by
  have hne : name.toList ≠ [] := by simpa using h.1
  have hname : name.toList.splitOn '/' = [name.toList] := List.splitOn_eq_singleton h.2.2.2
  have hnames : namesBetween name.toList = [name] := by
    simp [namesBetween, hname, h.1]
  rw [stepsOf, if_neg]
  · rw [← hnames, ← namesBetween_append, ← htext]
    rfl
  · rw [htext, List.splitOn_append_cons_self, hname]
    simpa using h.1

/-- The steps of an entry's path are the steps of its directory, except for a last one that stays,
and the name of the entry. -/
theorem stepsOf_child {dir : Path} {name : String} (h : IsName name) (hdir : dir.text ≠ "") :
    ∃ steps, (stepsOf dir.text = steps ∨ stepsOf dir.text = steps ++ ["."]) ∧
      stepsOf (dir.child name).text = steps ++ [name] := by
  have htext := text_child dir h.2.2.2
  split at htext
  next hslash =>
    obtain ⟨cs, hcs⟩ := List.getLast?_eq_some_iff.1 (hslash.resolve_left hdir)
    have hnames : namesBetween dir.text.toList = namesBetween cs := by
      rw [hcs, namesBetween_append]
      simp [namesBetween]
    rw [hcs, List.append_assoc, List.singleton_append] at htext
    exact ⟨namesBetween cs, hnames ▸ stepsOf_cases dir.text, stepsOf_of_toList h htext⟩
  next => exact ⟨_, stepsOf_cases dir.text, stepsOf_of_toList h htext⟩

theorem startOf_child {dir : Path} {name : String} (h : IsName name) (hdir : dir.text ≠ "")
    (base : Location) : startOf (dir.child name).text base = startOf dir.text base := by
  have hne : dir.text.toList ≠ [] := by simpa using hdir
  have hhead : (dir.child name).text.toList.head? = dir.text.toList.head? := by
    rw [text_child dir h.2.2.2]
    split <;> rw [List.head?_append_of_ne_nil _ hne]
  rw [startOf, startOf, hhead]

/-- **The path of an entry goes through its directory.** -/
theorem resolve_child {dir : Path} {name : String} (h : IsName name)
    (hdir : t.resolve dir true = .found l) :
    ∃ left, ∀ followLast, t.resolve (dir.child name) followLast = t.follow followLast left l [name] := by
  have hne : dir.text ≠ "" := by
    intro hempty
    simp [resolve, hempty] at hdir
  rw [resolve, if_neg hne] at hdir
  obtain ⟨steps, hsteps, hchild⟩ := stepsOf_child h hne
  have hfollow : t.follow true linkLimit (startOf dir.text t.here) steps = .found l := by
    rcases hsteps with hsteps | hsteps
    · rwa [hsteps] at hdir
    · exact follow_of_append_dot (hsteps ▸ hdir)
  obtain ⟨left, hleft⟩ := follow_append hfollow
  refine ⟨left, fun followLast ↦ ?_⟩
  have hne' : (dir.child name).text ≠ "" := by
    intro hempty
    have htext := text_child dir h.2.2.2
    rw [hempty] at htext
    split at htext <;> simp [hne] at htext
  rw [resolve, if_neg hne', hchild, startOf_child h hne]
  exact hleft followLast [name] (List.cons_ne_nil _ _)

/-! ## What a directory lists -/

/-- A listed name is that of a node in the directory. -/
theorem exists_of_mem_namesIn {name : String} (h : name ∈ t.namesIn l) :
    ∃ node, (l ++ [name], node) ∈ t.nodes := by
  rw [namesIn, List.mem_mergeSort, List.mem_filterMap] at h
  obtain ⟨⟨m, node⟩, he, hname⟩ := h
  split at hname
  next hin =>
    simp only [ne_eq, Bool.and_eq_true, decide_eq_true_eq] at hin
    have hm : m.dropLast ++ [name] = m := List.dropLast_append_getLast? name hname
    rw [hin.2] at hm
    exact ⟨node, hm ▸ he⟩
  next => simp at hname

theorem isSome_node?_of_mem_namesIn {name : String} (h : name ∈ t.namesIn l) :
    (t.node? (l ++ [name])).isSome = true := by
  obtain ⟨node, hnode⟩ := exists_of_mem_namesIn h
  rw [node?, if_neg (by simp), List.lookup_isSome_iff]
  exact ⟨_, hnode, by simp⟩

theorem isName_of_mem_namesIn (ht : t.Proper) {name : String} (h : name ∈ t.namesIn l) :
    IsName name := by
  obtain ⟨node, hnode⟩ := exists_of_mem_namesIn h
  exact ht _ hnode name (by simp)

/-- A directory that lists something is found at its path. -/
theorem resolve_of_mem_list? {dir : Path} {name : String} (h : name ∈ (t.list? dir).getD []) :
    ∃ l, t.resolve dir true = .found l ∧ t.node? l = some .directory ∧ name ∈ t.namesIn l := by
  rw [list?] at h
  split at h
  next l hl =>
    split at h
    next hnode => exact ⟨l, hl, hnode, h⟩
    next => simp at h
  next => simp at h

theorem isName_of_mem_list? (ht : t.Proper) {dir : Path} {name : String}
    (h : name ∈ (t.list? dir).getD []) : IsName name := by
  obtain ⟨l, -, -, hmem⟩ := resolve_of_mem_list? h
  exact isName_of_mem_namesIn ht hmem

section Listed

variable {dir : Path} {name : String}

/-- The last step to an entry. -/
theorem advance_singleton (h : IsName name) (hnode : t.node? l = some .directory)
    (followLast : Bool) :
    t.advance followLast l [name] =
      match t.node? (l ++ [name]) with
      | none => .absent (l ++ [name])
      | some (.link target) => if followLast then .linked l target [] else .arrived (l ++ [name])
      | some _ => .arrived (l ++ [name]) := by
  rw [advance, hnode]
  simp only [h.2.1, h.2.2.1, if_false]
  cases t.node? (l ++ [name]) with
  | none => rfl
  | some node => cases node <;> cases followLast <;> simp [advance]

/-- What is listed under a name is at its path, if a link is not followed. -/
theorem atLink?_child (h : IsName name) (hdir : t.resolve dir true = .found l)
    (hnode : t.node? l = some .directory) : t.atLink? (dir.child name) = t.node? (l ++ [name]) := by
  obtain ⟨left, hleft⟩ := resolve_child h hdir
  have hadvance := advance_singleton h hnode false
  rw [atLink?, hleft false, follow, hadvance]
  cases hentry : t.node? (l ++ [name]) with
  | none => rfl
  | some node => cases node <;> simp [hentry]

/-- The path of an entry that is not a link leads to that entry. -/
theorem resolve_child_eq_found (h : IsName name) (hdir : t.resolve dir true = .found l)
    (hnode : t.node? l = some .directory) {node : Node} (hentry : t.node? (l ++ [name]) = some node)
    (hlink : ∀ target, node ≠ .link target) :
    t.resolve (dir.child name) true = .found (l ++ [name]) := by
  obtain ⟨left, hleft⟩ := resolve_child h hdir
  have hadvance := advance_singleton h hnode true
  rw [hleft true, follow, hadvance, hentry]
  cases node with
  | link target => exact absurd rfl (hlink target)
  | _ => rfl

/-- What is listed under a name and is not a link is at its path. -/
theorem at?_child (h : IsName name) (hdir : t.resolve dir true = .found l)
    (hnode : t.node? l = some .directory) {node : Node} (hentry : t.node? (l ++ [name]) = some node)
    (hlink : ∀ target, node ≠ .link target) : t.at? (dir.child name) = some node := by
  rw [at?, resolve_child_eq_found h hdir hnode hentry hlink]
  exact hentry

/-- **What a directory lists leads somewhere, or it is a link that leads nowhere.** -/
theorem pathExists_or_dangling (ht : t.Proper) (h : name ∈ (t.list? dir).getD []) :
    t.pathExists (dir.child name) = true ∨ t.Dangling (dir.child name) := by
  obtain ⟨l, hdir, hnode, hmem⟩ := resolve_of_mem_list? h
  have hname := isName_of_mem_namesIn ht hmem
  obtain ⟨node, hentry⟩ := Option.isSome_iff_exists.1 (isSome_node?_of_mem_namesIn hmem)
  by_cases hexists : t.pathExists (dir.child name) = true
  · exact .inl hexists
  · refine .inr ⟨?_, Bool.not_eq_true _ ▸ hexists⟩
    cases node with
    | link target => exact ⟨target, (atLink?_child hname hdir hnode).trans hentry⟩
    | _ =>
      have hat := at?_child hname hdir hnode hentry (by simp)
      exact absurd (by rw [pathExists, hat]; rfl) hexists

end Listed

end FileTree

end ChangeContext
