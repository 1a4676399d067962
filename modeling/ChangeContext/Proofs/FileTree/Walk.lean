import ChangeContext.FileTree.Walk
import ChangeContext.Proofs.FileTree.Trail

/-!
# What a walk meets

A walk goes down from a directory by names and through no link, so whatever it meets lies at the
location of the directory with a trail behind it, and everything on the way is a directory
(`LeadsDown`).  `metIn` lists the trails with the nodes at their ends, as the walk comes to them.
These are all trails that are not too long and on which no directory is passed over
(`mem_metIn_iff`), in ascending order (`pairwise_metIn`).  For trails this is the order of a walk that
goes depth first and takes the entries of a directory by name: a directory comes before what is below
it, and all of that before the next entry.
-/

set_option autoImplicit false

namespace ChangeContext

namespace FileTree

/-- The trail leads down from a location to this node, through directories all the way. -/
structure LeadsDown (t : FileTree) (l : Location) (trail : List String) (node : Node) : Prop where
  arrives : t.node? (l ++ trail) = some node
  through : ∀ front, front <+: trail → front ≠ trail → t.node? (l ++ front) = some .directory

variable {t : FileTree} {l : Location} {dir : Path} {name : String} {trail rest : List String}
  {node : Node}

theorem leadsDown_nil_iff : t.LeadsDown l [] node ↔ t.node? l = some node := by
  constructor
  · intro h
    simpa using h.arrives
  · intro h
    exact ⟨by simpa using h, fun front hfront hne ↦ absurd (List.prefix_nil.1 hfront) hne⟩

theorem leadsDown_cons_iff : t.LeadsDown l (name :: rest) node ↔
    t.node? l = some .directory ∧ t.LeadsDown (l ++ [name]) rest node := by
  constructor
  · intro h
    refine ⟨by simpa using h.through [] List.nil_prefix (by simp), by simpa using h.arrives, ?_⟩
    intro front hfront hne
    simpa using h.through (name :: front) (List.cons_prefix_cons.2 ⟨rfl, hfront⟩) (by simpa using hne)
  · rintro ⟨hdir, hrest⟩
    refine ⟨by simpa using hrest.arrives, fun front hfront hne ↦ ?_⟩
    rcases List.prefix_cons_iff.1 hfront with rfl | ⟨tail, rfl, htail⟩
    · simpa using hdir
    · simpa using hrest.through tail htail (by simpa using hne)

/-- What a trail with names on it begins at is a directory. -/
theorem LeadsDown.directory (h : t.LeadsDown l trail node) (hne : trail ≠ []) :
    t.node? l = some .directory := by
  obtain ⟨name, rest, rfl⟩ := List.exists_cons_of_ne_nil hne
  exact (leadsDown_cons_iff.1 h).1

/-- A trail that leads anywhere is made of names that a directory can hold. -/
theorem LeadsDown.names (ht : t.Proper) (h : t.LeadsDown l trail node) :
    ∀ name ∈ trail, IsName name := by
  intro name hname
  have hnode := h.arrives
  have hne : (l ++ trail).isEmpty = false := by
    rw [List.isEmpty_eq_false_iff]
    exact fun hnil ↦ List.not_mem_nil ((List.append_eq_nil_iff.1 hnil).2 ▸ hname)
  rw [node?, hne] at hnode
  obtain ⟨before, after, hnodes, -⟩ := List.lookup_eq_some_iff.1 hnode
  exact ht (l ++ trail, node) (by simp [hnodes]) name (List.mem_append_right _ hname)

/-- **Where a trail leads, there its path leads, too.** -/
theorem LeadsDown.at?_below (ht : t.Proper) (h : t.LeadsDown l trail node)
    (hdir : t.resolve dir true = .found l) (hlink : ∀ target, node ≠ .link target) :
    t.at? (dir.below trail) = some node := by
  have hnames := h.names ht
  induction trail generalizing dir l with
  | nil =>
    rw [Path.below_nil, at?, hdir]
    exact leadsDown_nil_iff.1 h
  | cons name rest ih =>
    obtain ⟨hname, hrestNames⟩ := List.forall_mem_cons.1 hnames
    obtain ⟨hnode, hrest⟩ := leadsDown_cons_iff.1 h
    refine ih hrest ?_ hrestNames
    cases rest with
    | nil => exact resolve_child_eq_found hname hdir hnode (leadsDown_nil_iff.1 hrest) hlink
    | cons next rest =>
      exact resolve_child_eq_found hname hdir hnode (hrest.directory (List.cons_ne_nil _ _)) (by simp)

/-! ## The trails of a walk -/

/-- What is met at an entry of the directory at `l` and below it; what is met below a directory is
given. -/
def metAt (t : FileTree) (skips : String → Bool) (below : Location → List (List String × Node))
    (l : Location) (name : String) : List (List String × Node) :=
  match t.node? (l ++ [name]) with
  | none => []
  | some .directory =>
    if skips name then []
    else ([name], .directory) :: (below (l ++ [name])).map fun m ↦ (name :: m.1, m.2)
  | some node => [([name], node)]

/-- What is met at most `levels` levels below the directory at `l`: the trails and the nodes at their
ends. -/
def metIn (t : FileTree) (skips : String → Bool) :
    (levels : Nat) → Location → List (List String × Node)
  | 0, _ => []
  | levels + 1, l => (t.namesIn l).flatMap (t.metAt skips (metIn t skips levels) l)

/-- **A walk meets what its trails lead to.** -/
theorem walkIn_eq (ht : t.Proper) (skips : String → Bool) (levels : Nat)
    (hdir : t.resolve dir true = .found l) (hnode : t.node? l = some .directory) :
    t.walkIn skips levels dir =
      (t.metIn skips levels l).map fun m ↦ ⟨dir.below m.1, m.2⟩ := by
  induction levels generalizing dir l with
  | zero => rfl
  | succ levels ih =>
    have hlist : t.list? dir = some (t.namesIn l) := by
      rw [list?, hdir]
      exact if_pos hnode
    rw [walkIn, metIn, hlist, Option.getD_some, List.map_flatMap]
    refine List.flatMap_congr fun name hmem ↦ ?_
    have hname := isName_of_mem_namesIn ht hmem
    simp only [atLink?_child hname hdir hnode, metAt]
    cases hentry : t.node? (l ++ [name]) with
    | none => rfl
    | some entry =>
      cases entry with
      | directory =>
        have hchild := resolve_child_eq_found hname hdir hnode hentry (by simp)
        by_cases hskips : skips name = true
        · simp [hskips]
        · simp [hskips, ih hchild hentry]
      | _ => rfl

/-- A walk from anywhere but a directory meets nothing. -/
theorem walkIn_of_not_directory (skips : String → Bool) (levels : Nat)
    (hdir : t.at? dir ≠ some .directory) : t.walkIn skips levels dir = [] := by
  cases levels with
  | zero => rfl
  | succ levels =>
    have hlist : t.list? dir = none := by
      rw [at?] at hdir
      rw [list?]
      split
      next l hl =>
        rw [hl] at hdir
        exact if_neg hdir
      next => rfl
    rw [walkIn, hlist]
    rfl

/-- How something can be met at an entry. -/
theorem mem_metAt_iff {skips : String → Bool} {below : Location → List (List String × Node)}
    {m : List String × Node} :
    m ∈ t.metAt skips below l name ↔
      (∃ node, t.node? (l ++ [name]) = some node ∧ node ≠ .directory ∧ m = ([name], node)) ∨
      (t.node? (l ++ [name]) = some .directory ∧ skips name = false ∧
        (m = ([name], .directory) ∨
          ∃ m' ∈ below (l ++ [name]), m = (name :: m'.1, m'.2))) := by
  rw [metAt]
  cases hentry : t.node? (l ++ [name]) with
  | none => simp
  | some entry =>
    cases entry with
    | directory =>
      by_cases hskips : skips name = true
      · simp [hskips]
      · simp [hskips, eq_comm]
    | _ => simp

/-- **A walk meets everything but directories that lies at the end of a trail**, as long as the trail
is not too long and no directory on it is passed over. -/
theorem mem_metIn_iff {skips : String → Bool} {levels : Nat} (hdir : t.node? l = some .directory)
    (hnode : node ≠ .directory) :
    (trail, node) ∈ t.metIn skips levels l ↔
      t.LeadsDown l trail node ∧ trail.length ≤ levels ∧
        ∀ name ∈ trail.dropLast, skips name = false := by
  induction levels generalizing l trail with
  | zero =>
    constructor
    · intro h
      exact absurd h List.not_mem_nil
    · rintro ⟨hleads, hlength, -⟩
      obtain rfl := List.length_eq_zero_iff.1 (Nat.le_zero.1 hlength)
      exact absurd ((leadsDown_nil_iff.1 hleads).symm.trans hdir) (by simpa using hnode)
  | succ levels ih =>
    rw [metIn, List.mem_flatMap]
    constructor
    · rintro ⟨name, -, hmet⟩
      rcases mem_metAt_iff.1 hmet with
        ⟨entry, hentry, -, heq⟩ | ⟨hentry, hskips, heq | ⟨⟨rest, _⟩, hrest, heq⟩⟩
      · obtain ⟨rfl, rfl⟩ := Prod.mk.inj heq
        exact ⟨leadsDown_cons_iff.2 ⟨hdir, leadsDown_nil_iff.2 hentry⟩, by simp, by simp⟩
      · exact absurd (Prod.mk.inj heq).2 hnode
      · obtain ⟨rfl, rfl⟩ := Prod.mk.inj heq
        obtain ⟨hleads, hlength, hallowed⟩ := (ih hentry).1 hrest
        have hne : rest ≠ [] := by
          rintro rfl
          exact hnode (Option.some_inj.1 ((leadsDown_nil_iff.1 hleads).symm.trans hentry))
        refine ⟨leadsDown_cons_iff.2 ⟨hdir, hleads⟩, by simpa using hlength, ?_⟩
        rw [List.dropLast_cons_of_ne_nil hne]
        exact List.forall_mem_cons.2 ⟨hskips, hallowed⟩
    · rintro ⟨hleads, hlength, hallowed⟩
      match trail with
      | [] => exact absurd ((leadsDown_nil_iff.1 hleads).symm.trans hdir) (by simpa using hnode)
      | [name] =>
        have hentry := leadsDown_nil_iff.1 (leadsDown_cons_iff.1 hleads).2
        exact ⟨name, mem_namesIn_of_isSome (by rw [hentry]; rfl),
          mem_metAt_iff.2 (.inl ⟨node, hentry, hnode, rfl⟩)⟩
      | name :: next :: rest =>
        have hne : next :: rest ≠ [] := List.cons_ne_nil _ _
        have hrest := (leadsDown_cons_iff.1 hleads).2
        have hentry := hrest.directory hne
        rw [List.dropLast_cons_of_ne_nil hne] at hallowed
        obtain ⟨hskips, hrestAllowed⟩ := List.forall_mem_cons.1 hallowed
        have hmet := (ih hentry).2 ⟨hrest, by simpa using hlength, hrestAllowed⟩
        exact ⟨name, mem_namesIn_of_isSome (by rw [hentry]; rfl),
          mem_metAt_iff.2 (.inr ⟨hentry, hskips, .inr ⟨_, hmet, rfl⟩⟩)⟩

/-- All that is met at an entry has the entry first on its trail. -/
theorem exists_cons_of_mem_metAt {skips : String → Bool}
    {below : Location → List (List String × Node)} {m : List String × Node}
    (h : m ∈ t.metAt skips below l name) : ∃ rest, m.1 = name :: rest := by
  rcases mem_metAt_iff.1 h with ⟨node, -, -, rfl⟩ | ⟨-, -, rfl | ⟨m', -, rfl⟩⟩
  · exact ⟨[], rfl⟩
  · exact ⟨[], rfl⟩
  · exact ⟨m'.1, rfl⟩

theorem ne_nil_of_mem_metIn {skips : String → Bool} {levels : Nat} {m : List String × Node}
    (h : m ∈ t.metIn skips levels l) : m.1 ≠ [] := by
  cases levels with
  | zero => exact absurd h List.not_mem_nil
  | succ levels =>
    obtain ⟨name, -, hmet⟩ := List.mem_flatMap.1 h
    obtain ⟨rest, heq⟩ := exists_cons_of_mem_metAt hmet
    rw [heq]
    exact List.cons_ne_nil _ _

/-- A trail is made of names that a directory can hold. -/
theorem isName_of_mem_metIn (ht : t.Proper) {skips : String → Bool} {levels : Nat}
    {m : List String × Node} (h : m ∈ t.metIn skips levels l) : ∀ name ∈ m.1, IsName name := by
  induction levels generalizing l m with
  | zero => exact absurd h List.not_mem_nil
  | succ levels ih =>
    obtain ⟨name, hlisted, hmet⟩ := List.mem_flatMap.1 h
    have hname := isName_of_mem_namesIn ht hlisted
    rcases mem_metAt_iff.1 hmet with ⟨node, -, -, rfl⟩ | ⟨-, -, rfl | ⟨m', hm', rfl⟩⟩
    · exact List.forall_mem_singleton.2 hname
    · exact List.forall_mem_singleton.2 hname
    · exact List.forall_mem_cons.2 ⟨hname, ih hm'⟩

/-- An entry comes before what is below it, and that is in order if the lists below are. -/
theorem pairwise_metAt {skips : String → Bool} {below : Location → List (List String × Node)}
    (hne : ∀ m ∈ below (l ++ [name]), m.1 ≠ [])
    (hbelow : ((below (l ++ [name])).map (·.1)).Pairwise (· < ·)) :
    ((t.metAt skips below l name).map (·.1)).Pairwise (· < ·) := by
  rw [metAt]
  split
  next => exact .nil
  next =>
    split
    next => exact .nil
    next =>
      rw [List.map_cons, List.pairwise_cons]
      constructor
      · simp only [List.map_map, List.forall_mem_map]
        intro m hm
        obtain ⟨next, rest, hrest⟩ := List.exists_cons_of_ne_nil (hne m hm)
        simp [hrest]
      · rw [List.map_map]
        rw [List.pairwise_map] at hbelow ⊢
        exact hbelow.imp fun hlt ↦ List.cons_lt_cons_iff.2 (.inr ⟨rfl, hlt⟩)
  next => exact List.pairwise_singleton _ _

/-- **A walk comes to the trails in ascending order.** -/
theorem pairwise_metIn (ht : t.Distinct) (skips : String → Bool) (levels : Nat) (l : Location) :
    ((t.metIn skips levels l).map (·.1)).Pairwise (· < ·) := by
  induction levels generalizing l with
  | zero => exact .nil
  | succ levels ih =>
    rw [metIn, List.map_flatMap]
    refine List.pairwise_flatMap.2 ⟨fun name _ ↦ ?_, ?_⟩
    · exact pairwise_metAt (fun m hm ↦ ne_nil_of_mem_metIn hm) (ih _)
    · -- all that is at and below an entry comes before the next
      refine (pairwise_namesIn ht l).imp fun hlt a ha b hb ↦ ?_
      obtain ⟨m, hm, rfl⟩ := List.mem_map.1 ha
      obtain ⟨m', hm', rfl⟩ := List.mem_map.1 hb
      obtain ⟨rest, heq⟩ := exists_cons_of_mem_metAt hm
      obtain ⟨rest', heq'⟩ := exists_cons_of_mem_metAt hm'
      rw [heq, heq']
      exact List.cons_lt_cons_iff.2 (.inl hlt)

/-! ## Where a walk starts -/

/-- It only makes a difference at a link whether the last link of a path is followed. -/
theorem advance_false_cases (l : Location) (steps : List String) :
    t.advance false l steps = t.advance true l steps ∨
      ∃ m target, t.advance false l steps = .arrived m ∧ t.node? m = some (.link target) := by
  induction steps generalizing l with
  | nil => exact .inl rfl
  | cons step rest ih =>
    rw [advance, advance]
    split
    · split
      · exact ih _
      · split
        · exact ih _
        · split
          · exact .inl rfl
          next target htarget =>
            by_cases hrest : rest.isEmpty = true
            · exact .inr ⟨l ++ [step], target, by simp [hrest], htarget⟩
            · exact .inl (by simp [hrest])
          · exact ih _
    · exact .inl rfl

theorem follow_false_cases (links : Nat) (l : Location) (steps : List String) :
    t.follow false links l steps = t.follow true links l steps ∨
      ∃ m target, t.follow false links l steps = .found m ∧ t.node? m = some (.link target) := by
  induction links generalizing l steps with
  | zero =>
    rw [follow, follow]
    rcases t.advance_false_cases l steps with heq | ⟨m, target, heq, hm⟩
    · exact .inl (by rw [heq])
    · exact .inr ⟨m, target, by rw [heq], hm⟩
  | succ links ih =>
    rw [follow, follow]
    rcases t.advance_false_cases l steps with heq | ⟨m, target, heq, hm⟩
    · rw [heq]
      cases t.advance true l steps with
      | linked l target rest => exact ih _ _
      | _ => exact .inl rfl
    · exact .inr ⟨m, target, by rw [heq], hm⟩

/-- What is at the end of a path is what the path leads to, or else it is a link. -/
theorem atLink?_cases (t : FileTree) (p : Path) :
    t.atLink? p = t.at? p ∨ ∃ target, t.atLink? p = some (.link target) := by
  rw [atLink?, at?, resolve, resolve]
  by_cases hempty : p.text = ""
  · rw [if_pos hempty, if_pos hempty]
    exact .inl rfl
  · rw [if_neg hempty, if_neg hempty]
    rcases t.follow_false_cases linkLimit (startOf p.text t.here) (stepsOf p.text) with
      heq | ⟨m, target, heq, hm⟩
    · exact .inl (by rw [heq])
    · exact .inr ⟨target, by rw [heq]; exact hm⟩

/-- **A walk meets nothing where there is nothing, and else the path first** and then what the walk
through the directory meets, if it is one. -/
theorem walk_cases (t : FileTree) (skips : String → Bool) (levels : Nat) (root : Path) :
    t.pathExists root = false ∧ t.walk skips levels root = [] ∨
      ∃ node, t.atLink? root = some node ∧
        t.walk skips levels root = ⟨root, node⟩ :: t.walkIn skips levels root := by
  have hat := t.atLink?_cases root
  rw [walk]
  cases hroot : t.atLink? root with
  | none =>
    have hnone : t.at? root = none := by simpa [hroot, eq_comm] using hat
    exact .inl ⟨by rw [pathExists, hnone]; rfl, rfl⟩
  | some node =>
    cases node with
    | directory => exact .inr ⟨_, rfl, rfl⟩
    | file bytes modified =>
      have hfile : t.at? root = some (.file bytes modified) := by simpa [hroot, eq_comm] using hat
      refine .inr ⟨_, rfl, ?_⟩
      rw [walkIn_of_not_directory skips levels (by simp [hfile])]
    | link target =>
      by_cases hdir : t.isDir root = true
      · exact .inr ⟨_, rfl, by simp [hdir]⟩
      · have hnot : t.at? root ≠ some .directory := by
          intro h
          simp [isDir, h] at hdir
        by_cases hexists : t.pathExists root = true
        · refine .inr ⟨_, rfl, ?_⟩
          rw [walkIn_of_not_directory skips levels hnot]
          simp [hdir, hexists]
        · exact .inl ⟨by simpa using hexists, by simp [hdir, hexists]⟩

/-- What a walk says is at a path is there. -/
theorem atLink?_of_mem_walkIn {skips : String → Bool} {levels : Nat} {v : Visit}
    (h : v ∈ t.walkIn skips levels dir) : t.atLink? v.path = some v.node := by
  induction levels generalizing dir with
  | zero => exact absurd h List.not_mem_nil
  | succ levels ih =>
    rw [walkIn, List.mem_flatMap] at h
    obtain ⟨name, -, h⟩ := h
    dsimp only at h
    split at h
    next => exact absurd h List.not_mem_nil
    next hdir =>
      split at h
      · exact absurd h List.not_mem_nil
      · rcases List.mem_cons.1 h with rfl | h
        · exact hdir
        · exact ih h
    next node hnode =>
      obtain rfl := List.mem_singleton.1 h
      exact hnode

theorem atLink?_of_mem_walk {skips : String → Bool} {levels : Nat} {root : Path}
    {v : Visit} (h : v ∈ t.walk skips levels root) : t.atLink? v.path = some v.node := by
  rcases t.walk_cases skips levels root with ⟨-, hwalk⟩ | ⟨node, hroot, hwalk⟩
  · rw [hwalk] at h
    exact absurd h List.not_mem_nil
  · rw [hwalk] at h
    rcases List.mem_cons.1 h with rfl | h
    · exact hroot
    · exact atLink?_of_mem_walkIn h

/-- **What a walk meets lies below its start, in ascending order.** -/
theorem exists_walk_eq (ht : t.Proper) (hd : t.Distinct) (skips : String → Bool) (levels : Nat)
    (root : Path) :
    ∃ met : List (List String × Node),
      t.walk skips levels root = met.map (fun m ↦ ⟨root.below m.1, m.2⟩) ∧
        (met.map (·.1)).Pairwise (· < ·) ∧ ∀ m ∈ met, ∀ name ∈ m.1, IsName name := by
  rcases t.walk_cases skips levels root with ⟨-, hwalk⟩ | ⟨node, -, hwalk⟩
  · exact ⟨[], hwalk, .nil, by simp⟩
  · by_cases hdir : t.at? root = some .directory
    · have hresolved := hdir
      rw [at?] at hresolved
      split at hresolved
      next l hl =>
        refine ⟨([], node) :: t.metIn skips levels l, ?_, ?_, ?_⟩
        · rw [hwalk, walkIn_eq ht skips levels hl hresolved]
          rfl
        · refine List.pairwise_cons.2 ⟨?_, pairwise_metIn hd skips levels l⟩
          simp only [List.forall_mem_map]
          intro m hm
          obtain ⟨name, rest, heq⟩ := List.exists_cons_of_ne_nil (ne_nil_of_mem_metIn hm)
          simp [heq]
        · exact List.forall_mem_cons.2 ⟨by simp, fun m hm ↦ isName_of_mem_metIn ht hm⟩
      next => simp at hresolved
    · refine ⟨[([], node)], ?_, List.pairwise_singleton _ _, by simp⟩
      rw [hwalk, walkIn_of_not_directory skips levels hdir]
      rfl

end FileTree

end ChangeContext
