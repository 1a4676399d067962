import ChangeContext.Mention.Nearest
import ChangeContext.Proofs.FileTree.Trail

/-!
# The nearest file of a name

The search goes down level by level, and it keeps only the directories of the level it is at.  Here
the trails to these directories are kept with them.  On every level they are the trails of this length
that go through no ignored directory (`mem_trailsAt_iff`), in the order of their names
(`pairwise_trailsAt`), and the next level is made of what each of them opens into
(`flatMap_openDirs_trailsAt`).  So the search asks one trail after the other, the shorter before the
longer and those of one length by name (`searchBelow_eq`), and what it answers with is the first that
has an entry of the name.

`Nearest` says this without the search.  The main statement is that the search answers with the
nearest entry below the first directory of `sourceRoots` that has one, and with nothing only if none
of them has one (`nearest?_is_nearest`).
-/

set_option autoImplicit false

namespace ChangeContext

namespace Mention

/-! ## What is looked for -/

/-- The names lead down from a directory, each to a directory that is not ignored. -/
def Opens (t : FileTree) (ignored : List String) : Path → List String → Prop
  | _, [] => True
  | dir, name :: trail =>
    (name ∈ (t.list? dir).getD [] ∧ t.isDir (dir.child name) = true ∧ name ∉ ignored) ∧
      Opens t ignored (dir.child name) trail

/-- The directory has an entry of this name that is not a directory itself. -/
def HasEntry (t : FileTree) (name : String) (dir : Path) : Prop :=
  name ∈ (t.list? dir).getD [] ∧ t.isDir (dir.child name) = false

/-- The trail leads to a directory with such an entry, not too far down and through no ignored
directory. -/
structure Holds (t : FileTree) (ignored : List String) (name : String) (start : Path)
    (trail : List String) : Prop where
  opens : Opens t ignored start trail
  length_le : trail.length ≤ searchLevels
  entry : HasEntry t name (start.below trail)

/-- Fewer levels come first, and of as many levels the names decide, the uppermost first. -/
def Sooner (trail other : List String) : Prop :=
  trail.length < other.length ∨ trail.length = other.length ∧ trail < other

/-- Of all trails to such an entry this is the first. -/
structure Nearest (t : FileTree) (ignored : List String) (name : String) (start : Path)
    (trail : List String) : Prop where
  holds : Holds t ignored name start trail
  first : ∀ other, Holds t ignored name start other → other = trail ∨ Sooner trail other

variable {t : FileTree} {ignored : List String} {name : String} {start dir p : Path}
  {trail other : List String}

theorem Sooner.asymm (h : Sooner trail other) : ¬ Sooner other trail := by
  rintro (hlt | ⟨heq, hlt⟩)
  · rcases h with h | ⟨h, -⟩ <;> omega
  · rcases h with h | ⟨-, h⟩
    · omega
    · exact List.lt_asymm h hlt

theorem Sooner.irrefl (trail : List String) : ¬ Sooner trail trail :=
  fun h ↦ h.asymm h

theorem Opens.notMem (h : Opens t ignored dir trail) : ∀ name ∈ trail, name ∉ ignored := by
  induction trail generalizing dir with
  | nil => simp
  | cons name rest ih =>
    obtain ⟨⟨-, -, hname⟩, hrest⟩ := h
    exact List.forall_mem_cons.2 ⟨hname, ih hrest⟩

theorem Opens.isName (ht : t.Proper) (h : Opens t ignored dir trail) :
    ∀ name ∈ trail, FileTree.IsName name := by
  induction trail generalizing dir with
  | nil => simp
  | cons name rest ih =>
    obtain ⟨⟨hlisted, -, -⟩, hrest⟩ := h
    exact List.forall_mem_cons.2 ⟨FileTree.isName_of_mem_list? ht hlisted, ih hrest⟩

theorem entryIn?_eq_some_iff : entryIn? t name dir = some p ↔
    HasEntry t name dir ∧ dir.child name = p := by
  rw [entryIn?, Option.ite_none_right_eq_some, Option.some_inj, Bool.and_eq_true,
    List.contains_iff_mem, Bool.not_eq_true', HasEntry]

theorem entryIn?_eq_none_iff : entryIn? t name dir = none ↔ ¬ HasEntry t name dir := by
  rw [Option.eq_none_iff_forall_ne_some]
  simp only [ne_eq, entryIn?_eq_some_iff, not_and]
  exact ⟨fun h hentry ↦ h _ hentry rfl, fun h p hentry ↦ absurd hentry h⟩

/-! ## The trails of a level -/

/-- The names of the directories in a directory that the search goes into. -/
def openNames (t : FileTree) (ignored : List String) (dir : Path) : List String :=
  ((t.list? dir).getD []).filter fun name ↦ t.isDir (dir.child name) && !ignored.contains name

/-- The trails to the directories that the search comes to so many levels below a directory. -/
def trailsAt (t : FileTree) (ignored : List String) : (depth : Nat) → Path → List (List String)
  | 0, _ => [[]]
  | depth + 1, dir => (openNames t ignored dir).flatMap fun name ↦
      (trailsAt t ignored depth (dir.child name)).map (name :: ·)

theorem mem_openNames_iff : name ∈ openNames t ignored dir ↔
    name ∈ (t.list? dir).getD [] ∧ t.isDir (dir.child name) = true ∧ name ∉ ignored := by
  simp [openNames]

theorem openDirs_eq (t : FileTree) (ignored : List String) (dir : Path) :
    openDirs t ignored dir = (openNames t ignored dir).map dir.child := by
  rw [openDirs, openNames, ← List.filterMap_eq_map, List.filterMap_filter]
  rfl

/-- **The trails of a level are those of its length that the search may go.** -/
theorem mem_trailsAt_iff {depth : Nat} :
    trail ∈ trailsAt t ignored depth dir ↔ trail.length = depth ∧ Opens t ignored dir trail := by
  induction depth generalizing dir trail with
  | zero =>
    rw [trailsAt, List.mem_singleton, List.length_eq_zero_iff]
    constructor
    · rintro rfl
      exact ⟨rfl, trivial⟩
    · exact fun h ↦ h.1
  | succ depth ih =>
    rw [trailsAt, List.mem_flatMap]
    constructor
    · rintro ⟨name, hname, h⟩
      obtain ⟨rest, hrest, rfl⟩ := List.mem_map.1 h
      obtain ⟨hlength, hopens⟩ := ih.1 hrest
      exact ⟨congrArg Nat.succ hlength, mem_openNames_iff.1 hname, hopens⟩
    · rintro ⟨hlength, hopens⟩
      cases trail with
      | nil => simp at hlength
      | cons name rest =>
        obtain ⟨hname, hrest⟩ := hopens
        exact ⟨name, mem_openNames_iff.2 hname,
          List.mem_map_of_mem (ih.2 ⟨Nat.succ.inj hlength, hrest⟩)⟩

/-- **The trails of a level are in the order of their names.** -/
theorem pairwise_trailsAt (ht : t.Distinct) (depth : Nat) (dir : Path) :
    (trailsAt t ignored depth dir).Pairwise (· < ·) := by
  induction depth generalizing dir with
  | zero => exact List.pairwise_singleton _ _
  | succ depth ih =>
    rw [trailsAt, List.pairwise_flatMap]
    constructor
    · intro name _
      refine List.pairwise_map.2 ((ih (dir.child name)).imp fun h ↦ ?_)
      exact List.cons_lt_cons_iff.2 (.inr ⟨rfl, h⟩)
    · refine ((FileTree.pairwise_list? ht dir).sublist List.filter_sublist).imp ?_
      intro name other hlt trail htrail trail' htrail'
      obtain ⟨rest, -, rfl⟩ := List.mem_map.1 htrail
      obtain ⟨rest', -, rfl⟩ := List.mem_map.1 htrail'
      exact List.cons_lt_cons_iff.2 (.inl hlt)

/-- **What the directories of a level open into are the directories of the next.** -/
theorem flatMap_openDirs_trailsAt (depth : Nat) (dir : Path) :
    ((trailsAt t ignored depth dir).map dir.below).flatMap (openDirs t ignored) =
      (trailsAt t ignored (depth + 1) dir).map dir.below := by
  induction depth generalizing dir with
  | zero =>
    rw [trailsAt, trailsAt, List.map_singleton, List.flatMap_singleton, Path.below_nil, openDirs_eq,
      List.map_flatMap, List.map_eq_flatMap]
    rfl
  | succ depth ih =>
    rw [trailsAt, trailsAt, List.map_flatMap, List.map_flatMap, List.flatMap_assoc]
    refine List.flatMap_congr fun name _ ↦ ?_
    have hbelow : dir.below ∘ (name :: ·) = (dir.child name).below := rfl
    rw [List.map_map, List.map_map, hbelow, ih]

/-! ## The search -/

/-- The trails that the search goes, in its order, from a level on. -/
def trailsFrom (t : FileTree) (ignored : List String) (start : Path) (depth levels : Nat) :
    List (List String) :=
  (List.range' depth (levels + 1)).flatMap fun depth ↦ trailsAt t ignored depth start

theorem trailsFrom_zero (t : FileTree) (ignored : List String) (start : Path) (depth : Nat) :
    trailsFrom t ignored start depth 0 = trailsAt t ignored depth start := by
  simp [trailsFrom]

theorem trailsFrom_succ (t : FileTree) (ignored : List String) (start : Path)
    (depth levels : Nat) : trailsFrom t ignored start depth (levels + 1) =
      trailsAt t ignored depth start ++ trailsFrom t ignored start (depth + 1) levels := by
  rw [trailsFrom, List.range'_succ, List.flatMap_cons]
  rfl

theorem mem_trailsFrom_iff {depth levels : Nat} : trail ∈ trailsFrom t ignored start depth levels ↔
    (depth ≤ trail.length ∧ trail.length ≤ depth + levels) ∧ Opens t ignored start trail := by
  simp only [trailsFrom, List.mem_flatMap, List.mem_range'_1, mem_trailsAt_iff]
  constructor
  · rintro ⟨_, hrange, rfl, hopens⟩
    exact ⟨by omega, hopens⟩
  · rintro ⟨hrange, hopens⟩
    exact ⟨trail.length, by omega, rfl, hopens⟩

theorem pairwise_trailsFrom (ht : t.Distinct) (ignored : List String) (start : Path)
    (depth levels : Nat) : (trailsFrom t ignored start depth levels).Pairwise Sooner := by
  rw [trailsFrom, List.pairwise_flatMap]
  constructor
  · intro depth _
    refine (pairwise_trailsAt ht depth start).imp_of_mem fun htrail hother hlt ↦ ?_
    exact .inr ⟨(mem_trailsAt_iff.1 htrail).1.trans (mem_trailsAt_iff.1 hother).1.symm, hlt⟩
  · refine (List.pairwise_lt_range' 1).imp fun hlt trail htrail other hother ↦ .inl ?_
    rwa [(mem_trailsAt_iff.1 htrail).1, (mem_trailsAt_iff.1 hother).1]

/-- **The search asks the directories at its trails, one after the other.** -/
theorem searchBelow_eq (t : FileTree) (ignored : List String) (name : String) (start : Path)
    (depth levels : Nat) :
    searchBelow t ignored name levels ((trailsAt t ignored depth start).map start.below) =
      (trailsFrom t ignored start depth levels).findSome? fun trail ↦
        entryIn? t name (start.below trail) := by
  have hlevel : ((trailsAt t ignored depth start).map start.below).findSome? (entryIn? t name) =
      (trailsAt t ignored depth start).findSome? fun trail ↦ entryIn? t name (start.below trail) :=
    List.findSome?_map
  induction levels generalizing depth with
  | zero =>
    rw [searchBelow, hlevel, trailsFrom_zero]
    split
    next found hfound => exact hfound.symm
    next hnone => exact hnone.symm
  | succ levels ih =>
    rw [searchBelow, hlevel, flatMap_openDirs_trailsAt, ih (depth + 1) List.findSome?_map,
      trailsFrom_succ, List.findSome?_append]
    split
    next found hfound => rw [hfound, Option.some_or]
    next hnone => rw [hnone, Option.none_or]

theorem searchBelow_singleton_eq (t : FileTree) (ignored : List String) (name : String)
    (start : Path) : searchBelow t ignored name searchLevels [start] =
      (trailsFrom t ignored start 0 searchLevels).findSome? fun trail ↦
        entryIn? t name (start.below trail) :=
  searchBelow_eq t ignored name start 0 searchLevels

theorem holds_iff : Holds t ignored name start trail ↔
    trail ∈ trailsFrom t ignored start 0 searchLevels ∧ HasEntry t name (start.below trail) := by
  rw [mem_trailsFrom_iff]
  constructor
  · intro h
    exact ⟨⟨⟨Nat.zero_le _, by simpa using h.length_le⟩, h.opens⟩, h.entry⟩
  · rintro ⟨⟨hlength, hopens⟩, hentry⟩
    exact ⟨hopens, by simpa using hlength.2, hentry⟩

theorem searchBelow_eq_none_iff : searchBelow t ignored name searchLevels [start] = none ↔
    ∀ trail, ¬ Holds t ignored name start trail := by
  rw [searchBelow_singleton_eq, List.findSome?_eq_none_iff]
  simp only [entryIn?_eq_none_iff, holds_iff, not_and]

/-- **The search answers with the nearest entry.** -/
theorem searchBelow_eq_some_iff (ht : t.Distinct) :
    searchBelow t ignored name searchLevels [start] = some p ↔
      ∃ trail, Nearest t ignored name start trail ∧ p = (start.below trail).child name := by
  have hsorted := pairwise_trailsFrom ht ignored start 0 searchLevels
  rw [searchBelow_singleton_eq, List.findSome?_eq_some_iff]
  constructor
  · rintro ⟨before, trail, after, heq, hfound, hbefore⟩
    rw [heq] at hsorted
    obtain ⟨hentry, rfl⟩ := entryIn?_eq_some_iff.1 hfound
    refine ⟨trail, ⟨holds_iff.2 ⟨by simp [heq], hentry⟩, fun other hother ↦ ?_⟩, rfl⟩
    obtain ⟨hmem, hentry'⟩ := holds_iff.1 hother
    rw [heq] at hmem
    rcases List.mem_append.1 hmem with hmem | hmem
    · exact absurd hentry' (entryIn?_eq_none_iff.1 (hbefore other hmem))
    · rcases List.mem_cons.1 hmem with rfl | hmem
      · exact .inl rfl
      · exact .inr ((List.pairwise_cons.1 (List.pairwise_append.1 hsorted).2.1).1 other hmem)
  · rintro ⟨trail, hnearest, rfl⟩
    obtain ⟨hmem, hentry⟩ := holds_iff.1 hnearest.holds
    obtain ⟨before, after, heq⟩ := List.append_of_mem hmem
    refine ⟨before, trail, after, heq, entryIn?_eq_some_iff.2 ⟨hentry, rfl⟩, fun other hother ↦ ?_⟩
    rw [heq] at hsorted
    have hsooner := (List.pairwise_append.1 hsorted).2.2 other hother trail List.mem_cons_self
    refine entryIn?_eq_none_iff.2 fun hentry' ↦ ?_
    have hholds : Holds t ignored name start other := holds_iff.2 ⟨by simp [heq, hother], hentry'⟩
    rcases hnearest.first other hholds with rfl | hother
    · exact Sooner.irrefl _ hsooner
    · exact Sooner.asymm hsooner hother

/-! ## The directories in turn -/

/-- A search that starts at this directory of the project comes to an entry of the name. -/
def Offers (t : FileTree) (root : Path) (ignored : List String) (name source : String) : Prop :=
  t.isDir (searchRoot root source) = true ∧
    ∃ trail, Holds t ignored name (searchRoot root source) trail

/-- What the search answers with when it starts at this directory of the project. -/
def nearestFrom? (t : FileTree) (root : Path) (ignored : List String) (name source : String) :
    Option Path :=
  if t.isDir (searchRoot root source) then
    searchBelow t ignored name searchLevels [searchRoot root source]
  else none

section Sources

variable {root : Path} {source : String}

theorem nearest?_eq (t : FileTree) (root : Path) (ignored : List String) (name : String) :
    nearest? t root ignored name = sourceRoots.findSome? (nearestFrom? t root ignored name) := by
  rw [nearest?]
  induction sourceRoots with
  | nil => rfl
  | cons source rest ih =>
    rw [List.map_cons, List.findSome?_cons, nearestFrom?]
    by_cases hdir : t.isDir (searchRoot root source) = true
    · rw [List.filter_cons_of_pos hdir, List.findSome?_cons, ih, if_pos hdir]
    · rw [List.filter_cons_of_neg hdir, ih, if_neg hdir]

theorem nearestFrom?_eq_none_iff :
    nearestFrom? t root ignored name source = none ↔ ¬ Offers t root ignored name source := by
  rw [nearestFrom?, Offers]
  split
  next hdir => simp [hdir, searchBelow_eq_none_iff]
  next hdir => simp [hdir]

theorem nearestFrom?_eq_some_iff (ht : t.Distinct) :
    nearestFrom? t root ignored name source = some p ↔ t.isDir (searchRoot root source) = true ∧
      ∃ trail, Nearest t ignored name (searchRoot root source) trail ∧
        p = ((searchRoot root source).below trail).child name := by
  rw [nearestFrom?, Option.ite_none_right_eq_some, searchBelow_eq_some_iff ht]

/-- What the search answers with is an entry at the end of a trail. -/
theorem exists_holds_of_nearest? (h : nearest? t root ignored name = some p) :
    ∃ source ∈ sourceRoots, ∃ trail, Holds t ignored name (searchRoot root source) trail ∧
      p = ((searchRoot root source).below trail).child name := by
  rw [nearest?_eq] at h
  obtain ⟨source, hsource, hfound⟩ := List.exists_of_findSome?_eq_some h
  obtain ⟨-, hfound⟩ := Option.ite_none_right_eq_some.1 hfound
  rw [searchBelow_singleton_eq] at hfound
  obtain ⟨trail, htrail, hfound⟩ := List.exists_of_findSome?_eq_some hfound
  obtain ⟨hentry, rfl⟩ := entryIn?_eq_some_iff.1 hfound
  exact ⟨source, hsource, trail, holds_iff.2 ⟨htrail, hentry⟩, rfl⟩

/-- **What the search answers with is the nearest entry of the name below the first directory that
has one: on the uppermost level that has one, in the first directory by name.  It answers with
nothing just if none of the directories has one.** -/
theorem nearest?_is_nearest (ht : t.Distinct) (root : Path) (ignored : List String)
    (name : String) :
    (∀ p, nearest? t root ignored name = some p ↔
      ∃ before source after trail, sourceRoots = before ++ source :: after ∧
        (∀ earlier ∈ before, ¬ Offers t root ignored name earlier) ∧
        t.isDir (searchRoot root source) = true ∧
        Nearest t ignored name (searchRoot root source) trail ∧
        p = ((searchRoot root source).below trail).child name) ∧
    (nearest? t root ignored name = none ↔
      ∀ source ∈ sourceRoots, ¬ Offers t root ignored name source) := by
  rw [nearest?_eq, List.findSome?_eq_none_iff]
  simp only [nearestFrom?_eq_none_iff, List.findSome?_eq_some_iff, nearestFrom?_eq_some_iff ht]
  refine ⟨fun p ↦ ⟨?_, ?_⟩, trivial⟩
  · rintro ⟨before, source, after, heq, ⟨hdir, trail, hnearest, hp⟩, hbefore⟩
    exact ⟨before, source, after, trail, heq, hbefore, hdir, hnearest, hp⟩
  · rintro ⟨before, source, after, trail, heq, hbefore, hdir, hnearest, hp⟩
    exact ⟨before, source, after, heq, ⟨hdir, trail, hnearest, hp⟩, hbefore⟩

/-- A project whose library is a link to a directory beside it. -/
def linkedLibrary : FileTree where
  nodes := [(["p"], .directory), (["p", "lib"], .link "../q"), (["q"], .directory),
    (["q", "a"], .directory), (["q", "a", "b"], .directory),
    (["q", "a", "b", "x.ts"], .file "x".toUTF8 ⟨0, 0⟩)]
  here := []

/-- A file three levels below the root of the project is found two levels below its library. -/
theorem nearest?_is_nearest_linkedLibrary :
    linkedLibrary.Distinct ∧
      nearest? linkedLibrary ⟨"/p"⟩ ["dist"] "x.ts" = some ⟨"/p/lib/a/b/x.ts"⟩ ∧
      ∃ before source after trail, sourceRoots = before ++ source :: after ∧
        (∀ earlier ∈ before, ¬ Offers linkedLibrary ⟨"/p"⟩ ["dist"] "x.ts" earlier) ∧
        linkedLibrary.isDir (searchRoot ⟨"/p"⟩ source) = true ∧
        Nearest linkedLibrary ["dist"] "x.ts" (searchRoot ⟨"/p"⟩ source) trail ∧
        Path.mk "/p/lib/a/b/x.ts" = ((searchRoot ⟨"/p"⟩ source).below trail).child "x.ts" := by
  have hdistinct : linkedLibrary.Distinct := by decide
  have hfound : nearest? linkedLibrary ⟨"/p"⟩ ["dist"] "x.ts" = some ⟨"/p/lib/a/b/x.ts"⟩ := by
    decide +kernel
  exact ⟨hdistinct, hfound,
    ((nearest?_is_nearest hdistinct ⟨"/p"⟩ ["dist"] "x.ts").1 _).1 hfound⟩

end Sources

end Mention

end ChangeContext
