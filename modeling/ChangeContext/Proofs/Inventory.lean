import ChangeContext.Inventory
import ChangeContext.Proofs.FileTree.Trail
import ChangeContext.Proofs.NameMap
import Mathlib.Algebra.GroupWithZero.Nat

/-!
# What an inventory lists

A scan that goes down `levels` levels lists what paths of at most `levels + 1` names lead to from
the root, unless a directory on the way is ignored; a file may well have the name of an ignored
directory.  Nothing is listed twice.  The directories are visited depth first by name, and each
contributes what is in it by name (`exact_scan`).  All this holds with links that lead in a circle:
each turn is one more name, and names are what the bound counts.

The scan works with trails from the root, and `trailsIn` lists the trails of all its items in the
order of the scan.  That these are the right ones is said of paths, which know nothing of listings
(`mem_trailsIn_iff`).  That they are in the right order says that each is `Before` the next.  The
inventory then picks the folders and the files of each extension from the items.
-/

set_option autoImplicit false

namespace ChangeContext

namespace Inventory

open FileTree (IsName)

/-! ## What there is to list -/

/-- The extension under which the file at a path belongs, in lower case. -/
def extensionOf (p : Path) : String :=
  (p.extension?.map Text.lowercase).getD ""

/-- The trail leads down from the root by names, and not too far. -/
structure Within (t : FileTree) (levels : Nat) (root : Path) (trail : List String) : Prop where
  root : t.at? root = some .directory
  ne_nil : trail ≠ []
  names : ∀ name ∈ trail, IsName name
  length_le : trail.length ≤ levels + 1

/-- The trail leads to a directory, and no directory on it, its last one included, is ignored. -/
structure IsFolder (t : FileTree) (ignored : List String) (levels : Nat) (root : Path)
    (trail : List String) : Prop where
  within : Within t levels root trail
  directory : t.at? (root.join (.ofTrail trail)) = some .directory
  allowed : ∀ name ∈ trail, name ∉ ignored

/-- The trail leads to a file, and no directory on it is ignored. -/
structure IsFile (t : FileTree) (ignored : List String) (levels : Nat) (root : Path)
    (trail : List String) : Prop where
  within : Within t levels root trail
  file : ∃ bytes modified, t.at? (root.join (.ofTrail trail)) = some (.file bytes modified)
  allowed : ∀ name ∈ trail.dropLast, name ∉ ignored

/-- Depth first by name: the directory of the one is visited before that of the other, which is the
order of their trails with that of a directory before those that go on from it; or both are in the
same directory, and the name of the one comes first. -/
def Before (a b : List String) : Prop :=
  a.dropLast < b.dropLast ∨ ∃ dir x y, a = dir ++ [x] ∧ b = dir ++ [y] ∧ x < y

/-- The inventory holds what there is to list below the root, in the order of the visits. -/
structure Exact (t : FileTree) (ignored : List String) (levels : Nat) (root : Path)
    (i : Inventory) : Prop where
  folders : ∃ trails : List (List String), i.folders = trails.map Path.ofTrail ∧
    trails.Pairwise Before ∧ ∀ trail, trail ∈ trails ↔ IsFolder t ignored levels root trail
  folders_nodup : i.folders.Nodup
  files : ∀ extension, ∃ trails : List (List String),
    (i.files.get? extension).getD [] = trails.map Path.ofTrail ∧ trails.Pairwise Before ∧
      ∀ trail, trail ∈ trails ↔
        IsFile t ignored levels root trail ∧ extensionOf (.ofTrail trail) = extension
  files_nodup : ∀ extension, ((i.files.get? extension).getD []).Nodup
  /-- No extension is listed without a file. -/
  files_ne_nil : ∀ extension, i.files.get? extension ≠ some []
  totalFiles : i.totalFiles = (i.files.values.map List.length).sum
  summary : i.summary.totalFiles = i.summary.fileCounts.values.sum

/-! ## The order of visits -/

section Before

variable {a b : List String} {x y : String}

theorem Before.irrefl (a : List String) : ¬ Before a a := by
  rintro (hlt | ⟨dir, x, y, hx, hy, hlt⟩)
  · exact List.lt_irrefl _ hlt
  · obtain rfl : x = y := by simpa using hx.symm.trans hy
    exact String.lt_irrefl x hlt

theorem before_singleton (h : x < y) : Before [x] [y] :=
  .inr ⟨[], x, y, rfl, rfl, h⟩

/-- What is in a directory comes before what is below. -/
theorem before_of_singleton (hb : b ≠ []) : Before [x] (y :: b) := by
  refine .inl ?_
  rw [List.dropLast_cons_of_ne_nil hb]
  exact List.nil_lt_cons ..

theorem Before.cons (h : Before a b) (ha : a ≠ []) (hb : b ≠ []) (name : String) :
    Before (name :: a) (name :: b) := by
  rcases h with hlt | ⟨dir, x, y, rfl, rfl, hlt⟩
  · refine .inl ?_
    rw [List.dropLast_cons_of_ne_nil ha, List.dropLast_cons_of_ne_nil hb]
    exact List.cons_lt_cons_iff.2 (.inr ⟨rfl, hlt⟩)
  · exact .inr ⟨name :: dir, x, y, rfl, rfl, hlt⟩

/-- What is below one directory comes before what is below the next. -/
theorem before_cons_cons (h : x < y) (ha : a ≠ []) (hb : b ≠ []) : Before (x :: a) (y :: b) := by
  refine .inl ?_
  rw [List.dropLast_cons_of_ne_nil ha, List.dropLast_cons_of_ne_nil hb]
  exact List.cons_lt_cons_iff.2 (.inl h)

theorem nodup_of_before {trails : List (List String)} (h : trails.Pairwise Before) :
    trails.Nodup := by
  refine List.nodup_iff_pairwise_ne.2 (h.imp ?_)
  rintro a b hbefore rfl
  exact Before.irrefl a hbefore

end Before

/-! ## Trails -/

/-- What is at the end of the trail is to be listed. -/
def Listed (t : FileTree) (ignored : List String) (dir : Path) (trail : List String) : Prop :=
  (t.at? (dir.below trail) = some .directory ∧ ∀ name ∈ trail, name ∉ ignored) ∨
    ((∃ bytes modified, t.at? (dir.below trail) = some (.file bytes modified)) ∧
      ∀ name ∈ trail.dropLast, name ∉ ignored)

/-- The names in a directory that are listed. -/
def namesListed (t : FileTree) (ignored : List String) (dir : Path) : List String :=
  ((t.list? dir).getD []).filter fun name ↦
    (itemOf? t ignored (dir.child name) ⟨""⟩ name).isSome

/-- The trails of the items at and below a directory, `levels` levels further down. -/
def trailsIn (t : FileTree) (ignored : List String) : (levels : Nat) → (dir : Path) →
    List (List String)
  | 0, dir => (namesListed t ignored dir).map fun name ↦ [name]
  | levels + 1, dir =>
    (namesListed t ignored dir).map (fun name ↦ [name]) ++
      ((namesListed t ignored dir).filter fun name ↦ t.isDir (dir.child name)).flatMap fun name ↦
        (trailsIn t ignored levels (dir.child name)).map fun trail ↦ name :: trail

section Trails

variable {t : FileTree} {ignored : List String} {levels : Nat} {dir relative path : Path}
  {name : String} {trail : List String} {item : Item}

theorem itemOf?_eq_some_iff :
    itemOf? t ignored path relative name = some item ↔
      (t.at? path = some .directory ∧ name ∉ ignored ∧ item = .folder relative) ∨
        ((∃ bytes modified, t.at? path = some (.file bytes modified)) ∧
          item = .file (extensionKey name) relative) := by
  rw [itemOf?]
  split
  next hat => simp [hat, eq_comm]
  next bytes modified hat => simp [hat, eq_comm]
  next hdirectory hfile =>
    constructor
    · simp
    · rintro (⟨hat, -⟩ | ⟨⟨bytes, modified, hat⟩, -⟩)
      · exact absurd hat hdirectory
      · exact absurd hat (hfile bytes modified)

theorem isSome_itemOf?_iff :
    (itemOf? t ignored path relative name).isSome = true ↔
      (t.at? path = some .directory ∧ name ∉ ignored) ∨
        ∃ bytes modified, t.at? path = some (.file bytes modified) := by
  rw [Option.isSome_iff_exists]
  simp only [itemOf?_eq_some_iff, exists_or, exists_and_left, exists_eq, and_true]

/-- Whether an entry is listed does not depend on where the scan began. -/
theorem isSome_itemOf?_congr (path relative relative' : Path) (name : String) :
    (itemOf? t ignored path relative name).isSome =
      (itemOf? t ignored path relative' name).isSome :=
  Bool.eq_iff_iff.2 (isSome_itemOf?_iff.trans isSome_itemOf?_iff.symm)

theorem isDir_iff {p : Path} : t.isDir p = true ↔ t.at? p = some .directory := by
  rw [FileTree.isDir]
  split <;> simp_all

theorem mem_namesListed_iff (ht : t.Proper) (hdir : t.at? dir = some .directory) :
    name ∈ namesListed t ignored dir ↔ IsName name ∧ Listed t ignored dir [name] := by
  have hne : dir.text ≠ "" := by
    intro hempty
    simp [FileTree.at?, FileTree.resolve, hempty] at hdir
  rw [namesListed, List.mem_filter, isSome_itemOf?_iff, Listed]
  simp only [Path.below_cons, Path.below_nil, List.mem_singleton, forall_eq,
    List.dropLast_singleton, List.not_mem_nil, false_imp_iff, implies_true, and_true]
  constructor
  · rintro ⟨hlisted, hat⟩
    exact ⟨FileTree.isName_of_mem_list? ht hlisted, hat⟩
  · rintro ⟨hname, hat⟩
    refine ⟨?_, hat⟩
    rcases hat with ⟨hat, -⟩ | ⟨bytes, modified, hat⟩
    · exact (FileTree.mem_list?_of_at? hname hne hat).2
    · exact (FileTree.mem_list?_of_at? hname hne hat).2

/-- A trail that goes on is listed just if it goes on from a directory that is listed. -/
theorem listed_cons_iff (hne : dir.text ≠ "") (htrail : trail ≠ [])
    (h : ∀ n ∈ name :: trail, IsName n) :
    Listed t ignored dir (name :: trail) ↔
      t.at? (dir.child name) = some .directory ∧ name ∉ ignored ∧
        Listed t ignored (dir.child name) trail := by
  have hthrough {node : Node} (hat : t.at? ((dir.child name).below trail) = some node) :
      t.at? (dir.child name) = some .directory :=
    have hbelow : t.at? (dir.below ([name] ++ trail)) = some node := hat
    FileTree.at?_below_of_append hne htrail h hbelow
  simp only [Listed, Path.below_cons, List.dropLast_cons_of_ne_nil htrail, List.forall_mem_cons]
  constructor
  · rintro (⟨hat, hname, hallowed⟩ | ⟨⟨bytes, modified, hat⟩, hname, hallowed⟩)
    · exact ⟨hthrough hat, hname, .inl ⟨hat, hallowed⟩⟩
    · exact ⟨hthrough hat, hname, .inr ⟨⟨bytes, modified, hat⟩, hallowed⟩⟩
  · rintro ⟨-, hname, ⟨hat, hallowed⟩ | ⟨hat, hallowed⟩⟩
    · exact .inl ⟨hat, hname, hallowed⟩
    · exact .inr ⟨hat, hname, hallowed⟩

theorem ne_nil_of_mem_trailsIn (h : trail ∈ trailsIn t ignored levels dir) : trail ≠ [] := by
  cases levels with
  | zero =>
    obtain ⟨name, -, rfl⟩ := List.mem_map.1 h
    exact List.cons_ne_nil _ _
  | succ levels =>
    rcases List.mem_append.1 h with h | h
    · obtain ⟨name, -, rfl⟩ := List.mem_map.1 h
      exact List.cons_ne_nil _ _
    · obtain ⟨name, -, h⟩ := List.mem_flatMap.1 h
      obtain ⟨trail, -, rfl⟩ := List.mem_map.1 h
      exact List.cons_ne_nil _ _

/-- **The trails are those that lead to something that is to be listed.** -/
theorem mem_trailsIn_iff (ht : t.Proper) (hdir : t.at? dir = some .directory) :
    trail ∈ trailsIn t ignored levels dir ↔
      trail ≠ [] ∧ trail.length ≤ levels + 1 ∧ (∀ name ∈ trail, IsName name) ∧
        Listed t ignored dir trail := by
  have hsingle {dir : Path} (hdir : t.at? dir = some .directory) {trail : List String} :
      trail ∈ (namesListed t ignored dir).map (fun name ↦ [name]) ↔
        ∃ name, trail = [name] ∧ IsName name ∧ Listed t ignored dir [name] := by
    simp only [List.mem_map, mem_namesListed_iff ht hdir]
    exact ⟨fun ⟨name, h, heq⟩ ↦ ⟨name, heq.symm, h⟩, fun ⟨name, heq, h⟩ ↦ ⟨name, h, heq.symm⟩⟩
  induction levels generalizing dir trail with
  | zero =>
    rw [trailsIn, hsingle hdir]
    constructor
    · rintro ⟨name, rfl, hname, hlisted⟩
      exact ⟨List.cons_ne_nil _ _, Nat.le_refl _, by simpa using hname, hlisted⟩
    · rintro ⟨hne, hlength, hnames, hlisted⟩
      obtain ⟨name, rfl⟩ := List.length_eq_one_iff.1
        (Nat.le_antisymm hlength (List.length_pos_iff.2 hne))
      exact ⟨name, rfl, hnames name (List.mem_singleton_self _), hlisted⟩
  | succ levels ih =>
    have hne : dir.text ≠ "" := by
      intro hempty
      simp [FileTree.at?, FileTree.resolve, hempty] at hdir
    rw [trailsIn, List.mem_append, hsingle hdir, List.mem_flatMap]
    constructor
    · rintro (⟨name, rfl, hname, hlisted⟩ | ⟨name, hname, h⟩)
      · exact ⟨List.cons_ne_nil _ _, by simp, by simpa using hname, hlisted⟩
      · obtain ⟨rest, hrest, rfl⟩ := List.mem_map.1 h
        obtain ⟨hmem, hisDir⟩ := List.mem_filter.1 hname
        have hchild := isDir_iff.1 hisDir
        obtain ⟨hisName, hentry⟩ := (mem_namesListed_iff ht hdir).1 hmem
        obtain ⟨hrestNe, hlength, hnames, hlisted⟩ := (ih hchild).1 hrest
        have hallowed : name ∉ ignored := by
          rcases hentry with ⟨-, hallowed⟩ | ⟨⟨bytes, modified, hfile⟩, -⟩
          · exact hallowed name (List.mem_singleton_self _)
          · simp [hchild] at hfile
        have hall := List.forall_mem_cons.2 ⟨hisName, hnames⟩
        exact ⟨List.cons_ne_nil _ _, by simpa using hlength, hall,
          (listed_cons_iff hne hrestNe hall).2 ⟨hchild, hallowed, hlisted⟩⟩
    · rintro ⟨hnil, hlength, hnames, hlisted⟩
      cases trail with
      | nil => exact absurd rfl hnil
      | cons name rest =>
        cases rest with
        | nil => exact .inl ⟨name, rfl, hnames name (List.mem_singleton_self _), hlisted⟩
        | cons next rest =>
          have hrestNe : next :: rest ≠ [] := List.cons_ne_nil _ _
          obtain ⟨hchild, hallowed, hrest⟩ := (listed_cons_iff hne hrestNe hnames).1 hlisted
          obtain ⟨hisName, hrestNames⟩ := List.forall_mem_cons.1 hnames
          have hentry : Listed t ignored dir [name] :=
            .inl ⟨hchild, by simpa using hallowed⟩
          refine .inr ⟨name, List.mem_filter.2
            ⟨(mem_namesListed_iff ht hdir).2 ⟨hisName, hentry⟩, isDir_iff.2 hchild⟩, ?_⟩
          exact List.mem_map_of_mem
            ((ih hchild).2 ⟨hrestNe, by simpa using hlength, hrestNames, hrest⟩)

/-- **The trails are in the order of the visits.** -/
theorem pairwise_trailsIn (ht : t.Distinct) (ignored : List String) (levels : Nat) (dir : Path) :
    (trailsIn t ignored levels dir).Pairwise Before := by
  have hnames (dir : Path) : (namesListed t ignored dir).Pairwise (· < ·) :=
    (FileTree.pairwise_list? ht dir).sublist List.filter_sublist
  have hsingle (dir : Path) :
      ((namesListed t ignored dir).map fun name ↦ [name]).Pairwise Before :=
    List.pairwise_map.2 ((hnames dir).imp before_singleton)
  induction levels generalizing dir with
  | zero => exact hsingle dir
  | succ levels ih =>
    refine List.pairwise_append.2 ⟨hsingle dir, List.pairwise_flatMap.2 ⟨fun name _ ↦ ?_, ?_⟩, ?_⟩
    · refine List.pairwise_map.2 ((ih (dir.child name)).imp_of_mem fun ha hb hbefore ↦ ?_)
      exact hbefore.cons (ne_nil_of_mem_trailsIn ha) (ne_nil_of_mem_trailsIn hb) name
    · refine ((hnames dir).sublist List.filter_sublist).imp fun hlt a ha b hb ↦ ?_
      obtain ⟨a', ha', rfl⟩ := List.mem_map.1 ha
      obtain ⟨b', hb', rfl⟩ := List.mem_map.1 hb
      exact before_cons_cons hlt (ne_nil_of_mem_trailsIn ha') (ne_nil_of_mem_trailsIn hb')
    · intro a ha b hb
      obtain ⟨x, -, rfl⟩ := List.mem_map.1 ha
      obtain ⟨y, -, hb⟩ := List.mem_flatMap.1 hb
      obtain ⟨b', hb', rfl⟩ := List.mem_map.1 hb
      exact before_of_singleton (ne_nil_of_mem_trailsIn hb')

/-! ## From trails to items -/

/-- What is listed at the end of a trail. -/
def itemAt? (t : FileTree) (ignored : List String) (dir relative : Path) (trail : List String) :
    Option Item :=
  trail.getLast?.bind (itemOf? t ignored (dir.below trail) (relative.below trail))

theorem itemAt?_cons (htrail : trail ≠ []) :
    itemAt? t ignored dir relative (name :: trail) =
      itemAt? t ignored (dir.child name) (relative.child name) trail := by
  rw [itemAt?, itemAt?, List.getLast?_cons_of_ne_nil htrail]
  rfl

/-- The items of a directory itself are those of the trails of one name. -/
theorem filterMap_itemOf?_eq (dir relative : Path) :
    (((t.list? dir).getD []).filterMap fun name ↦
        (itemOf? t ignored (dir.child name) (relative.child name) name).map fun i ↦ (name, i)).map
          (·.2) =
      ((namesListed t ignored dir).map fun name ↦ [name]).filterMap
        (itemAt? t ignored dir relative) := by
  rw [namesListed, List.map_filterMap, List.filterMap_map, List.filterMap_filter]
  refine List.filterMap_congr fun name _ ↦ ?_
  have hsingle : (itemAt? t ignored dir relative ∘ fun name ↦ [name]) name =
      itemOf? t ignored (dir.child name) (relative.child name) name := rfl
  rw [hsingle, Option.map_map]
  cases hitem : itemOf? t ignored (dir.child name) (relative.child name) name with
  | none => simp
  | some item =>
    have hsome : (itemOf? t ignored (dir.child name) ⟨""⟩ name).isSome = true := by
      rw [isSome_itemOf?_congr _ _ (relative.child name), hitem]
      rfl
    rw [if_pos hsome]
    rfl

/-- The scan goes into the listed names that lead to directories. -/
theorem flatMap_items_eq (t : FileTree) (ignored : List String) (dir relative : Path)
    (into : String → Path → List Item) :
    (((t.list? dir).getD []).filterMap fun name ↦
        (itemOf? t ignored (dir.child name) (relative.child name) name).map fun i ↦
          (name, i)).flatMap
          (fun i ↦ match i.2 with
            | .folder path => into i.1 path
            | .file _ _ => []) =
      ((namesListed t ignored dir).filter fun name ↦ t.isDir (dir.child name)).flatMap
        fun name ↦ into name (relative.child name) := by
  rw [namesListed]
  induction (t.list? dir).getD [] with
  | nil => rfl
  | cons name names ih =>
    rw [List.filterMap_cons, List.filter_cons]
    cases hitem : itemOf? t ignored (dir.child name) (relative.child name) name with
    | none =>
      have hnone : ¬ (itemOf? t ignored (dir.child name) ⟨""⟩ name).isSome = true := by
        rw [isSome_itemOf?_congr _ _ (relative.child name), hitem]
        exact Bool.false_ne_true
      rw [if_neg hnone]
      exact ih
    | some item =>
      have hsome : (itemOf? t ignored (dir.child name) ⟨""⟩ name).isSome = true := by
        rw [isSome_itemOf?_congr _ _ (relative.child name), hitem]
        rfl
      rw [if_pos hsome, List.filter_cons]
      simp only [Option.map_some, List.flatMap_cons, ih]
      rcases itemOf?_eq_some_iff.1 hitem with ⟨hat, -, rfl⟩ | ⟨⟨bytes, modified, hat⟩, rfl⟩
      · simp [isDir_iff.2 hat]
      · simp [FileTree.isDir, hat]

/-- **The items are those of the trails.** -/
theorem itemsIn_eq (levels : Nat) (dir relative : Path) :
    itemsIn t ignored levels dir relative =
      (trailsIn t ignored levels dir).filterMap (itemAt? t ignored dir relative) := by
  induction levels generalizing dir relative with
  | zero =>
    rw [itemsIn, trailsIn, ← filterMap_itemOf?_eq]
    exact List.append_nil _
  | succ levels ih =>
    rw [itemsIn, trailsIn, List.filterMap_append, ← filterMap_itemOf?_eq]
    refine congrArg _ ?_
    refine (flatMap_items_eq t ignored dir relative fun name path ↦
      itemsIn t ignored levels (dir.child name) path).trans ?_
    rw [List.filterMap_flatMap]
    refine List.flatMap_congr fun name _ ↦ ?_
    rw [ih, List.filterMap_map]
    exact List.filterMap_congr fun trail htrail ↦
      (itemAt?_cons (ne_nil_of_mem_trailsIn htrail)).symm

/-- What a trail leads to is a directory that is not ignored, or a file, and it is listed by the
path of the trail. -/
theorem itemAt?_of_mem (ht : t.Proper) {root : Path} (hroot : t.at? root = some .directory)
    (h : trail ∈ trailsIn t ignored levels root) :
    (t.at? (root.below trail) = some .directory ∧
        itemAt? t ignored root ⟨""⟩ trail = some (.folder (.ofTrail trail))) ∨
      ((∃ bytes modified, t.at? (root.below trail) = some (.file bytes modified)) ∧
        itemAt? t ignored root ⟨""⟩ trail =
          some (.file (extensionOf (.ofTrail trail)) (.ofTrail trail))) := by
  obtain ⟨hne, -, hnames, hlisted⟩ := (mem_trailsIn_iff ht hroot).1 h
  obtain ⟨front, name, rfl⟩ := (List.eq_nil_or_concat' trail).resolve_left hne
  have hlast : (front ++ [name]).getLast? = some name := List.getLast?_concat
  have hname : IsName name := hnames name (List.mem_append_right _ (List.mem_singleton_self _))
  have hitem : itemAt? t ignored root ⟨""⟩ (front ++ [name]) =
      itemOf? t ignored (root.below (front ++ [name])) (.ofTrail (front ++ [name])) name := by
    rw [itemAt?, hlast, Path.ofTrail_eq_below]
    rfl
  rw [hitem, itemOf?_eq_some_iff, itemOf?_eq_some_iff]
  rcases hlisted with ⟨hat, hallowed⟩ | ⟨hat, -⟩
  · have hnot : name ∉ ignored :=
      hallowed name (List.mem_append_right _ (List.mem_singleton_self _))
    exact .inl ⟨hat, .inl ⟨hat, hnot, rfl⟩⟩
  · have hextension : extensionKey name = extensionOf (.ofTrail (front ++ [name])) := by
      have hfile : (Path.mk name).fileName? = some name := by
        rw [← Path.ofTrail_singleton hname,
          Path.fileName?_ofTrail (List.forall_mem_singleton.2 hname)]
        rfl
      rw [extensionKey, extensionOf, Path.extension?, Path.extension?, hfile,
        Path.fileName?_ofTrail hnames, hlast]
    exact .inr ⟨hat, .inr ⟨hat, by rw [hextension]⟩⟩

end Trails

/-! ## From items to lists -/

namespace Item

/-- The path, if a folder is listed. -/
def folder? : Item → Option Path
  | .folder path => some path
  | .file _ _ => none

/-- The path, if a file is listed under this extension. -/
def fileUnder? (extension : String) : Item → Option Path
  | .folder _ => none
  | .file own path => if own = extension then some path else none

end Item

section Lists

variable (items : List Item) (extension : String)

theorem ofItems_append_singleton (item : Item) :
    ofItems (items ++ [item]) = (ofItems items).add item := by
  simp [ofItems]

theorem folders_ofItems : (ofItems items).folders = items.filterMap Item.folder? := by
  induction items using List.reverseRecOn with
  | nil => rfl
  | append_singleton items item ih =>
    rw [ofItems_append_singleton, List.filterMap_append, ← ih]
    cases item with
    | folder path => rfl
    | file own path => exact (List.append_nil _).symm

theorem getD_files_ofItems :
    ((ofItems items).files.get? extension).getD [] =
      items.filterMap (Item.fileUnder? extension) := by
  induction items using List.reverseRecOn with
  | nil => rfl
  | append_singleton items item ih =>
    rw [ofItems_append_singleton, List.filterMap_append, ← ih]
    cases item with
    | folder path => exact (List.append_nil _).symm
    | file own path =>
      rw [add, NameMap.get?_alter]
      by_cases h : extension = own
      · simp [h, Item.fileUnder?]
      · simp [h, Ne.symm h, Item.fileUnder?]

/-- An extension is listed when there is a file to list under it. -/
theorem files_ofItems_ne_nil : (ofItems items).files.get? extension ≠ some [] := by
  induction items using List.reverseRecOn with
  | nil => exact Option.some_ne_none _ ∘ Eq.symm
  | append_singleton items item ih =>
    rw [ofItems_append_singleton]
    cases item with
    | folder path => exact ih
    | file own path =>
      rw [add, NameMap.get?_alter]
      split
      · simp
      · exact ih

theorem sum_length_alterList (path : Path) (entries : List (String × List Path)) :
    ((NameMap.alterList extension (fun old ↦ some (old.getD [] ++ [path])) entries).map
        fun e ↦ e.2.length).sum = (entries.map fun e ↦ e.2.length).sum + 1 := by
  induction entries with
  | nil => rfl
  | cons e rest ih =>
    obtain ⟨own, paths⟩ := e
    rw [NameMap.alterList]
    split
    · simp; omega
    · split
      · simp; omega
      · simp [ih]; omega

theorem totalFiles_ofItems :
    (ofItems items).totalFiles = ((ofItems items).files.values.map List.length).sum := by
  induction items using List.reverseRecOn with
  | nil => rfl
  | append_singleton items item ih =>
    rw [ofItems_append_singleton]
    cases item with
    | folder path => exact ih
    | file own path =>
      have hsum := sum_length_alterList own path (ofItems items).files.toList
      rw [NameMap.values, List.map_map] at ih ⊢
      exact (congrArg (· + 1) ih).trans hsum.symm

end Lists

/-! ## The scan -/

section Scan

variable {t : FileTree} {ignored : List String} {levels : Nat} {root : Path} {trail : List String}

/-- There are no trails from what is no directory. -/
theorem trailsIn_of_not_directory (h : t.at? root ≠ some .directory) :
    trailsIn t ignored levels root = [] := by
  have hlist : t.list? root = none := by
    rw [FileTree.list?]
    split
    next l hl =>
      rw [FileTree.at?, hl] at h
      exact if_neg h
    next => rfl
  have hnames : namesListed t ignored root = [] := by
    rw [namesListed, hlist]
    rfl
  cases levels <;> simp [trailsIn, hnames]

/-- The trails lead just where there is something to list. -/
theorem mem_trailsIn_iff_within (ht : t.Proper) :
    trail ∈ trailsIn t ignored levels root ↔
      Within t levels root trail ∧ Listed t ignored root trail := by
  by_cases hroot : t.at? root = some .directory
  · rw [mem_trailsIn_iff ht hroot]
    constructor
    · rintro ⟨hne, hlength, hnames, hlisted⟩
      exact ⟨⟨hroot, hne, hnames, hlength⟩, hlisted⟩
    · rintro ⟨hwithin, hlisted⟩
      exact ⟨hwithin.ne_nil, hwithin.length_le, hwithin.names, hlisted⟩
  · rw [trailsIn_of_not_directory hroot]
    exact ⟨fun h ↦ absurd h List.not_mem_nil, fun h ↦ absurd h.1.root hroot⟩

theorem isFolder_iff (ht : t.Proper) :
    IsFolder t ignored levels root trail ↔
      trail ∈ trailsIn t ignored levels root ∧ t.isDir (root.below trail) = true := by
  rw [mem_trailsIn_iff_within ht, isDir_iff]
  constructor
  · rintro ⟨hwithin, hat, hallowed⟩
    rw [Path.join_ofTrail hwithin.ne_nil hwithin.names] at hat
    exact ⟨⟨hwithin, .inl ⟨hat, hallowed⟩⟩, hat⟩
  · rintro ⟨⟨hwithin, hlisted⟩, hat⟩
    rcases hlisted with ⟨-, hallowed⟩ | ⟨⟨bytes, modified, hfile⟩, -⟩
    · refine ⟨hwithin, ?_, hallowed⟩
      rwa [Path.join_ofTrail hwithin.ne_nil hwithin.names]
    · simp [hat] at hfile

theorem isFile_iff (ht : t.Proper) :
    IsFile t ignored levels root trail ↔
      trail ∈ trailsIn t ignored levels root ∧ t.isDir (root.below trail) = false := by
  rw [mem_trailsIn_iff_within ht]
  constructor
  · rintro ⟨hwithin, ⟨bytes, modified, hat⟩, hallowed⟩
    rw [Path.join_ofTrail hwithin.ne_nil hwithin.names] at hat
    exact ⟨⟨hwithin, .inr ⟨⟨bytes, modified, hat⟩, hallowed⟩⟩, by simp [FileTree.isDir, hat]⟩
  · rintro ⟨⟨hwithin, hlisted⟩, hat⟩
    rcases hlisted with ⟨hdir, -⟩ | ⟨hfile, hallowed⟩
    · simp [isDir_iff.2 hdir] at hat
    · refine ⟨hwithin, ?_, hallowed⟩
      rwa [Path.join_ofTrail hwithin.ne_nil hwithin.names]

/-- What is picked from the items belongs to the trails that the choice is made by. -/
theorem filterMap_itemsIn {pick : Item → Option Path} {chosen : List String → Bool}
    (h : ∀ trail ∈ trailsIn t ignored levels root,
      (itemAt? t ignored root ⟨""⟩ trail).bind pick =
        if chosen trail then some (.ofTrail trail) else none) :
    (itemsIn t ignored levels root ⟨""⟩).filterMap pick =
      ((trailsIn t ignored levels root).filter chosen).map Path.ofTrail := by
  rw [itemsIn_eq, List.filterMap_filterMap, ← List.filterMap_eq_map, List.filterMap_filter]
  exact List.filterMap_congr h

theorem folders_scan (ht : t.Proper) :
    (scan t ignored levels root).folders =
      ((trailsIn t ignored levels root).filter fun trail ↦
        t.isDir (root.below trail)).map Path.ofTrail := by
  rw [scan, folders_ofItems]
  refine filterMap_itemsIn fun trail htrail ↦ ?_
  have hroot := ((mem_trailsIn_iff_within ht).1 htrail).1.root
  rcases itemAt?_of_mem ht hroot htrail with ⟨hat, hitem⟩ | ⟨⟨bytes, modified, hat⟩, hitem⟩
  · simp [hitem, FileTree.isDir, hat, Item.folder?]
  · simp [hitem, FileTree.isDir, hat, Item.folder?]

theorem files_scan (ht : t.Proper) (extension : String) :
    ((scan t ignored levels root).files.get? extension).getD [] =
      ((trailsIn t ignored levels root).filter fun trail ↦
        !t.isDir (root.below trail) && extensionOf (.ofTrail trail) = extension).map
          Path.ofTrail := by
  rw [scan, getD_files_ofItems]
  refine filterMap_itemsIn fun trail htrail ↦ ?_
  have hroot := ((mem_trailsIn_iff_within ht).1 htrail).1.root
  rcases itemAt?_of_mem ht hroot htrail with ⟨hat, hitem⟩ | ⟨⟨bytes, modified, hat⟩, hitem⟩
  · simp [hitem, FileTree.isDir, hat, Item.fileUnder?]
  · simp [hitem, FileTree.isDir, hat, Item.fileUnder?]

/-- What is chosen of the trails is listed in their order, and not twice. -/
theorem nodup_map_ofTrail (ht : t.Proper) (hd : t.Distinct) (chosen : List String → Bool) :
    (((trailsIn t ignored levels root).filter chosen).map Path.ofTrail).Nodup := by
  have hnames {trail : List String}
      (h : trail ∈ (trailsIn t ignored levels root).filter chosen) : ∀ name ∈ trail, IsName name :=
    ((mem_trailsIn_iff_within ht).1 (List.mem_of_mem_filter h)).1.names
  exact ((nodup_of_before (pairwise_trailsIn hd ignored levels root)).filter chosen).map_on
    fun _ ha _ hb ↦ Path.ofTrail_inj (hnames ha) (hnames hb)

/-- **The inventory is exact.** -/
theorem exact_scan (ht : t.Proper) (hd : t.Distinct) (ignored : List String) (levels : Nat)
    (root : Path) : Exact t ignored levels root (scan t ignored levels root) := by
  have hordered (chosen : List String → Bool) :
      ((trailsIn t ignored levels root).filter chosen).Pairwise Before :=
    (pairwise_trailsIn hd ignored levels root).filter chosen
  constructor
  case folders =>
    refine ⟨_, folders_scan ht, hordered _, fun trail ↦ ?_⟩
    rw [isFolder_iff ht, List.mem_filter]
  case folders_nodup =>
    rw [folders_scan ht]
    exact nodup_map_ofTrail ht hd _
  case files =>
    refine fun extension ↦ ⟨_, files_scan ht extension, hordered _, fun trail ↦ ?_⟩
    rw [isFile_iff ht, List.mem_filter]
    simp [and_assoc]
  case files_nodup =>
    intro extension
    rw [files_scan ht]
    exact nodup_map_ofTrail ht hd _
  case files_ne_nil => exact files_ofItems_ne_nil _
  case totalFiles => exact totalFiles_ofItems _
  case summary =>
    have hcounts : (scan t ignored levels root).summary.fileCounts.values =
        (scan t ignored levels root).files.values.map List.length := by
      simp [summary, NameMap.values, NameMap.map]
    rw [hcounts]
    exact totalFiles_ofItems _

/-- A project with a directory of sources, from which a link leads up again, and one that is to be
ignored. -/
def circle : FileTree where
  nodes := [(["src"], .directory), (["src", "A.TS"], .file "x".toUTF8 ⟨0, 0⟩),
    (["src", "up"], .link ".."), (["target"], .directory),
    (["target", "b.ts"], .file "y".toUTF8 ⟨0, 0⟩)]
  here := []

/-- The scan goes through the link as often as the number of levels allows. -/
theorem exact_scan_circle :
    circle.Proper ∧ circle.Distinct ∧
      Exact circle ["target"] 2 ⟨"/"⟩ (scan circle ["target"] 2 ⟨"/"⟩) ∧
      Path.ofTrail ["src", "up", "src"] ∈ (scan circle ["target"] 2 ⟨"/"⟩).folders := by
  have hproper : circle.Proper := by decide
  have hdistinct : circle.Distinct := by decide
  have hexact := exact_scan hproper hdistinct ["target"] 2 ⟨"/"⟩
  refine ⟨hproper, hdistinct, hexact, ?_⟩
  obtain ⟨trails, hfolders, -, hmem⟩ := hexact.folders
  have hfolder : IsFolder circle ["target"] 2 ⟨"/"⟩ ["src", "up", "src"] :=
    ⟨⟨by decide +kernel, by decide, by decide, by decide⟩, by decide +kernel, by decide⟩
  rw [hfolders]
  exact List.mem_map_of_mem ((hmem _).2 hfolder)

end Scan

end Inventory

end ChangeContext
