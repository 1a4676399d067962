import ChangeContext.Assembly.Similar
import ChangeContext.Proofs.Assembly.Requests
import ChangeContext.Proofs.Enumeration
import ChangeContext.Proofs.FileTree.Edit
import ChangeContext.Proofs.FileTree.Walk

/-!
# Which files are similar

A file of a project is similar to the related ones if it `Qualifies`: it lies below the root, not too
deep and not in an ignored directory, it has the extension of a related file, it was not requested, it
is not too large, and it can be read.  The similar files are the first that qualify, in the order in
which a walk comes to them (`files_eq_take`).

What is special about the search is when it stops: a file that is met counts against the limit only if
it could be loaded.  So the search is the same as one that looks at everything, and takes the first
records in the end (`files_eq`).
-/

set_option autoImplicit false

namespace ChangeContext

namespace Similar

/-- The path has the extension of a related file, in whatever case. -/
def OfKind (related : List FileRecord) (path : Path) : Prop :=
  ∃ r ∈ related, ∃ ext ext', path.extension? = some ext ∧ r.extension? = some ext' ∧
    Text.lowercase ext = Text.lowercase ext'

/-- The record is that of a file to be found at the end of this trail from the root, which is at
`base`. -/
structure Qualifies (p : Project) (t : FileTree) (base : Location) (related : List FileRecord)
    (covered : List Path) (trail : List String) (r : FileRecord) : Prop where
  /-- A regular file is there, and not a link to one, whose bytes are the text of the record. -/
  file : ∃ bytes modified content, t.LeadsDown base trail (.file bytes modified) ∧
    String.fromUTF8? bytes = some content ∧
      r = FileRecord.ofFile (p.root.below trail) bytes modified content
  length_le : trail.length ≤ p.settings.context.similarSearchDepth
  /-- No directory on the way is ignored. -/
  allowed : ∀ name ∈ trail.dropLast, name ∉ p.ignored
  kind : OfKind related r.path
  fresh : ∀ q ∈ covered, ¬ r.path.Same q
  size_le : r.size ≤ p.settings.context.maxFileSize

variable {p : Project} {t : FileTree} {related : List FileRecord} {covered : List Path}
  {r : FileRecord} {v : FileTree.Visit}

/-! ## What the search picks -/

theorem any_contains_iff {path : Path} :
    (path.extension?.map Text.lowercase).any (extensions related).contains = true ↔
      OfKind related path := by
  cases hext : path.extension? with
  | none => simp [OfKind, hext]
  | some ext =>
    rw [Option.map_some, Option.any_some, List.contains_iff_mem, extensions, List.mem_filterMap]
    constructor
    · rintro ⟨r, hr, heq⟩
      obtain ⟨ext', hext', heq⟩ := Option.map_eq_some_iff.1 heq
      exact ⟨r, hr, ext, ext', hext, hext', heq.symm⟩
    · rintro ⟨r, hr, ext₀, ext', hext₀, hext', heq⟩
      obtain rfl := Option.some_inj.1 (hext.symm.trans hext₀)
      exact ⟨r, hr, by rw [hext', Option.map_some, heq]⟩

theorem suits_iff {maxSize : Nat} :
    suits (extensions related) maxSize covered v = true ↔
      ∃ bytes modified, v.node = .file bytes modified ∧ (∀ q ∈ covered, ¬ v.path.Same q) ∧
        OfKind related v.path ∧ bytes.size ≤ maxSize := by
  rw [suits]
  split
  next bytes modified hnode =>
    rw [Bool.and_eq_true, Bool.and_eq_true, any_contains_iff, decide_eq_true_eq, hnode, and_assoc]
    constructor
    · rintro ⟨hfresh, hkind, hsize⟩
      refine ⟨bytes, modified, rfl, fun q hq hsame ↦ ?_, hkind, hsize⟩
      rw [Path.memSame_iff.2 ⟨q, hq, hsame⟩] at hfresh
      exact Bool.noConfusion hfresh
    · rintro ⟨bytes', modified', heq, hfresh, hkind, hsize⟩
      obtain ⟨rfl, rfl⟩ := Node.file.inj heq
      refine ⟨?_, hkind, hsize⟩
      rw [Bool.not_eq_true', ← Bool.not_eq_true, Path.memSame_iff]
      rintro ⟨q, hq, hsame⟩
      exact hfresh q hq hsame
  next hnot =>
    constructor
    · intro h
      exact absurd h Bool.false_ne_true
    · rintro ⟨bytes, modified, hnode, -⟩
      exact absurd hnode (hnot bytes modified)

/-- The record of what is met on the walk, if it is a similar file. -/
def pick? (p : Project) (t : FileTree) (related : List FileRecord) (covered : List Path)
    (v : FileTree.Visit) : Option FileRecord :=
  if suits (extensions related) p.settings.context.maxFileSize covered v then
    FileRecord.load? t v.path
  else none

theorem loadFirst_eq_take (limit : Nat) (paths : List Path) :
    loadFirst t limit paths = (paths.filterMap (FileRecord.load? t)).take limit := by
  induction paths generalizing limit with
  | nil => cases limit <;> simp [loadFirst]
  | cons path rest ih =>
    cases limit with
    | zero => simp [loadFirst]
    | succ limit =>
      rw [loadFirst]
      split
      next r hload => rw [List.filterMap_cons_some hload, List.take_succ_cons, ih]
      next hload => rw [List.filterMap_cons_none hload, ih]

/-- **Stopping early makes no difference.** -/
theorem files_eq (p : Project) (t : FileTree) (related : List FileRecord) (covered : List Path) :
    files p t related covered =
      ((t.walk p.ignored.contains p.settings.context.similarSearchDepth p.root).filterMap
        (pick? p t related covered)).take p.settings.context.similarFilesLimit := by
  rw [files]
  split
  next hnone =>
    rw [Bool.or_eq_true, List.isEmpty_iff, decide_eq_true_eq] at hnone
    rcases hnone with hkinds | hlimit
    · -- without any extension nothing suits
      have hpick (v : FileTree.Visit) : pick? p t related covered v = none := by
        rw [pick?, if_neg]
        rw [suits_iff, OfKind]
        rintro ⟨-, -, -, -, ⟨r, hr, ext, ext', -, hext, -⟩, -⟩
        have hmem : Text.lowercase ext' ∈ extensions related :=
          List.mem_filterMap.2 ⟨r, hr, by rw [hext]; rfl⟩
        exact List.not_mem_nil (hkinds ▸ hmem)
      rw [funext hpick]
      simp
    · rw [hlimit, List.take_zero]
  next =>
    rw [loadFirst_eq_take, List.filterMap_map, List.filterMap_filter]
    rfl

theorem pick?_eq_some_iff : pick? p t related covered v = some r ↔
    ∃ bytes modified, v.node = .file bytes modified ∧ (∀ q ∈ covered, ¬ v.path.Same q) ∧
      OfKind related v.path ∧ bytes.size ≤ p.settings.context.maxFileSize ∧
        FileRecord.load? t v.path = some r := by
  rw [pick?]
  by_cases hsuits : suits (extensions related) p.settings.context.maxFileSize covered v = true
  · rw [if_pos hsuits]
    obtain ⟨bytes, modified, hnode, hfresh, hkind, hsize⟩ := suits_iff.1 hsuits
    constructor
    · intro hload
      exact ⟨bytes, modified, hnode, hfresh, hkind, hsize, hload⟩
    · rintro ⟨-, -, -, -, -, -, hload⟩
      exact hload
  · rw [if_neg hsuits]
    constructor
    · intro h
      exact absurd h (Option.some_ne_none r).symm
    · rintro ⟨bytes, modified, hnode, hfresh, hkind, hsize, -⟩
      exact absurd (suits_iff.2 ⟨bytes, modified, hnode, hfresh, hkind, hsize⟩) hsuits

/-! ## What the search answers -/

/-- **What is picked on a walk qualifies.** -/
theorem picked_iff_qualifies {base : Location} (ht : t.Proper)
    (hroot : t.resolve p.root true = .found base) (hbase : t.node? base = some .directory)
    {trail : List String} :
    (∃ node, (trail, node) ∈
        t.metIn p.ignored.contains p.settings.context.similarSearchDepth base ∧
      pick? p t related covered ⟨p.root.below trail, node⟩ = some r) ↔
      Qualifies p t base related covered trail r := by
  constructor
  · rintro ⟨node, hmet, hpick⟩
    obtain ⟨bytes, modified, rfl, hfresh, hkind, hsize, hload⟩ := pick?_eq_some_iff.1 hpick
    obtain ⟨hleads, hlength, hallowed⟩ := (FileTree.mem_metIn_iff hbase (by simp)).1 hmet
    obtain ⟨bytes', modified', content, hat, hcontent, rfl⟩ := FileRecord.load?_eq_some_iff.1 hload
    have hfile := hleads.at?_below ht hroot (by simp)
    obtain ⟨rfl, rfl⟩ := Node.file.inj (Option.some_inj.1 (hfile.symm.trans hat))
    exact {
      file := ⟨bytes, modified, content, hleads, hcontent, rfl⟩
      length_le := hlength
      allowed := fun name hname ↦ by simpa using hallowed name hname
      kind := hkind
      fresh := hfresh
      size_le := hsize }
  · intro h
    obtain ⟨bytes, modified, content, hleads, hcontent, rfl⟩ := h.file
    have hallowed : ∀ name ∈ trail.dropLast, p.ignored.contains name = false := fun name hname ↦ by
      simpa using h.allowed name hname
    have hmet := (FileTree.mem_metIn_iff hbase (by simp)).2 ⟨hleads, h.length_le, hallowed⟩
    have hat := hleads.at?_below ht hroot (by simp)
    exact ⟨_, hmet, pick?_eq_some_iff.2 ⟨bytes, modified, rfl, h.fresh, h.kind, h.size_le,
      FileRecord.load?_eq_some_iff.2 ⟨bytes, modified, content, hat, hcontent, rfl⟩⟩⟩

/-- **The similar files are the first that qualify**, in the order of a walk that goes depth first and
takes the entries of each directory by name. -/
theorem files_eq_take (p : Project) (t : FileTree) (related : List FileRecord)
    (covered : List Path) {base : Location} (ht : t.Proper) (hd : t.Distinct)
    (hroot : t.resolve p.root true = .found base) (hbase : t.node? base = some .directory) :
    ∃ found, Enumerates found (Qualifies p t base related covered) ∧
      files p t related covered =
        (found.map (·.2)).take p.settings.context.similarFilesLimit := by
  have hmet := FileTree.pairwise_metIn hd p.ignored.contains
    p.settings.context.similarSearchDepth base
  refine ⟨_, enumerates_filterMap (fun m ↦ pick? p t related covered ⟨p.root.below m.1, m.2⟩)
    hmet fun trail r ↦ picked_iff_qualifies ht hroot hbase, ?_⟩
  have hat : t.at? p.root = some .directory := by
    rw [FileTree.at?, hroot]
    exact hbase
  rcases t.walk_cases p.ignored.contains p.settings.context.similarSearchDepth p.root with
    ⟨hnone, -⟩ | ⟨node, hnode, hwalk⟩
  · simp [FileTree.pathExists, hat] at hnone
  · have hfirst : pick? p t related covered ⟨p.root, node⟩ = none := by
      rw [Option.eq_none_iff_forall_not_mem]
      intro r hr
      obtain ⟨bytes, modified, rfl, -⟩ := pick?_eq_some_iff.1 hr
      rcases t.atLink?_cases p.root with heq | ⟨target, heq⟩
      · simp [hnode, hat] at heq
      · simp [hnode] at heq
    rw [files_eq, hwalk, List.filterMap_cons_none hfirst, FileTree.walkIn_eq ht _ _ hroot hbase,
      List.filterMap_map, map_snd_filterMap]
    rfl

/-- A project with sources in two directories of which one is to be ignored, a file that is no text,
and a link to a file. -/
def sources : FileTree where
  nodes := [(["a.rs"], .file "a".toUTF8 ⟨0, 0⟩), (["b.rs"], .file ⟨#[255]⟩ ⟨0, 0⟩),
    (["c.rs"], .link "a.rs"), (["src"], .directory), (["src", "d.rs"], .file "d".toUTF8 ⟨0, 0⟩),
    (["target"], .directory), (["target", "e.rs"], .file "e".toUTF8 ⟨0, 0⟩)]
  here := []

theorem leadsDown_sources : sources.LeadsDown [] ["src", "d.rs"] (.file "d".toUTF8 ⟨0, 0⟩) := by
  rw [FileTree.leadsDown_cons_iff, FileTree.leadsDown_cons_iff, FileTree.leadsDown_nil_iff]
  decide

/-- A file to be created has the extension in capitals, and the file in the other directory is still
found. -/
theorem files_sources :
    sources.Proper ∧ sources.Distinct ∧ sources.resolve ⟨"/"⟩ true = .found [] ∧
      sources.node? [] = some .directory ∧
      ∃ found, Enumerates found
          (Qualifies ⟨⟨"/"⟩, {}⟩ sources [] [.placeholder ⟨"/new.RS"⟩] [⟨"/new.RS"⟩]) ∧
        files ⟨⟨"/"⟩, {}⟩ sources [.placeholder ⟨"/new.RS"⟩] [⟨"/new.RS"⟩] =
          (found.map (·.2)).take 5 ∧
        (["src", "d.rs"], FileRecord.ofFile ⟨"/src/d.rs"⟩ "d".toUTF8 ⟨0, 0⟩ "d") ∈ found := by
  have hproper : sources.Proper := by decide
  have hdistinct : sources.Distinct := by decide
  have hroot : sources.resolve ⟨"/"⟩ true = .found [] := by decide
  have hbase : sources.node? [] = some .directory := rfl
  obtain ⟨found, hfound, hfiles⟩ := files_eq_take ⟨⟨"/"⟩, {}⟩ sources [.placeholder ⟨"/new.RS"⟩]
    [⟨"/new.RS"⟩] hproper hdistinct hroot hbase
  refine ⟨hproper, hdistinct, hroot, hbase, found, hfound, hfiles, ?_⟩
  rw [hfound.mem_iff]
  have hpath : Path.below ⟨"/"⟩ ["src", "d.rs"] = ⟨"/src/d.rs"⟩ := by decide
  exact {
    file := ⟨_, _, "d", leadsDown_sources, FileTree.fromUTF8?_toUTF8 "d", by rw [hpath]⟩
    length_le := by decide
    allowed := by decide
    kind := ⟨_, List.mem_singleton_self _, "rs", "RS", by decide, by decide, by decide +kernel⟩
    fresh := by decide
    size_le := by decide }

end Similar

end ChangeContext
