import ChangeContext.Proofs.Mention.Existence
import ChangeContext.Proofs.Mention.Extraction
import ChangeContext.Proofs.Path.Normalize

/-!
# Which path a mention is given

A search for a file starts at the root of the project or in one of its directories for sources, and
it goes down from listing to listing.  So what it answers with lies below the root
(`liesBelow_of_nearest?`), and it is written as the names on the way behind the root.  The search
goes into no ignored directory, but where it starts it does not ask whether that is one.  So the
only ignored directory that a mention can have on its way is the first one, and only if that is a
directory for sources (`unignored_of_replaced`).

A path that is not searched for is put into normal form.  If the root is in normal form, too, then so
is the path that a mention is given, one way or the other (`isNormal_resolved`).  Only a path with a
drive letter stays as it is, and that is not absolute here.
-/

set_option autoImplicit false

namespace ChangeContext

namespace Mention

open FileTree (IsName)

variable {t : FileTree} {root p : Path} {ignored : List String} {name : String}

/-! ## What the search answers with -/

/-- The names from the root to a directory of the project where a search starts. -/
def sourceTrail (source : String) : List String :=
  if source = "" then [] else [source]

theorem searchRoot_eq_below (root : Path) (source : String) :
    searchRoot root source = root.below (sourceTrail source) := by
  rw [searchRoot, sourceTrail]
  split <;> rfl

/-- **The names to what the search answers with**: those to where it starts, those of a trail that it
may go, and the one that is looked for. -/
theorem exists_below_of_nearest? (ht : t.Proper) (h : nearest? t root ignored name = some p) :
    ∃ source ∈ sourceRoots, ∃ trail, Opens t ignored (searchRoot root source) trail ∧
      (∀ name' ∈ sourceTrail source ++ trail ++ [name], IsName name') ∧
      p = root.below (sourceTrail source ++ trail ++ [name]) := by
  obtain ⟨source, hsource, trail, hholds, rfl⟩ := exists_holds_of_nearest? h
  have hstart : ∀ source ∈ sourceRoots, ∀ name' ∈ sourceTrail source, IsName name' := by decide
  refine ⟨source, hsource, trail, hholds.opens, ?_, ?_⟩
  · refine List.forall_mem_append.2 ⟨List.forall_mem_append.2 ⟨hstart source hsource, ?_⟩, ?_⟩
    · exact hholds.opens.isName ht
    · exact List.forall_mem_singleton.2 (FileTree.isName_of_mem_list? ht hholds.entry.1)
  · rw [Path.below_append_singleton, searchRoot_eq_below, Path.below_append]

/-- **What the search answers with lies below the root.** -/
theorem liesBelow_of_nearest? (ht : t.Proper) (h : nearest? t root ignored name = some p) :
    root.LiesBelow p := by
  obtain ⟨source, -, trail, -, hnames, rfl⟩ := exists_below_of_nearest? ht h
  exact ⟨_, hnames, rfl⟩

/-! ## Ignored directories -/

/-- A mention in the text of a file that was searched for, since the path that the text names leads
nowhere. -/
structure Replaced (t : FileTree) (root : Path) (ignored : List String) (text : String)
    (m : Mention) : Prop where
  missing : ∃ c ∈ distinct (candidates text), m = ofCandidate t root ignored c ∧
    t.pathExists (named root c.shape c.text).1 = false
  existing : m.existing = true

theorem Replaced.exists_nearest? {text : String} {m : Mention}
    (h : Replaced t root ignored text m) : ∃ name, nearest? t root ignored name = some m.resolved := by
  obtain ⟨c, -, rfl, hmissing⟩ := h.missing
  have hexisting := h.existing
  have hlocate := locate_ofCandidate t root ignored c
  rcases locate_cases t root ignored c.text (named root c.shape c.text).1 with
    ⟨hpath, -⟩ | ⟨found, -, hsought, heq⟩ | ⟨-, -, heq⟩
  · rw [hmissing] at hpath
    exact absurd hpath Bool.false_ne_true
  · obtain ⟨hresolved, -⟩ := Prod.mk.inj (hlocate.symm.trans heq)
    obtain ⟨name, -, hnearest⟩ := Option.bind_eq_some_iff.1 hsought
    exact ⟨name, hresolved ▸ hnearest⟩
  · obtain ⟨-, hnone⟩ := Prod.mk.inj (hlocate.symm.trans heq)
    rw [hnone] at hexisting
    exact absurd hexisting Bool.false_ne_true

/-- **A path that is replaced is replaced by one through no ignored directory of the project, unless
the first is one of the directories where a search starts.** -/
theorem unignored_of_replaced (ht : t.Proper) {text : String} {m : Mention}
    (h : Replaced t root ignored text m) :
    ∃ (dirs : List String) (file : String),
      m.resolved.components = root.components ++ dirs.map .name ++ [.name file] ∧
      (∀ name ∈ dirs.tail, name ∉ ignored) ∧
      ∀ name ∈ dirs.head?, name ∈ ignored → name ∈ sourceRoots := by
  obtain ⟨name, hnearest⟩ := h.exists_nearest?
  obtain ⟨source, hsource, trail, hopens, hnames, hresolved⟩ := exists_below_of_nearest? ht hnearest
  have hallowed := hopens.notMem
  refine ⟨sourceTrail source ++ trail, name, ?_, ?_, ?_⟩
  · rw [hresolved, Path.components_below hnames]
    simp
  · rw [sourceTrail]
    split
    next => exact fun name hname ↦ hallowed name (List.mem_of_mem_tail hname)
    next => exact hallowed
  · rw [sourceTrail]
    split
    next =>
      intro name hname hignored
      exact absurd hignored (hallowed name (List.mem_of_mem_head? hname))
    next =>
      rintro name hname -
      obtain rfl : source = name := by simpa using hname
      exact hsource

/-- A project with a file two levels down. -/
def inParts : FileTree where
  nodes := [(["src"], .directory), (["src", "parts"], .directory),
    (["src", "parts", "a.ts"], .file "x".toUTF8 ⟨0, 0⟩)]
  here := []

/-- The mention of this file by its name. -/
def ofInParts : Mention where
  wording := "a.ts"
  resolved := ⟨"/src/parts/a.ts"⟩
  existing := true
  extension := "ts"
  fileName := "a.ts"
  isAbsolute := false

/-- A file that is not at the root is searched for, and the directories on the way to it are not
ignored. -/
theorem unignored_of_replaced_inParts :
    inParts.Proper ∧ Replaced inParts ⟨"/"⟩ ["dist"] "see a.ts" ofInParts ∧
      ∃ (dirs : List String) (file : String),
        ofInParts.resolved.components =
          (Path.mk "/").components ++ dirs.map .name ++ [.name file] ∧
        (∀ name ∈ dirs.tail, name ∉ ["dist"]) ∧
        ∀ name ∈ dirs.head?, name ∈ ["dist"] → name ∈ sourceRoots := by
  have hproper : inParts.Proper := by decide
  have hreplaced : Replaced inParts ⟨"/"⟩ ["dist"] "see a.ts" ofInParts := by
    refine ⟨⟨⟨.bare, 4, 8, "a.ts"⟩, ?_, ?_, ?_⟩, rfl⟩ <;> decide +kernel
  exact ⟨hproper, hreplaced, unignored_of_replaced hproper hreplaced⟩

/-- A file in the directory for sources is found although this directory is ignored. -/
theorem ofText_ignoredSources :
    ofText inSources ⟨"/"⟩ ["src"] "a.ts" = [⟨"a.ts", ⟨"/src/a.ts"⟩, true, "ts", "a.ts", false⟩] ∧
      Replaced inSources ⟨"/"⟩ ["src"] "a.ts" ⟨"a.ts", ⟨"/src/a.ts"⟩, true, "ts", "a.ts", false⟩ ∧
      (Path.mk "/src/a.ts").components =
        (Path.mk "/").components ++ ["src"].map .name ++ [.name "a.ts"] := by
  refine ⟨by decide +kernel, ⟨⟨⟨.bare, 0, 4, "a.ts"⟩, ?_, ?_, ?_⟩, rfl⟩, by decide⟩ <;>
    decide +kernel

/-! ## Normal forms -/

/-- A text that begins with a letter is not an absolute path. -/
theorem isAbsolute_of_isLetter {text : String} {c : Char} {rest : List Char}
    (htext : text.toList = c :: rest) (hc : isLetter c = true) :
    (Path.mk text).isAbsolute = false := by
  rw [Path.isAbsolute, htext, List.head?_cons, beq_eq_false_iff_ne]
  intro hslash
  rw [Option.some_inj.1 hslash] at hc
  exact absurd hc (by decide)

theorem isAbsolute_of_hasDrive {text : String} (h : hasDrive text = true) :
    (Path.mk text).isAbsolute = false := by
  rw [hasDrive] at h
  split at h
  next letter slash rest htext =>
    rw [Bool.and_eq_true] at h
    exact isAbsolute_of_isLetter htext h.1
  next => exact absurd h Bool.false_ne_true

theorem isAbsolute_of_drive {text : String} {c : Candidate} (hc : c ∈ candidates text)
    (hshape : c.shape = .drive) : (Path.mk c.text).isAbsolute = false := by
  obtain ⟨s, hs, heq⟩ := exists_span_of_mem_candidates hc (by simp [hshape])
  obtain ⟨ch, rest, htext, -⟩ := exists_head_candidate hs
  obtain ⟨-, -, tail, hcovered, -⟩ := covers_candidate c.shape (in_of_mem_spans hs).1
  rw [hshape] at hs
  obtain ⟨m, hm, rfl⟩ := List.mem_map.1 hs
  obtain ⟨letter, letters, hchars, hletter⟩ :=
    chars_of_drivePath (Pattern.matches_of_mem_findAll hm)
  -- the candidate begins as its stretch does
  rw [htext, hchars, List.cons_append, List.cons.injEq] at hcovered
  rw [← heq] at htext
  exact isAbsolute_of_isLetter htext (hcovered.1 ▸ hletter)

/-- The path that is looked up first. -/
theorem isNormal_named (root : Path) {text : String} {c : Candidate} (hc : c ∈ candidates text)
    (habsolute : (named root c.shape c.text).1.isAbsolute = true) :
    (named root c.shape c.text).1.IsNormal := by
  rw [named] at habsolute ⊢
  split at habsolute
  next hdrive =>
    rw [Bool.or_eq_true, decide_eq_true_eq] at hdrive
    rcases hdrive with hshape | hdrive
    · rw [isAbsolute_of_drive hc hshape] at habsolute
      exact absurd habsolute Bool.false_ne_true
    · rw [isAbsolute_of_hasDrive hdrive] at habsolute
      exact absurd habsolute Bool.false_ne_true
  next hdrive =>
    rw [if_neg hdrive]
    exact Path.isNormal_normalize _

/-- **A mention is given a path in normal form**, unless it is one with a drive letter. -/
theorem isNormal_resolved (ht : t.Proper) (hroot : root.IsNormal) {text : String} {m : Mention}
    (hm : m ∈ ofText t root ignored text) (habsolute : m.resolved.isAbsolute = true) :
    m.resolved.IsNormal := by
  obtain ⟨c, hc, rfl⟩ := List.mem_map.1 hm
  have hcandidate : c ∈ candidates text :=
    (firsts_distinct (pairwise_candidates text)).sublist.subset hc
  have hlocate := locate_ofCandidate t root ignored c
  rcases locate_cases t root ignored c.text (named root c.shape c.text).1 with
    ⟨-, heq⟩ | ⟨found, -, hsought, heq⟩ | ⟨-, -, heq⟩
  all_goals
    obtain ⟨hresolved, -⟩ := Prod.mk.inj (hlocate.symm.trans heq)
    rw [hresolved] at habsolute ⊢
  · exact isNormal_named root hcandidate habsolute
  · obtain ⟨name, -, hnearest⟩ := Option.bind_eq_some_iff.1 hsought
    obtain ⟨trail, htrail, rfl⟩ := liesBelow_of_nearest? ht hnearest
    exact hroot.below htrail
  · exact isNormal_named root hcandidate habsolute

end Mention

end ChangeContext
