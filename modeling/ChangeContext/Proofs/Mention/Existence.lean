import ChangeContext.Mention.Basic
import ChangeContext.Proofs.Mention.Nearest

/-!
# Whether a mentioned file exists

A mention says whether its file exists.  Its path is looked up either directly, which follows links,
or by the name of the file in the directories of the project.  There an entry counts as a file if it
is not a directory, and a link that leads nowhere is not a directory.  So the search can answer with
a path that leads nowhere, and the mention then says that the file exists; this is the only case in
which it does not tell the truth (`existing_iff`).
-/

set_option autoImplicit false

namespace ChangeContext

namespace Mention

variable {t : FileTree} {root : Path} {ignored : List String} {name text : String}

/-! ## What the search answers with -/

/-- **What the search answers with leads somewhere, or it is a link that leads nowhere.** -/
theorem pathExists_or_dangling_of_nearest? (ht : t.Proper) {p : Path}
    (h : nearest? t root ignored name = some p) : t.pathExists p = true ∨ t.Dangling p := by
  obtain ⟨source, -, trail, hholds, rfl⟩ := exists_holds_of_nearest? h
  exact FileTree.pathExists_or_dangling ht hholds.entry.1

/-! ## What the mention says -/

/-- The file that the search for a text's file name answers with. -/
def sought? (t : FileTree) (root : Path) (ignored : List String) (text : String) : Option Path :=
  (fileNameIn? text).bind (nearest? t root ignored)

/-- Either the path leads somewhere, or the search answers with another, or there is no file. -/
theorem locate_cases (t : FileTree) (root : Path) (ignored : List String) (text : String)
    (path : Path) :
    (t.pathExists path = true ∧ locate t root ignored text path = (path, true)) ∨
    (∃ found, t.pathExists path = false ∧ sought? t root ignored text = some found ∧
      locate t root ignored text path = (found, true)) ∨
    (t.pathExists path = false ∧ sought? t root ignored text = none ∧
      locate t root ignored text path = (path, false)) := by
  rw [locate]
  cases hpath : t.pathExists path with
  | true => exact .inl ⟨rfl, rfl⟩
  | false =>
    cases hsought : sought? t root ignored text with
    | none =>
      rw [sought?] at hsought
      exact .inr (.inr ⟨rfl, rfl, by simp [hsought]⟩)
    | some found =>
      rw [sought?] at hsought
      exact .inr (.inl ⟨found, rfl, rfl, by simp [hsought]⟩)

/-- The path of a candidate's mention and what is said of it are what is located. -/
theorem locate_ofCandidate (t : FileTree) (root : Path) (ignored : List String) (c : Candidate) :
    locate t root ignored c.text (named root c.shape c.text).1 =
      ((ofCandidate t root ignored c).resolved, (ofCandidate t root ignored c).existing) := rfl

/-- **A mention says that its file exists just if its path leads somewhere, or if the path is a link
that leads nowhere and the search answered with it.** -/
theorem existing_iff (ht : t.Proper) {m : Mention} (hm : m ∈ ofText t root ignored text) :
    m.existing = true ↔ t.pathExists m.resolved = true ∨
      (t.Dangling m.resolved ∧ sought? t root ignored m.wording = some m.resolved) := by
  obtain ⟨c, -, rfl⟩ := List.mem_map.1 hm
  have hwording : (ofCandidate t root ignored c).wording = c.text := rfl
  have hlocate := locate_ofCandidate t root ignored c
  rw [hwording]
  rcases locate_cases t root ignored c.text (named root c.shape c.text).1 with
    ⟨hpath, heq⟩ | ⟨found, hpath, hsought, heq⟩ | ⟨hpath, hsought, heq⟩
  all_goals
    obtain ⟨hresolved, hexisting⟩ := Prod.mk.inj (hlocate.symm.trans heq)
    rw [hresolved, hexisting]
  · simp [hpath]
  · obtain ⟨name, -, hnearest⟩ := Option.bind_eq_some_iff.1 hsought
    rcases pathExists_or_dangling_of_nearest? ht hnearest with hexists | hdangling
    · simp [hexists]
    · simp [hdangling, hsought]
  · simp [hpath, hsought]

/-- A project with a file in its source directory. -/
def inSources : FileTree where
  nodes := [(["src"], .directory), (["src", "a.ts"], .file "x".toUTF8 ⟨0, 0⟩)]
  here := []

/-- The mention of this file by its name. -/
def ofInSources : Mention where
  wording := "a.ts"
  resolved := ⟨"/src/a.ts"⟩
  existing := true
  extension := "ts"
  fileName := "a.ts"
  isAbsolute := false

/-- A file that is mentioned by its name is found among the sources, and it exists. -/
theorem existing_inSources :
    inSources.Proper ∧ ofInSources ∈ ofText inSources ⟨"/"⟩ [] "a.ts" ∧
      (ofInSources.existing = true ↔ inSources.pathExists ofInSources.resolved = true ∨
        (inSources.Dangling ofInSources.resolved ∧
          sought? inSources ⟨"/"⟩ [] ofInSources.wording = some ofInSources.resolved)) := by
  have hproper : inSources.Proper := by decide
  have hmem : ofInSources ∈ ofText inSources ⟨"/"⟩ [] "a.ts" := by decide +kernel
  exact ⟨hproper, hmem, existing_iff hproper hmem⟩

/-- A project in which the only thing is a link to something that is not there. -/
def brokenLink : FileTree where
  nodes := [(["a.ts"], .link "b.ts")]
  here := []

/-- A link that leads nowhere is found by its name, and the mention says that it exists. -/
theorem existing_brokenLink :
    ofText brokenLink ⟨"/"⟩ [] "a.ts" = [⟨"a.ts", ⟨"/a.ts"⟩, true, "ts", "a.ts", false⟩] ∧
      brokenLink.pathExists ⟨"/a.ts"⟩ = false := by
  decide +kernel

end Mention

end ChangeContext
