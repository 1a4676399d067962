import ChangeContext.Assembly.Project
import ChangeContext.Proofs.Cache.Key
import ChangeContext.Proofs.Path.Order

/-!
# Requests for the same files

Requests are kept one for each path, and so is a canonical file set; both keep the spelling that came
first, so they hold the same paths.  What sets requests apart beyond their paths is whether they
claim the file to exist.  A request that denies it is right to do so when it was made
(`Request.Honest`), so none of the requests for a set of files that can all be read denies anything.
Hence requests for the same canonical set yield the same records in some order (`perm_records`).
-/

set_option autoImplicit false

namespace ChangeContext

/-! ## Records of files -/

namespace FileRecord

/-- The record of a file with these bytes, which are the text. -/
def ofFile (path : Path) (bytes : ByteArray) (modified : Instant) (content : String) :
    FileRecord where
  path := path
  content := content
  language := Language.ofPath path
  size := bytes.size
  modified := some modified
  isNew := false

/-- **There is a record of a path just if it leads to a regular file whose bytes are text.** -/
theorem load?_eq_some_iff {t : FileTree} {path : Path} {r : FileRecord} :
    load? t path = some r ↔ ∃ bytes modified content, t.at? path = some (.file bytes modified) ∧
      String.fromUTF8? bytes = some content ∧ r = ofFile path bytes modified content := by
  constructor
  · intro h
    obtain ⟨⟨bytes, modified⟩, hfile, h⟩ := Option.bind_eq_some_iff.1 h
    obtain ⟨content, hcontent, heq⟩ := Option.bind_eq_some_iff.1 h
    exact ⟨bytes, modified, content, FileTree.file?_eq_some_iff.1 hfile, hcontent,
      (Option.some_inj.1 heq).symm⟩
  · rintro ⟨bytes, modified, content, hat, hcontent, rfl⟩
    have hfile : t.file? path = some (bytes, modified) := FileTree.file?_eq_some_iff.2 hat
    exact Option.bind_eq_some_iff.2 ⟨_, hfile, Option.bind_eq_some_iff.2 ⟨content, hcontent, rfl⟩⟩

theorem path_of_load? {t : FileTree} {path : Path} {r : FileRecord} (h : load? t path = some r) :
    r.path = path := by
  obtain ⟨bytes, modified, content, -, -, rfl⟩ := load?_eq_some_iff.1 h
  rfl

end FileRecord

namespace Request

/-! ## The paths of distinct requests -/

/-- The paths that requests are for. -/
def paths (requests : List Request) : List Path :=
  requests.map (·.path)

theorem mem_paths_distinctAfter_iff {seen : List Path} {requests : List Request} {p : Path} :
    p ∈ paths (distinctAfter seen requests) ↔
      Path.memSame p seen = false ∧ Path.first? (paths requests) p = some p := by
  induction requests generalizing seen with
  | nil => simp [paths, distinctAfter, Path.first?]
  | cons r rest ih =>
    have hfirst : Path.first? (paths (r :: rest)) p =
        if p.Same r.path then some r.path else Path.first? (paths rest) p :=
      Path.first?_cons ..
    rw [distinctAfter, hfirst]
    split
    next hseen =>
      rw [ih]
      refine and_congr_right fun hp ↦ ?_
      rw [if_neg]
      intro h
      obtain ⟨q, hq, hrq⟩ := Path.memSame_iff.1 hseen
      exact absurd (Path.memSame_iff.2 ⟨q, hq, h.trans hrq⟩) (by simp [hp])
    next hseen =>
      have hmem : p ∈ paths (r :: distinctAfter (r.path :: seen) rest) ↔
          p = r.path ∨ p ∈ paths (distinctAfter (r.path :: seen) rest) := by
        simp [paths]
      have hcons : Path.memSame p (r.path :: seen) = (decide (p.Same r.path) || p.memSame seen) := rfl
      rw [hmem, ih, hcons]
      by_cases h : p.Same r.path
      · rw [if_pos h, Option.some_inj]
        constructor
        · rintro (rfl | ⟨hne, -⟩)
          · exact ⟨by simpa using hseen, rfl⟩
          · simp [h] at hne
        · rintro ⟨-, rfl⟩
          exact .inl rfl
      · have hne : p ≠ r.path := by
          rintro rfl
          exact h (Path.Same.refl _)
        simp [h, hne]

theorem nodup_paths_distinctAfter (seen : List Path) (requests : List Request) :
    (paths (distinctAfter seen requests)).Nodup := by
  induction requests generalizing seen with
  | nil => simp [paths, distinctAfter]
  | cons r rest ih =>
    rw [distinctAfter]
    split
    · exact ih seen
    · refine List.nodup_cons.2 ⟨fun h ↦ ?_, ih (r.path :: seen)⟩
      have hself := (mem_paths_distinctAfter_iff.1 h).1
      rw [Path.memSame_iff.2 ⟨r.path, by simp, Path.Same.refl _⟩] at hself
      exact Bool.noConfusion hself

/-- No two distinct requests are for the same path. -/
theorem pairwise_distinctAfter (seen : List Path) (requests : List Request) :
    (distinctAfter seen requests).Pairwise fun q q' ↦ ¬ q.path.Same q'.path := by
  induction requests generalizing seen with
  | nil => exact .nil
  | cons r rest ih =>
    rw [distinctAfter]
    split
    · exact ih seen
    · refine List.pairwise_cons.2 ⟨fun q hq hsame ↦ ?_, ih (r.path :: seen)⟩
      have hmem : q.path ∈ paths (distinctAfter (r.path :: seen) rest) := List.mem_map_of_mem hq
      have hunseen := (mem_paths_distinctAfter_iff.1 hmem).1
      rw [Path.memSame_iff.2 ⟨r.path, List.mem_cons_self, hsame.symm⟩] at hunseen
      exact Bool.noConfusion hunseen

/-- **Distinct requests are for the paths of the canonical set**, in some order. -/
theorem perm_paths_distinct (requests : List Request) :
    (paths (distinctAfter [] requests)).Perm (Path.canonicalSet (paths requests)) := by
  refine (List.perm_ext_iff_of_nodup (nodup_paths_distinctAfter _ _)
    (Path.nodup_canonicalSet _)).2 fun p ↦ ?_
  rw [mem_paths_distinctAfter_iff, Path.mem_canonicalSet_iff]
  simp [Path.memSame]

/-! ## Requests that tell the truth -/

/-- If the request denies that there is such a file, there is none. -/
def Honest (t : FileTree) (r : Request) : Prop :=
  r.existing = false → t.pathExists r.path = false

/-- Where a mention denies that its file exists, the path leads nowhere. -/
theorem honest_of_mention {t : FileTree} {root : Path} {ignored : List String} {text : String}
    {m : Mention} (h : m ∈ Mention.ofText t root ignored text) :
    Honest t ⟨m.resolved, m.existing⟩ := by
  obtain ⟨c, -, rfl⟩ := List.mem_map.1 h
  rw [Honest, Mention.ofCandidate]
  simp only [Mention.locate]
  split
  · simp
  next hmissing =>
    split
    · simp
    · intro _
      simpa using hmissing

theorem honest_requestOf (p : Project) (t : FileTree) (target : Path) :
    Honest t (p.requestOf t target) := by
  simp [Honest, Project.requestOf]

/-- What was mentioned in a text and asked for now is requested honestly. -/
theorem honest_of_mem_requests {p : Project} {t : FileTree} {mentions : List Mention}
    {targets : List Path} (hmentions : ∀ m ∈ mentions, Honest t ⟨m.resolved, m.existing⟩)
    {r : Request} (hr : r ∈ p.requests t mentions targets) : Honest t r := by
  rcases List.mem_append.1 hr with hr | hr
  · obtain ⟨m, hm, rfl⟩ := List.mem_map.1 hr
    exact hmentions m hm
  · obtain ⟨target, -, rfl⟩ := List.mem_map.1 hr
    exact honest_requestOf p t target

theorem mem_of_mem_distinctAfter {seen : List Path} {requests : List Request} {r : Request}
    (h : r ∈ distinctAfter seen requests) : r ∈ requests := by
  induction requests generalizing seen with
  | nil => simp [distinctAfter] at h
  | cons r' rest ih =>
    rw [distinctAfter] at h
    split at h
    · exact List.mem_cons_of_mem _ (ih h)
    · rcases List.mem_cons.1 h with rfl | h
      · exact List.mem_cons_self ..
      · exact List.mem_cons_of_mem _ (ih h)

/-! ## Records -/

theorem path_of_record? {t : FileTree} {q : Request} {r : FileRecord} (h : record? t q = some r) :
    r.path = q.path := by
  rw [record?] at h
  split at h
  next => exact FileRecord.path_of_load? h
  next => exact Option.some_inj.1 h ▸ rfl

/-- The records of requests for a set of files that can all be read are those of its files. -/
theorem records_eq_of_state? {t : FileTree} {requests : List Request} {state : String}
    (hhonest : ∀ r ∈ requests, Honest t r)
    (hstate : Cache.state? t (Path.canonicalSet (paths requests)) = some state) :
    records t requests = (paths (distinctAfter [] requests)).filterMap (FileRecord.load? t) := by
  rw [records, paths, List.filterMap_map]
  refine List.filterMap_congr fun r hr ↦ ?_
  have hmem : r.path ∈ Path.canonicalSet (paths requests) :=
    (perm_paths_distinct requests).subset (List.mem_map_of_mem hr)
  have hthere := Cache.pathExists_of_state? hstate hmem
  have hexisting : r.existing = true := by
    by_contra hne
    rw [hhonest r (mem_of_mem_distinctAfter hr) (by simpa using hne)] at hthere
    exact Bool.noConfusion hthere
  rw [record?, if_pos hexisting]
  rfl

end Request

end ChangeContext
