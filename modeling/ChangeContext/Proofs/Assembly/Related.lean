import ChangeContext.Proofs.Assembly.Lookup
import ChangeContext.Proofs.Enumeration
import ChangeContext.Proofs.FileTree.Edit

/-!
# Which files are related

The related files of a bundle are what was requested, neither more nor less.  Requests come from two
sources, and one path may be requested several times and in several spellings; what counts is the
first request for it.  If that says that the file is not there, it `Creates` the file; if it says that
it is, the file is there only if it can be read.  The related files are what the first requests
supply, in the order of these, and the files to be created are those that they create
(`relatedFiles_collect`).

All this is about bundles that are assembled.  A bundle out of the cache has the related files of an
earlier call.
-/

set_option autoImplicit false

namespace ChangeContext

namespace Request

/-- At this place stands the first request for its path. -/
def IsFirst (requests : List Request) (i : Nat) (q : Request) : Prop :=
  requests[i]? = some q ∧ ∀ q' ∈ requests.take i, ¬ q.path.Same q'.path

/-- The first request for a path, which says that there is no such file. -/
def Creates (requests : List Request) (i : Nat) (r : FileRecord) : Prop :=
  ∃ q, IsFirst requests i q ∧ q.existing = false ∧ r = FileRecord.placeholder q.path

/-- The first request for a path, which says that there is such a file, and the file is text. -/
def Finds (t : FileTree) (requests : List Request) (i : Nat) (r : FileRecord) : Prop :=
  ∃ q, IsFirst requests i q ∧ q.existing = true ∧ ∃ bytes modified content,
    t.at? q.path = some (.file bytes modified) ∧ String.fromUTF8? bytes = some content ∧
      r = FileRecord.ofFile q.path bytes modified content

/-- What the first request for a path supplies. -/
def Supplies (t : FileTree) (requests : List Request) (i : Nat) (r : FileRecord) : Prop :=
  Creates requests i r ∨ Finds t requests i r

variable {t : FileTree} {requests : List Request} {seen : List Path} {i : Nat} {q : Request}
  {r : FileRecord}

/-! ## First requests -/

/-- The requests with their places. -/
def placed (requests : List Request) : List (Nat × Request) :=
  requests.zipIdx.map Prod.swap

theorem mem_placed_iff : (i, q) ∈ placed requests ↔ requests[i]? = some q := by
  rw [placed, List.mem_map]
  constructor
  · rintro ⟨m, hm, heq⟩
    rw [← Prod.swap_swap m, heq] at hm
    exact List.mk_mem_zipIdx_iff_getElem?.1 hm
  · intro h
    exact ⟨(q, i), List.mk_mem_zipIdx_iff_getElem?.2 h, rfl⟩

theorem pairwise_placed (requests : List Request) :
    ((placed requests).map (·.1)).Pairwise (· < ·) := by
  have hplaces : (placed requests).map (·.1) = List.range' 0 requests.length := by
    rw [placed, List.map_map]
    exact List.zipIdx_map_snd 0 requests
  rw [hplaces]
  exact List.pairwise_lt_range'

theorem placed_cons (q : Request) (rest : List Request) :
    placed (q :: rest) = (0, q) :: (placed rest).map fun m ↦ (m.1 + 1, m.2) := by
  rw [placed, placed, List.zipIdx_cons, List.zipIdx_succ, List.map_cons, List.map_map, List.map_map]
  rfl

/-- The request, unless its path was seen or one that comes before it has the same path. -/
def firstAfter? (seen : List Path) (requests : List Request) (m : Nat × Request) : Option Request :=
  if Path.memSame m.2.path (seen ++ paths (requests.take m.1)) then none else some m.2

theorem firstAfter?_cons (seen : List Path) (q : Request) (rest : List Request) (m : Nat × Request) :
    firstAfter? seen (q :: rest) (m.1 + 1, m.2) = firstAfter? (q.path :: seen) rest m := by
  have hsame : Path.memSame m.2.path (seen ++ q.path :: paths (rest.take m.1)) =
      Path.memSame m.2.path (q.path :: seen ++ paths (rest.take m.1)) :=
    (List.perm_middle.any_eq)
  rw [firstAfter?, firstAfter?, ← hsame]
  rfl

theorem firstAfter?_of_memSame (h : Path.memSame q.path seen = true) (m : Nat × Request) :
    firstAfter? (q.path :: seen) requests m = firstAfter? seen requests m := by
  rw [firstAfter?, firstAfter?]
  refine if_congr ?_ rfl rfl
  rw [Path.memSame_iff, Path.memSame_iff, List.cons_append]
  constructor
  · rintro ⟨path, hmem, hsame⟩
    rcases List.mem_cons.1 hmem with rfl | hmem
    · obtain ⟨path, hseen, hq⟩ := Path.memSame_iff.1 h
      exact ⟨path, List.mem_append_left _ hseen, hsame.trans hq⟩
    · exact ⟨path, hmem, hsame⟩
  · rintro ⟨path, hmem, hsame⟩
    exact ⟨path, List.mem_cons_of_mem _ hmem, hsame⟩

/-- **Distinct requests are the first ones for their paths.** -/
theorem distinctAfter_eq (seen : List Path) (requests : List Request) :
    distinctAfter seen requests = (placed requests).filterMap (firstAfter? seen requests) := by
  induction requests generalizing seen with
  | nil => rfl
  | cons q rest ih =>
    rw [distinctAfter, placed_cons]
    by_cases hseen : Path.memSame q.path seen = true
    · have hhead : firstAfter? seen (q :: rest) (0, q) = none := by
        simp [firstAfter?, paths, hseen]
      rw [if_pos hseen, List.filterMap_cons_none hhead, List.filterMap_map, ih]
      refine List.filterMap_congr fun m _ ↦ ?_
      exact (firstAfter?_of_memSame hseen m).symm.trans (firstAfter?_cons seen q rest m).symm
    · have hhead : firstAfter? seen (q :: rest) (0, q) = some q := by
        simp [firstAfter?, paths, hseen]
      rw [if_neg hseen, List.filterMap_cons_some hhead, List.filterMap_map, ih]
      refine congrArg (q :: ·) (List.filterMap_congr fun m _ ↦ ?_)
      exact (firstAfter?_cons seen q rest m).symm

theorem firstAfter?_nil_iff {q' : Request} : firstAfter? [] requests (i, q) = some q' ↔
    q = q' ∧ ∀ q' ∈ requests.take i, ¬ q.path.Same q'.path := by
  rw [firstAfter?, List.nil_append]
  by_cases hmem : Path.memSame q.path (paths (requests.take i)) = true
  · rw [if_pos hmem]
    obtain ⟨path, hpath, hsame⟩ := Path.memSame_iff.1 hmem
    obtain ⟨q₀, hq₀, rfl⟩ := List.mem_map.1 hpath
    exact ⟨fun h ↦ absurd h (by simp), fun h ↦ absurd hsame (h.2 q₀ hq₀)⟩
  · rw [if_neg hmem, Option.some_inj]
    refine (and_iff_left fun q₀ hq₀ hsame ↦ ?_).symm
    exact hmem (Path.memSame_iff.2 ⟨q₀.path, List.mem_map_of_mem hq₀, hsame⟩)

/-! ## What requests supply -/

/-- The record that a request supplies, if it is the first for its path. -/
def supplied? (t : FileTree) (requests : List Request) (m : Nat × Request) : Option FileRecord :=
  (firstAfter? [] requests m).bind (record? t)

theorem records_eq (t : FileTree) (requests : List Request) :
    records t requests = (placed requests).filterMap (supplied? t requests) := by
  rw [records, distinctAfter_eq, List.filterMap_filterMap]
  rfl

theorem supplied?_iff :
    (∃ q, (i, q) ∈ placed requests ∧ supplied? t requests (i, q) = some r) ↔
      Supplies t requests i r := by
  constructor
  · rintro ⟨q, hq, hr⟩
    obtain ⟨q', hfirst, hr⟩ := Option.bind_eq_some_iff.1 hr
    obtain ⟨rfl, hbefore⟩ := firstAfter?_nil_iff.1 hfirst
    have hplace : IsFirst requests i q := ⟨mem_placed_iff.1 hq, hbefore⟩
    rw [record?] at hr
    by_cases hexisting : q.existing = true
    · rw [if_pos hexisting, FileRecord.load?_eq_some_iff] at hr
      exact .inr ⟨q, hplace, hexisting, hr⟩
    · rw [if_neg hexisting, Option.some_inj] at hr
      exact .inl ⟨q, hplace, by simpa using hexisting, hr.symm⟩
  · rintro (⟨q, ⟨hq, hbefore⟩, hexisting, rfl⟩ | ⟨q, ⟨hq, hbefore⟩, hexisting, hfile⟩)
    · refine ⟨q, mem_placed_iff.2 hq, Option.bind_eq_some_iff.2 ⟨q, ?_, ?_⟩⟩
      · exact firstAfter?_nil_iff.2 ⟨rfl, hbefore⟩
      · rw [record?, if_neg (by simp [hexisting])]
    · refine ⟨q, mem_placed_iff.2 hq, Option.bind_eq_some_iff.2 ⟨q, ?_, ?_⟩⟩
      · exact firstAfter?_nil_iff.2 ⟨rfl, hbefore⟩
      · rw [record?, if_pos hexisting]
        exact FileRecord.load?_eq_some_iff.2 hfile

/-- Of what a request supplies, the files to be created are those that it creates. -/
theorem supplied?_isNew_iff :
    (∃ q, (i, q) ∈ placed requests ∧
      (supplied? t requests (i, q)).filter (·.isNew) = some r) ↔ Creates requests i r := by
  simp only [Option.filter_eq_some_iff]
  constructor
  · rintro ⟨q, hq, hr, hnew⟩
    rcases supplied?_iff.1 ⟨q, hq, hr⟩ with hcreates | ⟨q, -, -, bytes, modified, content, -, -, rfl⟩
    · exact hcreates
    · exact absurd hnew Bool.false_ne_true
  · intro h
    obtain ⟨q, hq, hr⟩ := (supplied?_iff (t := t)).2 (.inl h)
    obtain ⟨q', -, -, rfl⟩ := h
    exact ⟨q, hq, hr, rfl⟩

/-- **Records of requests are what the requests supply.** -/
theorem enumerates_records (t : FileTree) (requests : List Request) :
    ∃ found, Enumerates found (Supplies t requests) ∧ records t requests = found.map (·.2) := by
  refine ⟨_, enumerates_filterMap (supplied? t requests) (pairwise_placed requests)
    fun i r ↦ supplied?_iff, ?_⟩
  rw [map_snd_filterMap, records_eq]

end Request

namespace Project

/-- **The related files are exactly what was requested**, and the files to be created exactly those of
them that a request says not to be there.  The requests are those for the explicit files and then
those for the targets. -/
theorem relatedFiles_collect (p : Project) (t : FileTree) (c : Cache) (clock : Clock)
    (intent : String) (mentions : List Mention) (targets : List Path)
    (h : p.Misses t c clock (p.requests t mentions targets)) :
    ∃ found created, Enumerates found (Request.Supplies t (p.requests t mentions targets)) ∧
      Enumerates created (Request.Creates (p.requests t mentions targets)) ∧
      (p.collect t c clock intent mentions targets).1.relatedFiles = found.map (·.2) ∧
      (p.collect t c clock intent mentions targets).1.filesToCreate = created.map (·.2) := by
  obtain ⟨found, hfound, hrecords⟩ := Request.enumerates_records t (p.requests t mentions targets)
  have hcreated := enumerates_filterMap
    (fun m ↦ (Request.supplied? t (p.requests t mentions targets) m).filter (·.isNew))
    (Request.pairwise_placed (p.requests t mentions targets)) fun i r ↦ Request.supplied?_isNew_iff
  refine ⟨found, _, hfound, hcreated, ?_, ?_⟩
  · rw [collect, bundleFor_of_misses h]
    exact hrecords
  · rw [collect, bundleFor_of_misses h, map_snd_filterMap, Bundle.filesToCreate, assemble,
      Request.records_eq, List.filter_filterMap]

/-- A project in which the file `a` is there. -/
def partly : FileTree where
  nodes := [(["a"], .file "x".toUTF8 ⟨10, 0⟩)]
  here := []

/-- A file that is not there. -/
def mentioned : List Mention :=
  [⟨"b", ⟨"/b"⟩, false, "", "b", false⟩]

/-- The file that is there in two spellings, and once more the one that is not. -/
def wanted : List Path :=
  [⟨"a"⟩, ⟨"./c/../a"⟩, ⟨"b"⟩]

/-- The file that is not there comes first, and each file is listed once. -/
theorem relatedFiles_partly :
    Misses ⟨⟨"/"⟩, {}⟩ partly (.ofLimits ⟨60, 1⟩) (.still ⟨20, 0⟩)
        (requests ⟨⟨"/"⟩, {}⟩ partly mentioned wanted) ∧
      ∃ found created,
        Enumerates found (Request.Supplies partly (requests ⟨⟨"/"⟩, {}⟩ partly mentioned wanted)) ∧
        Enumerates created (Request.Creates (requests ⟨⟨"/"⟩, {}⟩ partly mentioned wanted)) ∧
        (collect ⟨⟨"/"⟩, {}⟩ partly (.ofLimits ⟨60, 1⟩) (.still ⟨20, 0⟩) "rename x" mentioned
          wanted).1.relatedFiles = found.map (·.2) ∧
        (collect ⟨⟨"/"⟩, {}⟩ partly (.ofLimits ⟨60, 1⟩) (.still ⟨20, 0⟩) "rename x" mentioned
          wanted).1.filesToCreate = created.map (·.2) ∧
        (0, FileRecord.placeholder ⟨"/b"⟩) ∈ created ∧
        (1, FileRecord.ofFile ⟨"/a"⟩ "x".toUTF8 ⟨10, 0⟩ "x") ∈ found := by
  have hmisses := misses_ofLimits ⟨⟨"/"⟩, {}⟩ partly ⟨60, 1⟩ (.still ⟨20, 0⟩)
    (requests ⟨⟨"/"⟩, {}⟩ partly mentioned wanted)
  obtain ⟨found, created, hfound, hcreated, hrelated, hcreate⟩ :=
    relatedFiles_collect ⟨⟨"/"⟩, {}⟩ partly (.ofLimits ⟨60, 1⟩) (.still ⟨20, 0⟩) "rename x"
      mentioned wanted hmisses
  have hrequests : requests ⟨⟨"/"⟩, {}⟩ partly mentioned wanted =
      [⟨⟨"/b"⟩, false⟩, ⟨⟨"/a"⟩, true⟩, ⟨⟨"/a"⟩, true⟩, ⟨⟨"/b"⟩, false⟩] := by decide
  refine ⟨hmisses, found, created, hfound, hcreated, hrelated, hcreate, ?_, ?_⟩
  · rw [hcreated.mem_iff, hrequests]
    exact ⟨⟨⟨"/b"⟩, false⟩, ⟨rfl, by simp⟩, rfl, rfl⟩
  · rw [hfound.mem_iff, hrequests]
    exact .inr ⟨⟨⟨"/a"⟩, true⟩, ⟨rfl, by decide⟩, rfl, _, _, "x", rfl,
      FileTree.fromUTF8?_toUTF8 "x", rfl⟩

end Project

end ChangeContext
