import ChangeContext.Proofs.Assembly.Lookup
import ChangeContext.Proofs.Assembly.Similar
import ChangeContext.Proofs.Mention.Resolution

/-!
# No file is listed twice

The paths that a bundle lists come about in three ways.  Targets and mentions are put into normal
form, a file that is searched for is given the path that leads down to it, and similar files are met
on a walk.  A file is not listed as a similar one if its path was requested, and this has an effect
only because the same file is given the same path in all three ways.

Here this means two things.  The paths that are listed are pairwise different, and they are in normal
form if the root of the project is, so a file is not listed in two spellings either
(`pairwise_listed_collect`).
-/

set_option autoImplicit false

namespace ChangeContext

variable {p : Project} {t : FileTree}

/-! ## Related files -/

namespace Request

theorem exists_path_of_mem_records {requests : List Request} {r : FileRecord}
    (h : r ∈ records t requests) : ∃ q ∈ requests, r.path = q.path := by
  obtain ⟨q, hq, hr⟩ := List.mem_filterMap.1 h
  exact ⟨q, mem_of_mem_distinctAfter hq, path_of_record? hr⟩

/-- Records of requests have different paths. -/
theorem pairwise_records (t : FileTree) (requests : List Request) :
    (records t requests).Pairwise fun r s ↦ ¬ r.path.Same s.path := by
  rw [records, List.pairwise_filterMap]
  refine (pairwise_distinctAfter [] requests).imp fun hne r hr s hs ↦ ?_
  rwa [path_of_record? hr, path_of_record? hs]

/-- A target is requested by a path in normal form. -/
theorem isNormal_of_mem_requests {mentions : List Mention} {targets : List Path}
    (hmentions : ∀ m ∈ mentions, m.resolved.isAbsolute = true → m.resolved.IsNormal) {q : Request}
    (h : q ∈ p.requests t mentions targets) (habsolute : q.path.isAbsolute = true) :
    q.path.IsNormal := by
  rcases List.mem_append.1 h with h | h
  · obtain ⟨m, hm, rfl⟩ := List.mem_map.1 h
    exact hmentions m hm habsolute
  · obtain ⟨target, -, rfl⟩ := List.mem_map.1 h
    exact Path.isNormal_normalize _

end Request

/-! ## Similar files -/

namespace Similar

variable {related : List FileRecord} {covered : List Path}

theorem exists_of_mem_files {r : FileRecord} (h : r ∈ files p t related covered) :
    ∃ v ∈ t.walk p.ignored.contains p.settings.context.similarSearchDepth p.root,
      pick? p t related covered v = some r := by
  rw [files_eq] at h
  exact List.mem_filterMap.1 (List.mem_of_mem_take h)

theorem path_of_pick? {v : FileTree.Visit} {r : FileRecord}
    (h : pick? p t related covered v = some r) : r.path = v.path := by
  obtain ⟨bytes, modified, -, -, -, -, hload⟩ := pick?_eq_some_iff.1 h
  exact FileRecord.path_of_load? hload

/-- A similar file was not requested. -/
theorem not_same_of_mem_files {r : FileRecord} (h : r ∈ files p t related covered) {q : Path}
    (hq : q ∈ covered) : ¬ r.path.Same q := by
  obtain ⟨v, -, hpick⟩ := exists_of_mem_files h
  rw [path_of_pick? hpick]
  obtain ⟨bytes, modified, -, hfresh, -⟩ := pick?_eq_some_iff.1 hpick
  exact hfresh q hq

theorem liesBelow_of_mem_files (ht : t.Proper) (hd : t.Distinct) {r : FileRecord}
    (h : r ∈ files p t related covered) : p.root.LiesBelow r.path := by
  obtain ⟨v, hv, hpick⟩ := exists_of_mem_files h
  obtain ⟨met, hwalk, -, hnames⟩ := FileTree.exists_walk_eq ht hd p.ignored.contains
    p.settings.context.similarSearchDepth p.root
  rw [hwalk] at hv
  obtain ⟨m, hm, rfl⟩ := List.mem_map.1 hv
  exact ⟨m.1, hnames m hm, path_of_pick? hpick⟩

/-- Similar files have different paths. -/
theorem pairwise_files (ht : t.Proper) (hd : t.Distinct) :
    (files p t related covered).Pairwise fun r s ↦ ¬ r.path.Same s.path := by
  obtain ⟨met, hwalk, hascending, hnames⟩ := FileTree.exists_walk_eq ht hd p.ignored.contains
    p.settings.context.similarSearchDepth p.root
  rw [files_eq, hwalk]
  refine List.Pairwise.sublist (List.take_sublist _ _) ?_
  rw [List.pairwise_filterMap, List.pairwise_map]
  rw [List.pairwise_map] at hascending
  refine hascending.imp_of_mem fun {m m'} hm hm' hlt r hr s hs ↦ ?_
  rw [path_of_pick? hr, path_of_pick? hs, Path.below_same_iff (hnames m hm) (hnames m' hm')]
  rintro heq
  exact List.lt_irrefl _ (heq ▸ hlt)

end Similar

/-! ## What a bundle lists -/

namespace Project

/-- **The files that are listed have different paths**, whatever the requests are. -/
theorem pairwise_assemble (p : Project) (ht : t.Proper) (hd : t.Distinct) (now : Instant)
    (intent : String) (requests : List Request) :
    ((p.assemble t now intent requests).relatedFiles ++
      (p.assemble t now intent requests).similarFiles).Pairwise
        fun r s ↦ ¬ r.path.Same s.path := by
  refine List.pairwise_append.2 ⟨Request.pairwise_records t requests,
    Similar.pairwise_files ht hd, fun r hr s hs hsame ↦ ?_⟩
  obtain ⟨q, hq, hpath⟩ := Request.exists_path_of_mem_records hr
  have hcovered : q.path ∈ requests.map (·.path) := List.mem_map_of_mem hq
  exact Similar.not_same_of_mem_files hs hcovered (hpath ▸ hsame.symm)

/-- **No file is listed twice**, if the root is in normal form and the mentions are those of a text: the
paths of the related and of the similar files are pairwise different.  They are in normal form, except
for relative ones, so that they do not stand for the same file in different spellings either. -/
theorem pairwise_listed_collect (p : Project) (t : FileTree) (c : Cache) (clock : Clock)
    (intent : String) (mentions : List Mention) (targets : List Path) (ht : t.Proper)
    (hd : t.Distinct) (h : p.Misses t c clock (p.requests t mentions targets))
    (hroot : p.root.IsNormal)
    (hmentions : ∀ m ∈ mentions, ∃ t' ignored text, FileTree.Proper t' ∧
      m ∈ Mention.ofText t' p.root ignored text) :
    ((p.collect t c clock intent mentions targets).1.relatedFiles ++
      (p.collect t c clock intent mentions targets).1.similarFiles).Pairwise
        (fun r s ↦ ¬ r.path.Same s.path) ∧
      ∀ r ∈ (p.collect t c clock intent mentions targets).1.relatedFiles ++
        (p.collect t c clock intent mentions targets).1.similarFiles,
        r.path.isAbsolute = true → r.path.IsNormal := by
  rw [collect, bundleFor_of_misses h]
  refine ⟨pairwise_assemble p ht hd clock.assembled intent _, fun r hr habsolute ↦ ?_⟩
  rcases List.mem_append.1 hr with hr | hr
  · obtain ⟨q, hq, hpath⟩ := Request.exists_path_of_mem_records hr
    rw [hpath] at habsolute ⊢
    refine Request.isNormal_of_mem_requests (fun m hm ↦ ?_) hq habsolute
    obtain ⟨t', ignored, text, ht', hmem⟩ := hmentions m hm
    exact Mention.isNormal_resolved ht' hroot hmem
  · obtain ⟨trail, htrail, hpath⟩ := Similar.liesBelow_of_mem_files ht hd hr
    rw [hpath]
    exact hroot.below htrail

/-- A source is mentioned by its name alone, and it is a target as well, by a path that goes up and
down again. -/
theorem pairwise_listed_inSources :
    Mention.inSources.Proper ∧ Mention.inSources.Distinct ∧ (Path.mk "/").IsNormal ∧
      Mention.ofInSources ∈ Mention.ofText Mention.inSources ⟨"/"⟩ [] "a.ts" ∧
      (collect ⟨⟨"/"⟩, {}⟩ Mention.inSources (.ofLimits ⟨60, 1⟩) (.still ⟨20, 0⟩) "rename x"
        [Mention.ofInSources] [⟨"./src//../src/a.ts"⟩]).1.relatedFiles.map (·.path) =
          [⟨"/src/a.ts"⟩] ∧
      ((collect ⟨⟨"/"⟩, {}⟩ Mention.inSources (.ofLimits ⟨60, 1⟩) (.still ⟨20, 0⟩) "rename x"
          [Mention.ofInSources] [⟨"./src//../src/a.ts"⟩]).1.relatedFiles ++
        (collect ⟨⟨"/"⟩, {}⟩ Mention.inSources (.ofLimits ⟨60, 1⟩) (.still ⟨20, 0⟩) "rename x"
          [Mention.ofInSources] [⟨"./src//../src/a.ts"⟩]).1.similarFiles).Pairwise
        fun r s ↦ ¬ r.path.Same s.path := by
  have hproper : Mention.inSources.Proper := by decide
  have hdistinct : Mention.inSources.Distinct := by decide
  have hroot : (Path.mk "/").IsNormal := by decide
  have hmem : Mention.ofInSources ∈ Mention.ofText Mention.inSources ⟨"/"⟩ [] "a.ts" := by
    decide +kernel
  have hmentions : ∀ m ∈ [Mention.ofInSources], ∃ t' ignored text, FileTree.Proper t' ∧
      m ∈ Mention.ofText t' ⟨"/"⟩ ignored text :=
    List.forall_mem_singleton.2 ⟨Mention.inSources, [], "a.ts", hproper, hmem⟩
  have hmisses := misses_ofLimits ⟨⟨"/"⟩, {}⟩ Mention.inSources ⟨60, 1⟩ (.still ⟨20, 0⟩)
    (requests ⟨⟨"/"⟩, {}⟩ Mention.inSources [Mention.ofInSources] [⟨"./src//../src/a.ts"⟩])
  have hlisted := pairwise_listed_collect ⟨⟨"/"⟩, {}⟩ Mention.inSources (.ofLimits ⟨60, 1⟩)
    (.still ⟨20, 0⟩) "rename x" [Mention.ofInSources] [⟨"./src//../src/a.ts"⟩] hproper hdistinct
    hmisses hroot hmentions
  refine ⟨hproper, hdistinct, hroot, hmem, ?_, hlisted.1⟩
  rw [collect, bundleFor_of_misses hmisses]
  decide +kernel

end Project

end ChangeContext
