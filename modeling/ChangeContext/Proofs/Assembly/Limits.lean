import ChangeContext.Proofs.Assembly.Lookup
import ChangeContext.Proofs.Assembly.Similar

/-!
# How much there may be in a bundle

The settings bound how many similar files there are in a bundle and how large they may be, and how many
imports and patterns are listed (`Bundle.Within`).  Assembling keeps to these bounds
(`within_assemble`).  Nothing else does: a bundle that comes from the cache is whatever has been stored
there.  So what is answered is as good as what is in the cache already (`holds_bundleFor`).
-/

set_option autoImplicit false

namespace ChangeContext

/-- The bundle holds no more than these settings allow. -/
structure Bundle.Within (b : Bundle) (s : ContextSettings) : Prop where
  similar : b.similarFiles.length ≤ s.similarFilesLimit
  sizes : ∀ r ∈ b.similarFiles, r.size ≤ s.maxFileSize
  imports : b.commonImports.length ≤ s.topK
  patterns : b.commonPatterns.length ≤ s.topK

/-- The intent takes up nothing that is bounded. -/
theorem Bundle.Within.withIntent {b : Bundle} {s : ContextSettings} (h : b.Within s)
    (intent : String) : ({ b with intent := intent } : Bundle).Within s :=
  ⟨h.similar, h.sizes, h.imports, h.patterns⟩

/-! ## Assembling -/

namespace Similar

/-- A file that is picked on a walk is not too large. -/
theorem size_le_of_pick? {p : Project} {t : FileTree} {related : List FileRecord}
    {covered : List Path} {skips : String → Bool} {levels : Nat} {root : Path} {v : FileTree.Visit}
    {r : FileRecord} (hv : v ∈ t.walk skips levels root)
    (h : pick? p t related covered v = some r) : r.size ≤ p.settings.context.maxFileSize := by
  obtain ⟨bytes, modified, hnode, -, -, hsize, hload⟩ := pick?_eq_some_iff.1 h
  obtain ⟨bytes', modified', content, hat, -, rfl⟩ := FileRecord.load?_eq_some_iff.1 hload
  have hlink := FileTree.atLink?_of_mem_walk hv
  rw [hnode] at hlink
  -- it is a regular file and no link, so what is loaded is what was met
  rcases t.atLink?_cases v.path with hsame | ⟨target, htarget⟩
  · obtain ⟨rfl, rfl⟩ := Node.file.inj (Option.some_inj.1 (hat.symm.trans (hsame.symm.trans hlink)))
    exact hsize
  · cases htarget.symm.trans hlink

end Similar

namespace Project

/-- **What is assembled keeps within the settings.** -/
theorem within_assemble (p : Project) (t : FileTree) (now : Instant) (intent : String)
    (requests : List Request) :
    (p.assemble t now intent requests).Within p.settings.context where
  similar := by
    rw [assemble, Similar.files_eq]
    exact List.length_take_le ..
  sizes r hr := by
    rw [assemble, Similar.files_eq] at hr
    obtain ⟨v, hv, hpick⟩ := List.mem_filterMap.1 (List.mem_of_mem_take hr)
    exact Similar.size_le_of_pick? hv hpick
  imports := List.length_take_le ..
  patterns := List.length_take_le ..

end Project

/-! ## Answering -/

namespace Cache

/-- This holds of all bundles in the cache. -/
def Holds (c : Cache) (P : Bundle → Prop) : Prop :=
  ∀ k e, c.entries.get? k = some e → P e.bundle

variable {c : Cache} {P : Bundle → Prop}

theorem holds_ofLimits (limits : Limits) : (ofLimits limits).Holds P := by
  intro k e he
  simp [ofLimits] at he

theorem Holds.step (h : c.Holds P) {ev : Event} (hstored : ∀ e, ev.stored? = some e → P e.bundle) :
    (c.step ev).Holds P := by
  intro k e he
  rcases get?_step_cases he with ⟨hnew, -⟩ | ⟨hold, -, -⟩
  · exact hstored e hnew
  · exact h k e hold

theorem Holds.of_get (h : c.Holds P) {t : FileTree} {now : Instant} {files : List Path} {b : Bundle}
    (hb : (c.get t now files).1 = some b) : P b := by
  obtain ⟨e, he, -, rfl⟩ := get_fst_eq_some_iff.1 hb
  exact h _ e he

end Cache

namespace Project

/-- **What holds of the bundles in the cache and of what is assembled** holds of the bundle that is
answered and of those in the cache afterwards, as long as the intent does not matter to it. -/
theorem holds_bundleFor {P : Bundle → Prop} {p : Project} {t : FileTree} {c : Cache} {clock : Clock}
    {intent : String} {requests : List Request} (hc : c.Holds P)
    (hassembled : P (p.assemble t clock.assembled intent requests))
    (hintent : ∀ b, P b → P { b with intent := intent }) :
    P (p.bundleFor t c clock intent requests).1 ∧ (p.bundleFor t c clock intent requests).2.Holds P := by
  let asking : Cache.Event := ⟨t, clock.asked, .get (Request.paths requests)⟩
  let storing : Cache.Event :=
    ⟨t, clock.stored, .set (Request.paths requests) (p.assemble t clock.assembled intent requests)⟩
  have hget : (c.step asking).Holds P := hc.step (by simp [asking, Cache.Event.stored?])
  have hset : ((c.step asking).step storing).Holds P := by
    refine hget.step fun e he ↦ ?_
    obtain ⟨state, -, rfl⟩ := (Cache.stored?_eq_some_iff rfl).1 he
    exact hassembled
  rcases bundleFor_cases p t c clock intent requests with
    ⟨-, heq⟩ | ⟨-, b, hb, heq⟩ | ⟨-, -, heq⟩
  · rw [heq]
    exact ⟨hassembled, hc⟩
  · rw [heq]
    exact ⟨hintent b (hc.of_get hb), hget⟩
  · rw [heq]
    exact ⟨hassembled, hset⟩

end Project

end ChangeContext
