import ChangeContext.Engine
import ChangeContext.Proofs.Cache.Snapshot
import ChangeContext.Proofs.FileTree.Edit

/-!
# An engine and its snapshot

An engine is in step with its snapshot when a new engine for the same project that takes the
snapshot over is the same engine (`Engine.InStep`).  That is so right after an engine was opened, and
right after it has written the snapshot (`inStep_saveSnapshot`).

In between, all that matters of a file tree is the text that is read at the place of the snapshot.
Writing another file leaves that text alone, except that the directories made for that file may let
the path of the snapshot lead somewhere (`inStep_exportTo`).
-/

set_option autoImplicit false

namespace ChangeContext

namespace FileTree

variable {t t' : FileTree} {p : Path}

theorem readText?_of_not_pathExists (h : t.pathExists p = false) : t.readText? p = none := by
  have hnone : t.at? p = none := by simpa [pathExists] using h
  rw [readText?, file?, hnone, Option.bind_none]

/-- Making directories changes what is read at a path only if nothing was read there before. -/
theorem Grows.readText? (h : t.Grows t') (hnone : t.file? p = none → t'.file? p = none) :
    t'.readText? p = t.readText? p := by
  cases hp : t.file? p with
  | none => rw [FileTree.readText?, FileTree.readText?, hp, hnone hp]
  | some f => rw [FileTree.readText?, FileTree.readText?, hp, h.file? hp]

end FileTree

namespace Cache

variable {c : Cache} {t t' : FileTree} {now : Instant} {path : Path}

theorem grows_makeParent (t : FileTree) (path : Path) : t.Grows (makeParent t path).1 := by
  rw [makeParent]
  split
  next => exact FileTree.Grows.refl t
  next =>
    split
    next => exact FileTree.Grows.refl t
    next => exact FileTree.grows_makeDirs t _

/-- The steps of writing a snapshot: directories first, and then the file. -/
theorem exportTo_eq (c : Cache) (t : FileTree) (now : Instant) (path : Path) :
    c.exportTo t now path =
      if (makeParent t path).2 then
        match (makeParent t path).1.writeFile? path (c.snapshot now).toText.toUTF8 now with
        | some t' => (t', true)
        | none => ((makeParent t path).1, false)
      else ((makeParent t path).1, false) := rfl

/-- **A snapshot that was written is read back.** -/
theorem readText?_exportTo (h : (c.exportTo t now path).2 = true) :
    (c.exportTo t now path).1.readText? path = some (c.snapshot now).toText := by
  rw [exportTo_eq] at h ⊢
  split at h
  next hmade =>
    rw [if_pos hmade]
    split at h
    next t' hwrite => exact FileTree.readText?_of_file? (FileTree.file?_writeFile? hwrite)
    next => simp at h
  next => simp at h

/-- **Elsewhere** the snapshot itself is read, or what is read once its directory is made. -/
theorem readText?_of_exportTo (c : Cache) (t : FileTree) (now : Instant) (path q : Path) :
    (c.exportTo t now path).1.readText? q = some (c.snapshot now).toText ∨
      (c.exportTo t now path).1.readText? q = (makeParent t path).1.readText? q := by
  rw [exportTo_eq]
  split
  next =>
    split
    next t' hwrite =>
      rcases FileTree.file?_of_writeFile? hwrite q with hsame | hnew
      · exact .inr (by rw [FileTree.readText?, FileTree.readText?, hsame])
      · exact .inl (FileTree.readText?_of_file? hnew)
    next => exact .inr rfl
  next => exact .inr rfl

theorem importFrom?_congr (c : Cache) (h : t'.readText? path = t.readText? path) :
    c.importFrom? t' path = c.importFrom? t path := by
  rw [importFrom?, importFrom?, h]

/-- A file with the text of a snapshot is taken over. -/
theorem importFrom?_of_file? (c : Cache) {s : Snapshot} (hs : s.Fits) {modified : Instant}
    (h : t.file? path = some (s.toText.toUTF8, modified)) :
    c.importFrom? t path = some (c.restore s) := by
  rw [importFrom?, FileTree.readText?_of_file? h, Option.bind_some, Snapshot.ofText?_toText hs,
    Option.map_some]

theorem limits_importFrom? {c' : Cache} (h : c.importFrom? t path = some c') :
    c'.limits = c.limits := by
  obtain ⟨s, -, rfl⟩ := Option.map_eq_some_iff.1 h
  rfl

/-- **Taking over a snapshot that says what a sound cache holds gives that cache**, within the limits
of the one that takes it over. -/
theorem Sound.importFrom? (h : c.Sound) (d : Cache) (hnow : now.Valid)
    (hread : t.readText? path = some (c.snapshot now).toText) :
    d.importFrom? t path = some { c with limits := d.limits } := by
  rw [Cache.importFrom?, hread, Option.bind_some, Snapshot.ofText?_toText (h.fits_snapshot hnow),
    Option.map_some, h.restore_snapshot d]

end Cache

namespace Engine

variable {e : Engine} {t t' : FileTree} {clock : Clock}

/-- A snapshot that is not there is like one that cannot be read. -/
theorem loadSnapshot_eq (e : Engine) (t : FileTree) :
    e.loadSnapshot t = { e with cache := (e.cache.importFrom? t e.snapshotPath).getD e.cache } := by
  rw [loadSnapshot]
  split
  next => rfl
  next h =>
    have hnone : e.cache.importFrom? t e.snapshotPath = none := by
      rw [Cache.importFrom?, FileTree.readText?_of_not_pathExists (by simpa using h)]
      rfl
    rw [hnone, Option.getD_none]

theorem loadSnapshot_of_not_pathExists (h : t.pathExists e.snapshotPath = false) :
    e.loadSnapshot t = e := by
  rw [loadSnapshot, if_neg (by simp [h])]

theorem loadSnapshot_congr (h : t'.readText? e.snapshotPath = t.readText? e.snapshotPath) :
    e.loadSnapshot t' = e.loadSnapshot t := by
  rw [loadSnapshot_eq, loadSnapshot_eq, Cache.importFrom?_congr e.cache h]

@[simp] theorem project_loadSnapshot (e : Engine) (t : FileTree) :
    (e.loadSnapshot t).project = e.project := by
  rw [loadSnapshot_eq]

@[simp] theorem limits_loadSnapshot (e : Engine) (t : FileTree) :
    (e.loadSnapshot t).cache.limits = e.cache.limits := by
  rw [loadSnapshot_eq]
  cases h : e.cache.importFrom? t e.snapshotPath with
  | none => rfl
  | some c => exact Cache.limits_importFrom? h

/-! ## In step with the snapshot -/

/-- The cache is sound, and a new engine that takes the snapshot over is this engine. -/
structure InStep (e : Engine) (t : FileTree) : Prop where
  sound : e.cache.Sound
  reopened : (fresh e.project).loadSnapshot t = e

theorem InStep.limits (h : e.InStep t) : (fresh e.project).cache.limits = e.cache.limits := by
  rw [← limits_loadSnapshot, h.reopened]

/-- Only what is read at the place of the snapshot matters. -/
theorem InStep.congr (h : e.InStep t)
    (hread : t'.readText? e.snapshotPath = t.readText? e.snapshotPath) : e.InStep t' where
  sound := h.sound
  reopened := (loadSnapshot_congr (e := fresh e.project) hread).trans h.reopened

/-- An engine that has just taken the snapshot over is in step with it. -/
theorem inStep_loadSnapshot (p : Project) (t : FileTree) : ((fresh p).loadSnapshot t).InStep t where
  sound := by
    rw [loadSnapshot_eq]
    cases h : (fresh p).cache.importFrom? t (fresh p).snapshotPath with
    | none => exact Cache.sound_ofLimits _
    | some c => exact Cache.sound_importFrom? h
  reopened := by rw [project_loadSnapshot]; rfl

/-- An engine for the same root and with the same settings for its cache takes over the same. -/
theorem InStep.loadSnapshot_fresh (h : e.InStep t) {p : Project} (hroot : p.root = e.project.root)
    (hcache : p.settings.cache = e.project.settings.cache) :
    (fresh p).loadSnapshot t = ⟨p, e.cache⟩ := by
  have hreopened := congrArg cache h.reopened
  have hempty : (fresh p).cache = (fresh e.project).cache := by rw [fresh, hcache, fresh]
  have hpath : (fresh p).snapshotPath = (fresh e.project).snapshotPath := by
    rw [snapshotPath, snapshotPath, cacheSettings, cacheSettings, fresh, hroot, hcache, fresh]
  rw [loadSnapshot_eq] at hreopened
  rw [loadSnapshot_eq, hempty, hpath]
  exact congrArg (Engine.mk p) hreopened

/-- An engine is in step where its snapshot says what its cache holds. -/
theorem inStep_of_readText? (hsound : e.cache.Sound)
    (hlimits : (fresh e.project).cache.limits = e.cache.limits) {now : Instant} (hnow : now.Valid)
    (hread : t.readText? e.snapshotPath = some (e.cache.snapshot now).toText) : e.InStep t where
  sound := hsound
  reopened := by
    have himport : (fresh e.project).cache.importFrom? t (fresh e.project).snapshotPath =
        some e.cache := by
      refine (hsound.importFrom? (fresh e.project).cache hnow hread).trans ?_
      rw [hlimits]
    rw [loadSnapshot_eq, himport]
    rfl

/-- **An engine that has written its snapshot is in step with it.** -/
theorem inStep_saveSnapshot (hsound : e.cache.Sound)
    (hlimits : (fresh e.project).cache.limits = e.cache.limits) (hnow : clock.written.Valid)
    (hsaved : (e.cache.exportTo t clock.written e.snapshotPath).2 = true) :
    e.InStep (e.saveSnapshot t clock) :=
  inStep_of_readText? hsound hlimits hnow (Cache.readText?_exportTo hsaved)

/-- **Writing the cache somewhere keeps the engine in step**, unless the directories made for that
let the path of the snapshot lead to a file. -/
theorem inStep_exportTo (h : e.InStep t) {now : Instant} (hnow : now.Valid) {path : Path}
    (hapart : t.file? e.snapshotPath = none →
      (Cache.makeParent t path).1.file? e.snapshotPath = none) :
    e.InStep (e.cache.exportTo t now path).1 := by
  rcases Cache.readText?_of_exportTo e.cache t now path e.snapshotPath with hnew | hsame
  · exact inStep_of_readText? h.sound h.limits hnow hnew
  · refine h.congr (hsame.trans ?_)
    exact (Cache.grows_makeParent t path).readText? hapart

end Engine

end ChangeContext
