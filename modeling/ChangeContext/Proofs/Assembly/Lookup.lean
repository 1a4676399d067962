import ChangeContext.Assembly.Basic
import ChangeContext.Proofs.Assembly.Requests
import ChangeContext.Proofs.Cache.Run

/-!
# Where a bundle comes from

There are three ways in which the bundle for some requests may come about.  It is assembled and the
cache has nothing to do with it, or the cache has it, or the cache does not have it and is given what
is assembled.  Whatever holds of the bundles that are answered, or of a cache in the course of being
asked for bundles, is proved along these three (`bundleFor_cases`).  In the first and the last the
bundle is assembled (`Misses`).

What the cache has was stored for requests with the same key, and as a rule these are requests for the
same files (`Request.files_eq_of_key_eq`).
-/

set_option autoImplicit false

namespace ChangeContext

namespace Project

/-- **How a bundle comes about, and what becomes of the cache.** -/
theorem bundleFor_cases (p : Project) (t : FileTree) (c : Cache) (clock : Clock) (intent : String)
    (requests : List Request) :
    ((p.settings.cache.enabled = false ∨ requests = []) ∧
      p.bundleFor t c clock intent requests =
        (p.assemble t clock.assembled intent requests, c)) ∨
    (requests ≠ [] ∧ ∃ b, (c.get t clock.asked (Request.paths requests)).1 = some b ∧
      p.bundleFor t c clock intent requests =
        ({ b with intent := intent }, (c.get t clock.asked (Request.paths requests)).2)) ∨
    (requests ≠ [] ∧ (c.get t clock.asked (Request.paths requests)).1 = none ∧
      p.bundleFor t c clock intent requests =
        (p.assemble t clock.assembled intent requests,
          (c.get t clock.asked (Request.paths requests)).2.set t clock.stored
            (Request.paths requests) (p.assemble t clock.assembled intent requests))) := by
  rw [bundleFor, Request.paths]
  split
  next hasks =>
    rw [Bool.and_eq_true, Bool.not_eq_true', List.isEmpty_eq_false_iff] at hasks
    cases hget : c.get t clock.asked (requests.map (·.path)) with
    | mk found c' =>
      cases found with
      | some b => exact .inr (.inl ⟨hasks.2, b, rfl, by simp only [hget]⟩)
      | none => exact .inr (.inr ⟨hasks.2, rfl, by simp only [hget]⟩)
  next hasks =>
    refine .inl ⟨?_, rfl⟩
    rw [Bool.and_eq_true, not_and_or, Bool.not_eq_true, Bool.not_eq_true, Bool.not_eq_false',
      List.isEmpty_iff] at hasks
    exact hasks

/-- The cache has no answer for these requests, if it is asked at all. -/
def Misses (p : Project) (t : FileTree) (c : Cache) (clock : Clock) (requests : List Request) :
    Prop :=
  p.settings.cache.enabled = true → requests ≠ [] →
    (c.get t clock.asked (Request.paths requests)).1 = none

/-- **A bundle that the cache does not have is assembled.** -/
theorem bundleFor_of_misses {p : Project} {t : FileTree} {c : Cache} {clock : Clock}
    {requests : List Request} (h : p.Misses t c clock requests) (intent : String) :
    (p.bundleFor t c clock intent requests).1 = p.assemble t clock.assembled intent requests := by
  rw [bundleFor]
  split
  next hasks =>
    rw [Bool.and_eq_true, Bool.not_eq_true', List.isEmpty_eq_false_iff] at hasks
    have hnone := h hasks.1 hasks.2
    rw [Request.paths] at hnone
    cases hget : c.get t clock.asked (requests.map (·.path)) with
    | mk found c' =>
      rw [hget] at hnone
      obtain rfl : found = none := hnone
      simp only [hget]
  next => rfl

/-- A cache without entries has no answer for anything. -/
theorem misses_ofLimits (p : Project) (t : FileTree) (limits : Cache.Limits) (clock : Clock)
    (requests : List Request) : p.Misses t (.ofLimits limits) clock requests := by
  intro _ _
  rw [Option.eq_none_iff_forall_ne_some]
  intro b hb
  obtain ⟨e, he, -⟩ := Cache.get_fst_eq_some_iff.1 hb
  simp [Cache.ofLimits] at he

end Project

/-- **Requests with one key are for the same files**, if all paths are on one line and the digest tells
their keys apart. -/
theorem Request.files_eq_of_key_eq {requests requests' : List Request} (hne : requests ≠ [])
    (hne' : requests' ≠ []) (hlines : ∀ r ∈ requests, Cache.OnOneLine r.path)
    (hlines' : ∀ r ∈ requests', Cache.OnOneLine r.path)
    (hdigest : Digest.Tells (Cache.keyText (Path.canonicalSet (paths requests)))
      (Cache.keyText (Path.canonicalSet (paths requests'))))
    (hkey : Cache.keyOf (paths requests) = Cache.keyOf (paths requests')) :
    Path.canonicalSet (paths requests) = Path.canonicalSet (paths requests') := by
  have hset {requests : List Request} (hne : requests ≠ []) :
      Path.canonicalSet (paths requests) ≠ [] := by
    rw [Ne, Path.canonicalSet_eq_nil_iff, paths, List.map_eq_nil_iff]
    exact hne
  have hpaths {requests : List Request} (hlines : ∀ r ∈ requests, Cache.OnOneLine r.path) :
      ∀ q ∈ Path.canonicalSet (paths requests), Cache.OnOneLine q := by
    intro q hq
    obtain ⟨r, hr, rfl⟩ := List.mem_map.1 (Path.mem_of_mem_canonicalSet hq)
    exact hlines r hr
  exact Cache.eq_of_keyText_eq (hset hne) (hset hne') (hpaths hlines) (hpaths hlines') (hdigest hkey)

end ChangeContext
