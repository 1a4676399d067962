import ChangeContext.Proofs.Cache.Key
import ChangeContext.Proofs.Engine.Snapshot
import ChangeContext.Proofs.Path.Order

/-!
# More entries than there is room for

A cache does not come to hold more entries than there is room for, except by taking over a snapshot
of a larger cache.  Storing under a new key then costs one entry, as in any cache that is full, so it
leaves the number of entries as it is.  Hence the cache is within its limits after an entry was stored
just if it was so before (`size_step_le_capacity_iff`), and only what drops entries for another reason
can bring it back there.  Once it is back, it stays.
-/

set_option autoImplicit false

namespace ChangeContext

namespace Cache

/-- **Storing neither exceeds the capacity nor restores it.** -/
theorem size_step_le_capacity_iff {c : Cache} {ev : Event} {e : Entry} (h : ev.stored? = some e) :
    (c.step ev).entries.size ≤ c.limits.capacity ↔ c.entries.size ≤ c.limits.capacity := by
  rw [entries_step_of_stored? c h, size_insert_makeRoom]
  split
  next => exact Iff.rfl
  next hroom =>
    rw [not_or] at hroom
    omega

/-- **How many entries there are right after one was stored**, in a cache that has taken a snapshot
over and been used since.  There are no more of them than there is room for just if there were no more
before.  In no case are there more than were taken over.  If the cache was within its limits at any
time since then — in particular, if no more was taken over than there is room for — it is so now. -/
theorem size_run_importFrom? {c c' : Cache} {t : FileTree} {path : Path}
    (himport : c.importFrom? t path = some c') (events : List Event) {ev : Event} {e : Entry}
    (hstored : ev.stored? = some e) :
    ((c'.run (events ++ [ev])).entries.size ≤ max 1 c.limits.maxEntries ↔
      (c'.run events).entries.size ≤ max 1 c.limits.maxEntries) ∧
    (c'.run (events ++ [ev])).entries.size ≤ max c'.entries.size (max 1 c.limits.maxEntries) ∧
    (∀ earlier later, events = earlier ++ later →
      (c'.run earlier).entries.size ≤ max 1 c.limits.maxEntries →
      (c'.run (events ++ [ev])).entries.size ≤ max 1 c.limits.maxEntries) := by
  have hcapacity : max 1 c.limits.maxEntries = c'.limits.capacity := by
    rw [limits_importFrom? himport, Limits.capacity, max_comm]
  rw [hcapacity]
  refine ⟨?_, ?_, fun earlier later hsplit hearlier ↦ ?_⟩
  · have hstep := size_step_le_capacity_iff (c := c'.run events) hstored
    rwa [limits_run, ← run_singleton, ← run_append] at hstep
  · exact size_run_le (Nat.le_max_right ..) (Nat.le_max_left ..) _
  · have hrun := size_run_le (c := c'.run earlier) (Nat.le_of_eq (congrArg _ (limits_run ..)))
      hearlier (later ++ [ev])
    rwa [← run_append, ← List.append_assoc, ← hsplit] at hrun

/-- An entry that was stored elsewhere. -/
def foreign (k : String) (createdAt : Instant) : Entry :=
  ⟨k, [⟨k⟩], "", default, createdAt⟩

/-- A snapshot of two entries. -/
def twoForeign : Snapshot :=
  ⟨⟨2, 0⟩, Counters.zero, [foreign "k" ⟨0, 0⟩, foreign "l" ⟨1, 0⟩]⟩

/-- A tree with this snapshot and a file beside it. -/
def besideSnapshot : FileTree where
  nodes := [(["a"], .file "x".toUTF8 ⟨0, 0⟩), (["s"], .file twoForeign.toText.toUTF8 ⟨2, 0⟩)]
  here := []

/-- A bundle is set for that file. -/
def settingBeside : Event :=
  ⟨besideSnapshot, ⟨3, 0⟩, .set [⟨"a"⟩] default⟩

theorem fits_twoForeign : twoForeign.Fits where
  exportedAt := by decide
  counters := Counters.fits_zero
  entries e he := by
    rcases List.mem_cons.1 he with rfl | he
    · exact ⟨Bundle.fits_default, by decide⟩
    · rw [List.mem_singleton.1 he]
      exact ⟨Bundle.fits_default, by decide⟩

theorem importFrom?_besideSnapshot (limits : Limits) :
    (ofLimits limits).importFrom? besideSnapshot ⟨"s"⟩ =
      some ((ofLimits limits).restore twoForeign) := by
  have hfile : besideSnapshot.file? ⟨"s"⟩ = some (twoForeign.toText.toUTF8, ⟨2, 0⟩) := rfl
  exact importFrom?_of_file? _ fits_twoForeign hfile

theorem exists_stored?_settingBeside : ∃ e, settingBeside.stored? = some e := by
  have hread : ∀ p ∈ Path.canonicalSet [⟨"a"⟩], (besideSnapshot.file? p).isSome = true := by
    rw [Path.canonicalSet_singleton]
    decide +kernel
  obtain ⟨state, hstate⟩ := exists_state? hread
  exact ⟨_, (stored?_eq_some_iff rfl).2 ⟨state, hstate, rfl⟩⟩

/-- Two entries are as many as there is room for, and remain so. -/
theorem size_run_importFrom?_roomForTwo :
    (((ofLimits ⟨60, 2⟩).restore twoForeign).run ([] ++ [settingBeside])).entries.size ≤ 2 := by
  obtain ⟨e, hstored⟩ := exists_stored?_settingBeside
  exact (size_run_importFrom? (importFrom?_besideSnapshot ⟨60, 2⟩) [] hstored).2.2 [] [] rfl
    (by decide)

/-- Where there is room for one entry, two are taken over, and there still are two after another was
stored. -/
theorem size_run_importFrom?_roomForOne :
    (ofLimits ⟨60, 1⟩).importFrom? besideSnapshot ⟨"s"⟩ =
        some ((ofLimits ⟨60, 1⟩).restore twoForeign) ∧
      settingBeside.stored?.isSome = true ∧
      ¬ (((ofLimits ⟨60, 1⟩).restore twoForeign).run [settingBeside]).entries.size ≤ max 1 1 := by
  obtain ⟨e, hstored⟩ := exists_stored?_settingBeside
  refine ⟨importFrom?_besideSnapshot ⟨60, 1⟩, by rw [hstored]; rfl, fun hsize ↦ ?_⟩
  have hbefore : ((ofLimits ⟨60, 1⟩).restore twoForeign).entries.size ≤ 1 :=
    (size_step_le_capacity_iff hstored).1 hsize
  exact absurd hbefore (by decide)

end Cache

end ChangeContext
