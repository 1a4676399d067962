import ChangeContext.Proofs.Cache.Run
import Mathlib.Data.Finset.Card

/-!
# What a cache answers

A request is answered from the history of the cache alone.  Soundness: the answer is the bundle that
was stored last under the key, it has not been dropped since, it is not too old, and the state of its
files is the one that was recorded then.  Completeness: if all this holds, and no request found it
otherwise in between, the request is answered as long as fewer other keys have been stored since
than the cache has room for.

Soundness is an invariant of runs, `latest_of_get?_run`.  Completeness is an induction over what
happened since, `get?_run_of_latest`.  The only step at stake is one that makes room.  If the entry
were the one to go it would be the oldest, so that all others were stored after it; together with
the key that needs the room these are as many other keys as there is room for.
-/

set_option autoImplicit false

namespace ChangeContext

namespace Cache

/-- The keys under which something was stored. -/
def storedKeys (events : List Event) : Finset String :=
  (events.filterMap fun ev ↦ ev.stored?.map (·.key)).toFinset

theorem mem_storedKeys {events : List Event} {k : String} :
    k ∈ storedKeys events ↔ ∃ ev ∈ events, ev.Stores k := by
  simp [storedKeys, Event.Stores]

theorem storedKeys_subset_append (before after : List Event) :
    storedKeys before ⊆ storedKeys (before ++ after) := by
  intro k hk
  obtain ⟨ev, hev, hk⟩ := mem_storedKeys.1 hk
  exact mem_storedKeys.2 ⟨ev, List.mem_append_left _ hev, hk⟩

/-- `ev` is the last event of a history that stored something under `k`; it stored `e`, and nothing
has dropped it in the events `after` it. -/
structure Latest (k : String) (ev : Event) (e : Entry) (after : List Event) : Prop where
  stored : ev.stored? = some e
  key_eq : e.key = k
  kept : ∀ x ∈ after, ¬ x.Drops k ∧ ¬ x.Stores k

/-! ## Soundness -/

/-- **Every entry is the one that was stored last under its key.** -/
theorem latest_of_get?_run {limits : Limits} {events : List Event} {k : String} {e : Entry}
    (h : ((ofLimits limits).run events).entries.get? k = some e) :
    ∃ before ev after, events = before ++ ev :: after ∧ Latest k ev e after := by
  induction events using List.reverseRecOn with
  | nil => simp [run, ofLimits] at h
  | append_singleton events x ih =>
    rw [run_append, run_singleton] at h
    rcases get?_step_cases h with ⟨hstored, hkey⟩ | ⟨hbefore, hdrops, hstores⟩
    · exact ⟨events, x, [], rfl, hstored, hkey, by simp⟩
    · obtain ⟨before, ev, after, rfl, hlatest⟩ := ih hbefore
      refine ⟨before, ev, after ++ [x], by simp, hlatest.stored, hlatest.key_eq, fun y hy ↦ ?_⟩
      rcases List.mem_append.1 hy with hy | hy
      · exact hlatest.kept y hy
      · rw [List.mem_singleton.1 hy]
        exact ⟨hdrops, hstores⟩

/-! ## Completeness -/

section Completeness

variable {limits : Limits} {before after : List Event} {ev : Event} {k : String} {e : Entry}

/-- If the latest entry under `k` is among the oldest entries, all others were stored after it. -/
theorem mem_storedKeys_of_oldest
    (hclock : (before ++ ev :: after).Pairwise fun x y ↦ x.now.Precedes y.now)
    (hlatest : Latest k ev e after)
    (holdest : ∀ b ∈ ((ofLimits limits).run (before ++ ev :: after)).entries.toList,
      e.createdAt.le b.2.createdAt = true) {other : String} (hother : other ≠ k)
    (hmem : other ∈ ((ofLimits limits).run (before ++ ev :: after)).entries.keys) :
    other ∈ storedKeys after := by
  obtain ⟨e', he'⟩ := NameMap.mem_keys_iff.1 hmem
  obtain ⟨before', ev', after', hsplit, hlatest'⟩ := latest_of_get?_run he'
  have hev' : ev' ∈ before ++ ev :: after := by simp [hsplit]
  rcases List.mem_append.1 hev' with hbefore | hafter
  · -- an event before `ev` has an earlier time, and its entry would be older than `e`
    have hprec := (List.pairwise_append.1 hclock).2.2 ev' hbefore ev (List.mem_cons_self ..)
    have hle := holdest (other, e') (NameMap.get?_eq_some_iff.1 he')
    rw [createdAt_of_stored? hlatest.stored, createdAt_of_stored? hlatest'.stored, hprec.1] at hle
    exact absurd hle Bool.false_ne_true
  · rcases List.mem_cons.1 hafter with rfl | hafter
    · have hsame : e' = e := Option.some_inj.1 (hlatest'.stored.symm.trans hlatest.stored)
      exact absurd (hlatest'.key_eq.symm.trans (hsame ▸ hlatest.key_eq)) hother
    · exact mem_storedKeys.2 ⟨ev', hafter, e', hlatest'.stored, hlatest'.key_eq⟩

/-- Room is made for a new key at the cost of the latest entry under `k` only if as many other keys
have been stored since as there is room for. -/
theorem capacity_le_card
    (hclock : (before ++ ev :: after).Pairwise fun x y ↦ x.now.Precedes y.now)
    (hlatest : Latest k ev e after) {x : Event} {new : Entry} (hnew : x.stored? = some new)
    (hfresh : ((ofLimits limits).run (before ++ ev :: after)).entries.contains new.key = false)
    (hne : new.key ≠ k)
    (hfull : limits.capacity ≤ ((ofLimits limits).run (before ++ ev :: after)).entries.size)
    (holdest : ∀ b ∈ ((ofLimits limits).run (before ++ ev :: after)).entries.toList,
      e.createdAt.le b.2.createdAt = true) :
    limits.capacity ≤ ((storedKeys (after ++ [x])).erase k).card := by
  set m := ((ofLimits limits).run (before ++ ev :: after)).entries with hm
  have hnotin : new.key ∉ m.keys := by
    rw [NameMap.contains_eq_isSome, Option.isSome_eq_false_iff, Option.isNone_iff_eq_none] at hfresh
    exact NameMap.get?_eq_none_iff.1 hfresh
  have hsub : insert new.key (m.keys.toFinset.erase k) ⊆ (storedKeys (after ++ [x])).erase k := by
    intro other hmem
    rcases Finset.mem_insert.1 hmem with rfl | hmem
    · exact Finset.mem_erase.2 ⟨hne, mem_storedKeys.2 ⟨x, by simp, new, hnew, rfl⟩⟩
    · obtain ⟨hother, hmem⟩ := Finset.mem_erase.1 hmem
      have hstored := mem_storedKeys_of_oldest hclock hlatest holdest hother (List.mem_toFinset.1 hmem)
      exact Finset.mem_erase.2 ⟨hother, storedKeys_subset_append after [x] hstored⟩
  calc limits.capacity
      ≤ m.keys.toFinset.card := by
        rwa [List.toFinset_card_of_nodup m.keys_nodup, NameMap.length_keys]
    _ ≤ (m.keys.toFinset.erase k).card + 1 := by
        rw [← Nat.sub_le_iff_le_add]
        exact Finset.pred_card_le_card_erase
    _ = (insert new.key (m.keys.toFinset.erase k)).card := by
        rw [Finset.card_insert_of_notMem]
        exact fun h ↦ hnotin (List.mem_toFinset.1 (Finset.mem_of_mem_erase h))
    _ ≤ _ := Finset.card_le_card hsub

/-- **The latest entry is still there**, if no request found it out of date, it had not expired when
the cache was cleaned up, and fewer other keys have been stored since than there is room for. -/
theorem get?_run_of_latest
    (hclock : (before ++ ev :: after).Pairwise fun x y ↦ x.now.Precedes y.now)
    (hlatest : Latest k ev e after)
    (hasks : ∀ x ∈ after, x.Asks k → e.Good limits x.tree x.now)
    (hyoung : ∀ x ∈ after, x.operation = .cleanUp → limits.expires e x.now = false)
    (hfew : ((storedKeys after).erase k).card < limits.capacity) :
    ((ofLimits limits).run (before ++ ev :: after)).entries.get? k = some e := by
  induction after using List.reverseRecOn with
  | nil =>
    rw [run_append, run_singleton, entries_step_of_stored? _ hlatest.stored, NameMap.get?_insert,
      if_pos hlatest.key_eq.symm]
  | append_singleton after x ih =>
    have hsplit : before ++ ev :: (after ++ [x]) = (before ++ ev :: after) ++ [x] := by simp
    rw [hsplit] at hclock ⊢
    have hclock' := (List.pairwise_append.1 hclock).1
    have hlatest' : Latest k ev e after :=
      ⟨hlatest.stored, hlatest.key_eq, fun y hy ↦ hlatest.kept y (by simp [hy])⟩
    have hthere := ih hclock' hlatest' (fun y hy ↦ hasks y (by simp [hy]))
      (fun y hy ↦ hyoung y (by simp [hy])) (lt_of_le_of_lt (Finset.card_le_card
        (Finset.erase_subset_erase k (storedKeys_subset_append after [x]))) hfew)
    obtain ⟨hdrops, hstores⟩ := hlatest.kept x (by simp)
    rw [run_append, run_singleton]
    refine get?_step_of_keeps hthere hdrops hstores ?_ ?_ fun new hnew hfresh hfull ↦ ?_
    · rw [limits_run]
      exact hasks x (by simp)
    · rw [limits_run]
      exact hyoung x (by simp)
    · by_contra hnone
      push Not at hnone
      rw [limits_run] at hfull
      refine absurd hfew (Nat.not_lt.2 (capacity_le_card hclock' hlatest' hnew hfresh
        (fun hk ↦ hstores ⟨new, hnew, hk⟩) hfull fun b hb ↦ ?_))
      simpa using hnone b hb

end Completeness

/-! ## The answer of a request -/

/-- `ev` is the last event of a history that set a bundle under the key `k` and stored it: the
bundle `bundle` for the set `files`, whose state was `state`.  In the events `after` it what is filed
under `k` was neither dropped nor replaced. -/
structure LastSet (events : List Event) (k : String) (ev : Event) (after : List Event)
    (files : List Path) (bundle : Bundle) (state : String) : Prop where
  history : ∃ before, events = before ++ ev :: after
  operation : ev.operation = .set files bundle
  key : keyOf files = k
  recorded : state? ev.tree (Path.canonicalSet files) = some state
  kept : ∀ x ∈ after, ¬ x.Drops k ∧ ¬ x.Stores k

section Answer

variable {events after : List Event} {k state : String} {ev : Event} {files : List Path}
  {bundle : Bundle}

/-- The last bundle that was set is the last one that was stored. -/
theorem LastSet.latest (h : LastSet events k ev after files bundle state) :
    Latest k ev ⟨k, Path.canonicalSet files, state, bundle, ev.now⟩ after where
  stored := (stored?_eq_some_iff h.operation).2 ⟨state, h.recorded, by rw [h.key]⟩
  key_eq := rfl
  kept := h.kept

/-- The last entry that was stored is that of the last bundle that was set. -/
theorem Latest.lastSet (before : List Event) {e : Entry} (h : Latest k ev e after) :
    ∃ files, LastSet (before ++ ev :: after) k ev after files e.bundle e.state ∧
      e.files = Path.canonicalSet files ∧ e.createdAt = ev.now := by
  obtain ⟨files, bundle, hop, hstate, he⟩ := set_of_stored? h.stored
  have hbundle : e.bundle = bundle := by rw [he]
  have hkey : keyOf files = k := by rw [← h.key_eq, he]
  rw [hbundle]
  exact ⟨files, ⟨⟨before, rfl⟩, hop, hkey, hstate, h.kept⟩, by rw [he], by rw [he]⟩

/-- What is young at the end of a history has been young ever since it was stored. -/
theorem young_of_later {limits : Limits} {stored now later : Instant}
    (hclock : now.Precedes later)
    (h : later.toNanos - stored.toNanos < (limits.age : Int) * 1000000000) :
    now.toNanos - stored.toNanos < (limits.age : Int) * 1000000000 := by
  have hle := hclock.2
  omega

/-- **What a request answers, told from the history of the cache.**  The operations may come with
any changes to the files; the clock goes forward from each to the next.

If the request is answered, the answer is the bundle that was set last under the key, which was not
dropped since, is young enough, and whose files can be read and are as they were.  Conversely, such a
bundle is the answer, provided that no request in between found it otherwise and that fewer other
keys have been stored since than there is room for. -/
theorem get_run_spec (limits : Limits) (events : List Event) (t : FileTree) (now : Instant)
    (request : List Path)
    (hclock : (events.map (·.now) ++ [now]).Pairwise Instant.Precedes) :
    (∀ b, (((ofLimits limits).run events).get t now request).1 = some b →
      ∃ ev after files state, LastSet events (keyOf request) ev after files b state ∧
        limits.Fresh ev.now (Path.canonicalSet files) state t now) ∧
    (∀ b ev after files state, LastSet events (keyOf request) ev after files b state →
      limits.Fresh ev.now (Path.canonicalSet files) state t now →
      (∀ x ∈ after, x.Asks (keyOf request) →
        limits.Fresh ev.now (Path.canonicalSet files) state x.tree x.now) →
      ((storedKeys after).erase (keyOf request)).card < max 1 limits.maxEntries →
      (((ofLimits limits).run events).get t now request).1 = some b) := by
  constructor
  · intro b hb
    obtain ⟨e, hthere, hgood, hbundle⟩ := get_fst_eq_some_iff.1 hb
    obtain ⟨before, ev, after, rfl, hlatest⟩ := latest_of_get?_run hthere
    obtain ⟨files, hset, hfiles, hcreated⟩ := hlatest.lastSet before
    rw [Entry.Good, limits_run, hfiles, hcreated] at hgood
    exact ⟨ev, after, files, e.state, hbundle ▸ hset, hgood⟩
  · intro b ev after files state hset hfresh hasks hfew
    obtain ⟨before, rfl⟩ := hset.history
    obtain ⟨hevents, -, hlast⟩ := List.pairwise_append.1 hclock
    have hyoung : ∀ x ∈ after, limits.expires
        ⟨keyOf request, Path.canonicalSet files, state, b, ev.now⟩ x.now = false := by
      intro x hx
      have hmem : x.now ∈ (before ++ ev :: after).map (·.now) :=
        List.mem_map_of_mem (List.mem_append_right _ (List.mem_cons_of_mem _ hx))
      exact expires_eq_false_iff.2 (young_of_later (hlast _ hmem now (by simp)) hfresh.young)
    refine get_fst_eq_some_iff.2 ⟨_, get?_run_of_latest (List.pairwise_map.1 hevents) hset.latest
      hasks (fun x hx _ ↦ hyoung x hx) ?_, ?_, rfl⟩
    · rwa [Limits.capacity, max_comm]
    · rwa [Entry.Good, limits_run]

end Answer

/-- A tree with a single file `a`. -/
def oneFile : FileTree where
  nodes := [(["a"], .file "x".toUTF8 ⟨0, 0⟩)]
  here := []

theorem isSome_state?_oneFile : (state? oneFile (Path.canonicalSet [⟨"a"⟩])).isSome = true := by
  have hline : (stateLine? oneFile ⟨"a"⟩).isSome = true := by decide +kernel
  obtain ⟨line, hline⟩ := Option.isSome_iff_exists.1 hline
  simp [state?, Path.canonicalSet, Path.dedup, Path.dedupAfter, hline]

/-- What was set a second ago is the answer. -/
theorem get_run_of_set_oneFile :
    (((ofLimits ⟨60, 1⟩).run [⟨oneFile, ⟨1, 0⟩, .set [⟨"a"⟩] default⟩]).get oneFile ⟨2, 0⟩
      [⟨"a"⟩]).1 = some default := by
  obtain ⟨state, hstate⟩ := Option.isSome_iff_exists.1 isSome_state?_oneFile
  refine (get_run_spec ⟨60, 1⟩ [⟨oneFile, ⟨1, 0⟩, .set [⟨"a"⟩] default⟩] oneFile ⟨2, 0⟩ [⟨"a"⟩]
    (by decide)).2 default ⟨oneFile, ⟨1, 0⟩, .set [⟨"a"⟩] default⟩ [] [⟨"a"⟩] state ?_ ?_ ?_ ?_
  · exact ⟨⟨[], rfl⟩, rfl, rfl, hstate, by simp⟩
  · exact ⟨by decide, hstate⟩
  · simp
  · simp [storedKeys]

end Cache

end ChangeContext
