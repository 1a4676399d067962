import ChangeContext.Proofs.Cache.History
import ChangeContext.Proofs.Cache.Key
import ChangeContext.Proofs.Path.Order
import Mathlib.Data.List.Dedup

/-!
# What a full cache keeps

Storing an entry under a new key costs a full cache one entry, which is one of the oldest, and leaves
everything else alone (`step_of_stored_cases`).  Storing it again under a key that is there costs
nothing, and makes it young.  So what survives a long run of storing is told by the last time that
each key was stored: these keys are there whose last times are the latest ones, as many as there is
room for (`mem_keys_run_iff`).  `storing_keeps_latest` has both, in terms of which files can be read.

For this it is enough to see that these keys are there, since there is no room for others.  Where
something is stored all the time no request finds an entry out of date, so that the latest one under a
key is there as long as there is room (`get?_run_of_latest`).
-/

set_option autoImplicit false

namespace ChangeContext

namespace Cache

/-! ## Storing one entry -/

/-- Under all keys but these, the same is filed in both. -/
def SameBut (keys : List String) (m m' : NameMap Entry) : Prop :=
  ∀ k, k ∉ keys → m'.get? k = m.get? k

/-- The entry was stored, and nothing was given up for it. -/
structure Admits (c : Cache) (e : Entry) (c' : Cache) : Prop where
  room : e.key ∈ c.entries.keys ∨ c.entries.size < c.limits.capacity
  filed : c'.entries.get? e.key = some e
  others : SameBut [e.key] c.entries c'.entries

/-- The entry was stored, and the one under the key `old` was given up for it. -/
structure Replaces (c : Cache) (old : String) (e : Entry) (c' : Cache) : Prop where
  new : e.key ∉ c.entries.keys
  full : c.limits.capacity ≤ c.entries.size
  oldest : ∃ o, c.entries.get? old = some o ∧
    ∀ k b, c.entries.get? k = some b → o.createdAt.le b.createdAt = true
  filed : c'.entries.get? e.key = some e
  gone : c'.entries.get? old = none
  others : SameBut [e.key, old] c.entries c'.entries

/-- **What storing costs**: nothing under a key that is there or where there is room, and otherwise an
entry than which none is older. -/
theorem step_of_stored_cases (c : Cache) {ev : Event} {e : Entry} (h : ev.stored? = some e) :
    c.Admits e (c.step ev) ∨ ∃ old, c.Replaces old e (c.step ev) := by
  have hentries := entries_step_of_stored? c h
  by_cases hroom : e.key ∈ c.entries.keys ∨ c.entries.size < c.limits.capacity
  · have hmake : c.makeRoom e.key = c.entries := hroom.elim makeRoom_of_mem makeRoom_of_lt
    refine .inl ⟨hroom, ?_, fun k hk ↦ ?_⟩
    · rw [hentries, NameMap.get?_insert, if_pos rfl]
    · rw [hentries, hmake, NameMap.get?_insert, if_neg (by simpa using hk)]
  · obtain ⟨hnew, hfull⟩ := not_or.1 hroom
    have hfull := Nat.le_of_not_lt hfull
    obtain ⟨old, o, hold, holdest, hmake⟩ := exists_makeRoom_eq_erase hnew hfull
    have hne : old ≠ e.key := fun heq ↦ hnew (NameMap.mem_keys_iff.2 ⟨o, heq ▸ hold⟩)
    refine .inr ⟨old, hnew, hfull, ⟨o, hold, fun k b hb ↦ ?_⟩, ?_, ?_, fun k hk ↦ ?_⟩
    · exact holdest (k, b) (NameMap.get?_eq_some_iff.1 hb)
    · rw [hentries, NameMap.get?_insert, if_pos rfl]
    · rw [hentries, hmake, NameMap.get?_insert, if_neg hne, NameMap.get?_erase, if_pos rfl]
    · simp only [List.mem_cons, List.not_mem_nil, or_false, not_or] at hk
      rw [hentries, hmake, NameMap.get?_insert, if_neg hk.1, NameMap.get?_erase, if_neg hk.2]

/-! ## A run of storing -/

/-- The event stores an entry. -/
def Event.IsStored (ev : Event) : Prop :=
  ∃ e, ev.stored? = some e

/-- The keys under which something was stored, in this order, as often as it was. -/
def keysStored (events : List Event) : List String :=
  events.filterMap fun ev ↦ ev.stored?.map (·.key)

/-- The keys under which something was stored, each once, the one that was stored last before the
others. -/
def recentKeys (events : List Event) : List String :=
  (keysStored events).dedup.reverse

section Run

variable {limits : Limits} {events before after : List Event} {ev : Event} {e : Entry} {k : String}

/-- Only setting a bundle stores an entry. -/
theorem Event.IsStored.exists_set (h : ev.IsStored) :
    ∃ files bundle, ev.operation = .set files bundle := by
  obtain ⟨e, hstored⟩ := h
  obtain ⟨files, bundle, hset, -⟩ := set_of_stored? hstored
  exact ⟨files, bundle, hset⟩

theorem mem_keysStored_iff : k ∈ keysStored events ↔ ∃ ev ∈ events, ev.Stores k := by
  simp [keysStored, Event.Stores]

theorem mem_recentKeys_iff : k ∈ recentKeys events ↔ ∃ ev ∈ events, ev.Stores k := by
  rw [recentKeys, List.mem_reverse, List.mem_dedup, mem_keysStored_iff]

theorem nodup_recentKeys (events : List Event) : (recentKeys events).Nodup :=
  List.nodup_reverse.2 (List.nodup_dedup _)

/-- Some event is the last one to store under a key. -/
theorem exists_latest (h : ∃ ev ∈ events, ev.Stores k) :
    ∃ before ev after, events = before ++ ev :: after ∧ ev.Stores k ∧ ∀ x ∈ after, ¬ x.Stores k := by
  induction events using List.reverseRecOn with
  | nil => simp at h
  | append_singleton events x ih =>
    by_cases hx : x.Stores k
    · exact ⟨events, x, [], rfl, hx, by simp⟩
    · obtain ⟨ev, hev, hstores⟩ := h
      have hev : ev ∈ events := by
        rcases List.mem_append.1 hev with hev | hev
        · exact hev
        · exact absurd (List.mem_singleton.1 hev ▸ hstores) hx
      obtain ⟨before, ev, after, rfl, hlast, hafter⟩ := ih ⟨ev, hev, hstores⟩
      refine ⟨before, ev, after ++ [x], by simp, hlast, ?_⟩
      simpa [or_imp, forall_and] using ⟨hafter, hx⟩

/-- Before a key come those that were stored after it. -/
theorem recentKeys_split (before : List Event) (hev : ev.Stores k)
    (hafter : ∀ x ∈ after, ¬ x.Stores k) :
    ∃ rest, recentKeys (before ++ ev :: after) = recentKeys after ++ k :: rest := by
  obtain ⟨e, hstored, rfl⟩ := hev
  have hkeys : keysStored (before ++ ev :: after) =
      keysStored before ++ e.key :: keysStored after := by
    simp [keysStored, hstored]
  have hnot : e.key ∉ keysStored after := fun hmem ↦ by
    obtain ⟨x, hx, hstores⟩ := mem_keysStored_iff.1 hmem
    exact hafter x hx hstores
  obtain ⟨front, hfront⟩ := List.suffix_union_right (keysStored before) (e.key :: keysStored after).dedup
  refine ⟨front.reverse, ?_⟩
  rw [recentKeys, hkeys, List.dedup_append, ← hfront, List.dedup_cons_of_notMem hnot]
  simp [recentKeys]

theorem length_recentKeys (events : List Event) :
    (recentKeys events).length = (storedKeys events).card := by
  rw [recentKeys, List.length_reverse, storedKeys, List.card_toFinset]
  rfl

/-- Where something is stored all the time, the latest entry under a key is there as long as fewer
other keys have been stored since than there is room for. -/
theorem get?_run_of_latest_of_isStored
    (hclock : (before ++ ev :: after).Pairwise fun x y ↦ x.now.Precedes y.now)
    (hlatest : Latest k ev e after) (hstored : ∀ x ∈ after, x.IsStored)
    (hfew : ((storedKeys after).erase k).card < limits.capacity) :
    ((ofLimits limits).run (before ++ ev :: after)).entries.get? k = some e := by
  -- an event that stores something is no request, and cleans nothing up
  refine get?_run_of_latest hclock hlatest (fun x hx hasks ↦ ?_) (fun x hx hclean ↦ ?_) hfew
  · obtain ⟨files, bundle, hset⟩ := (hstored x hx).exists_set
    obtain ⟨request, hget, -⟩ := hasks
    simp [hset] at hget
  · obtain ⟨files, bundle, hset⟩ := (hstored x hx).exists_set
    simp [hset] at hclean

/-- **The keys that were stored last are there**, as many as there is room for. -/
theorem take_recentKeys_subset_keys (limits : Limits)
    (hclock : events.Pairwise fun x y ↦ x.now.Precedes y.now) (hstored : ∀ x ∈ events, x.IsStored) :
    (recentKeys events).take limits.capacity ⊆ ((ofLimits limits).run events).entries.keys := by
  intro k hk
  obtain ⟨before, ev, after, rfl, hev, hafter⟩ :=
    exists_latest (mem_recentKeys_iff.1 (List.mem_of_mem_take hk))
  obtain ⟨rest, hsplit⟩ := recentKeys_split before hev hafter
  have hnot : k ∉ storedKeys after := fun hmem ↦ by
    obtain ⟨x, hx, hstores⟩ := mem_storedKeys.1 hmem
    exact hafter x hx hstores
  have hfew : ((storedKeys after).erase k).card < limits.capacity := by
    rw [Finset.erase_eq_of_notMem hnot, ← length_recentKeys]
    by_contra hmany
    rw [hsplit, List.take_append_of_le_length (Nat.le_of_not_lt hmany)] at hk
    obtain ⟨x, hx, hstores⟩ := mem_recentKeys_iff.1 (List.mem_of_mem_take hk)
    exact hafter x hx hstores
  obtain ⟨e, hev, hkey⟩ := hev
  have hlatest : Latest k ev e after := by
    refine ⟨hev, hkey, fun x hx ↦ ⟨?_, hafter x hx⟩⟩
    obtain ⟨files, bundle, hset⟩ := (hstored x (by simp [hx])).exists_set
    simp [Event.Drops, hset]
  exact NameMap.mem_keys_iff.2 ⟨e, get?_run_of_latest_of_isStored hclock hlatest
    (fun x hx ↦ hstored x (by simp [hx])) hfew⟩

/-- **A run of storing leaves the keys that were stored last**, as many as there is room for. -/
theorem mem_keys_run_iff
    (hclock : events.Pairwise fun x y ↦ x.now.Precedes y.now) (hstored : ∀ x ∈ events, x.IsStored) :
    k ∈ ((ofLimits limits).run events).entries.keys ↔
      k ∈ (recentKeys events).take limits.capacity := by
  refine ⟨fun hk ↦ ?_, fun hk ↦ take_recentKeys_subset_keys limits hclock hstored hk⟩
  by_cases hall : (recentKeys events).length ≤ limits.capacity
  · rw [List.take_of_length_le hall]
    obtain ⟨e, he⟩ := NameMap.mem_keys_iff.1 hk
    obtain ⟨before, ev, after, rfl, hlatest⟩ := latest_of_get?_run he
    exact mem_recentKeys_iff.2 ⟨ev, by simp, e, hlatest.stored, hlatest.key_eq⟩
  · -- there is no room for more keys than these
    have hsub := ((nodup_recentKeys events).sublist (List.take_sublist limits.capacity _)).subperm
      (take_recentKeys_subset_keys limits hclock hstored)
    have hlength : (recentKeys events |>.take limits.capacity).length = limits.capacity :=
      List.length_take_of_le (Nat.le_of_lt (Nat.lt_of_not_le hall))
    have hsize : ((ofLimits limits).run events).entries.size ≤ limits.capacity :=
      size_run_le (Nat.le_refl _) (Nat.zero_le _) events
    have hperm := hsub.perm_of_length_le (by rwa [NameMap.length_keys, hlength])
    exact hperm.mem_iff.2 hk

end Run

/-! ## Files that can be read -/

/-- All of these files can be read at the event. -/
def Event.CanRead (ev : Event) (files : List Path) : Prop :=
  ∀ p ∈ Path.canonicalSet files, (ev.tree.file? p).isSome = true

section Readable

variable {ev : Event} {files : List Path} {bundle : Bundle}

/-- A bundle that is set is stored just if its files can be read. -/
theorem exists_stored?_iff (hop : ev.operation = .set files bundle) :
    (∃ state, ev.stored? = some ⟨keyOf files, Path.canonicalSet files, state, bundle, ev.now⟩) ↔
      ev.CanRead files := by
  constructor
  · rintro ⟨state, hstored⟩
    obtain ⟨state', hstate, -⟩ := (stored?_eq_some_iff hop).1 hstored
    exact fun p hp ↦ isSome_file?_of_state? hstate hp
  · intro hread
    obtain ⟨state, hstate⟩ := exists_state? hread
    exact ⟨state, (stored?_eq_some_iff hop).2 ⟨state, hstate, rfl⟩⟩

theorem stored?_eq_none_of_not_canRead (hop : ev.operation = .set files bundle)
    (h : ¬ ev.CanRead files) : ev.stored? = none := by
  refine Option.eq_none_iff_forall_ne_some.2 fun e he ↦ h ((exists_stored?_iff hop).1 ?_)
  obtain ⟨state, -, rfl⟩ := (stored?_eq_some_iff hop).1 he
  exact ⟨state, he⟩

end Readable

/-- **Setting a bundle costs a cache at most its oldest entry, so the keys that were set last are kept.**
However the cache came about from storing and asking and dropping, a bundle that is set for files that
can be read is admitted or replaces one of the oldest entries, and nothing else changes; and it changes
nothing at all to set one for files that cannot all be read.  So when nothing but this was done, for
files that could be read and at one time after the other, there are the keys that were set last, each
counted once, as many as there is room for. -/
theorem storing_keeps_latest (limits : Limits) (events : List Event) :
    (∀ ev files bundle, ev.operation = .set files bundle →
      (ev.CanRead files → ∃ state,
        let e : Entry := ⟨keyOf files, Path.canonicalSet files, state, bundle, ev.now⟩
        ((ofLimits limits).run events).Admits e (((ofLimits limits).run events).step ev) ∨
          ∃ old, ((ofLimits limits).run events).Replaces old e
            (((ofLimits limits).run events).step ev)) ∧
      (¬ ev.CanRead files →
        ((ofLimits limits).run events).step ev = (ofLimits limits).run events)) ∧
    ((∀ ev ∈ events, ∃ files bundle, ev.operation = .set files bundle ∧ ev.CanRead files) →
      (events.Pairwise fun x y ↦ x.now.Precedes y.now) →
      ∀ k, k ∈ ((ofLimits limits).run events).entries.keys ↔
        k ∈ (recentKeys events).take (max 1 limits.maxEntries)) := by
  refine ⟨fun ev files bundle hop ↦ ⟨fun hread ↦ ?_, fun hread ↦ ?_⟩, fun hsets hclock k ↦ ?_⟩
  · obtain ⟨state, hstored⟩ := (exists_stored?_iff hop).2 hread
    exact ⟨state, step_of_stored_cases _ hstored⟩
  · exact step_of_set_of_not_stored _ hop (stored?_eq_none_of_not_canRead hop hread)
  · have hstored : ∀ ev ∈ events, ev.IsStored := fun ev hev ↦ by
      obtain ⟨files, bundle, hop, hread⟩ := hsets ev hev
      obtain ⟨state, hstored⟩ := (exists_stored?_iff hop).2 hread
      exact ⟨_, hstored⟩
    rw [max_comm]
    exact mem_keys_run_iff hclock hstored

/-- A tree with three files side by side. -/
def threeFiles : FileTree where
  nodes := ["a", "b", "c"].map fun name ↦ ([name], .file "x".toUTF8 ⟨0, 0⟩)
  here := []

/-- A bundle is set for one file. -/
def setAt (second : Int) (name : String) : Event :=
  ⟨threeFiles, ⟨second, 0⟩, .set [⟨name⟩] default⟩

/-- Bundles are set for `a`, `b`, `a` again and `c`. -/
def setInTurn : List Event :=
  [setAt 1 "a", setAt 2 "b", setAt 3 "a", setAt 4 "c"]

theorem canRead_setAt_iff {second : Int} {name : String} :
    (setAt second name).CanRead [⟨name⟩] ↔ (threeFiles.file? ⟨name⟩).isSome = true := by
  rw [Event.CanRead, Path.canonicalSet_singleton, List.forall_mem_singleton]
  rfl

theorem canRead_setAt (second : Int) {name : String} (h : name ∈ ["a", "b", "c"]) :
    (setAt second name).CanRead [⟨name⟩] := by
  refine canRead_setAt_iff.2 ?_
  simp only [List.mem_cons, List.not_mem_nil, or_false] at h
  obtain rfl | rfl | rfl := h <;> rfl

theorem key_stored?_setAt (second : Int) {name : String} (h : name ∈ ["a", "b", "c"]) :
    (setAt second name).stored?.map (·.key) = some (keyOf [⟨name⟩]) := by
  obtain ⟨state, hstored⟩ := (exists_stored?_iff rfl).2 (canRead_setAt second h)
  rw [hstored]
  rfl

theorem nodup_keyOf_threeFiles :
    [keyOf [⟨"c"⟩], keyOf [⟨"a"⟩], keyOf [⟨"b"⟩]].Nodup := by
  simp only [keyOf, key, Path.canonicalSet_singleton, keyText_singleton]
  exact Digest.nodup_ofText_letters

theorem recentKeys_setInTurn :
    recentKeys setInTurn = [keyOf [⟨"c"⟩], keyOf [⟨"a"⟩], keyOf [⟨"b"⟩]] := by
  have hstored : keysStored setInTurn =
      [keyOf [⟨"a"⟩], keyOf [⟨"b"⟩], keyOf [⟨"a"⟩], keyOf [⟨"c"⟩]] := by
    simp [keysStored, setInTurn, key_stored?_setAt]
  have hnodup : [keyOf [⟨"b"⟩], keyOf [⟨"a"⟩], keyOf [⟨"c"⟩]].Nodup :=
    List.nodup_reverse.1 nodup_keyOf_threeFiles
  rw [recentKeys, hstored, List.dedup_cons_of_mem (by simp), hnodup.dedup]
  rfl

/-- With room for two, the entries for `c` and `a` are there after bundles were set for `a`, `b`, `a` again
and `c`.  Then one for `b` takes the place of another, and one for a file that is not there changes
nothing. -/
theorem storing_keeps_latest_twoOfThree :
    let c := (ofLimits ⟨60, 2⟩).run setInTurn
    (∀ k, k ∈ c.entries.keys ↔ k = keyOf [⟨"c"⟩] ∨ k = keyOf [⟨"a"⟩]) ∧
    (∃ old e, c.Replaces old e (c.step (setAt 5 "b"))) ∧
    c.step (setAt 5 "d") = c := by
  intro c
  obtain ⟨hset, hrun⟩ := storing_keeps_latest ⟨60, 2⟩ setInTurn
  have hd : ¬ (setAt 5 "d").CanRead [⟨"d"⟩] := fun h ↦ by
    cases canRead_setAt_iff.1 h
  have hsets : ∀ ev ∈ setInTurn, ∃ files bundle, ev.operation = .set files bundle ∧
      ev.CanRead files := by
    simp only [setInTurn, List.forall_mem_cons]
    exact ⟨⟨_, _, rfl, canRead_setAt 1 (by simp)⟩, ⟨_, _, rfl, canRead_setAt 2 (by simp)⟩,
      ⟨_, _, rfl, canRead_setAt 3 (by simp)⟩, ⟨_, _, rfl, canRead_setAt 4 (by simp)⟩, by simp⟩
  have hkeys (k : String) : k ∈ c.entries.keys ↔ k = keyOf [⟨"c"⟩] ∨ k = keyOf [⟨"a"⟩] := by
    rw [hrun hsets (by decide), recentKeys_setInTurn]
    simp
  have hnodup := nodup_keyOf_threeFiles
  obtain ⟨state, hadmits | hreplaces⟩ := (hset (setAt 5 "b") _ _ rfl).1 (canRead_setAt 5 (by simp))
  · exfalso
    rcases hadmits.room with hthere | hroom
    · have hb : keyOf [⟨"b"⟩] = keyOf [⟨"c"⟩] ∨ keyOf [⟨"b"⟩] = keyOf [⟨"a"⟩] := (hkeys _).1 hthere
      rcases hb with hb | hb <;> simp [hb] at hnodup
    · have htwo : [keyOf [⟨"c"⟩], keyOf [⟨"a"⟩]] ⊆ c.entries.keys := by simp [hkeys]
      have hsize := ((hnodup.sublist (List.take_sublist 2 _)).subperm htwo).length_le
      rw [NameMap.length_keys] at hsize
      rw [limits_run] at hroom
      exact Nat.not_lt.2 hsize hroom
  · exact ⟨hkeys, hreplaces.imp fun old h ↦ ⟨_, h⟩, (hset (setAt 5 "d") _ _ rfl).2 hd⟩

end Cache

end ChangeContext
