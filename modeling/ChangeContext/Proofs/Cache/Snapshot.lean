import ChangeContext.Proofs.Bundle.Codec
import ChangeContext.Proofs.Cache.Run
import ChangeContext.Proofs.Json.RoundTrip

/-!
# A cache survives its snapshot

A snapshot is written as text and read back as it was (`Snapshot.ofText?_toText`), and taking over
the snapshot of a cache gives that cache again (`restore_snapshot`).  For the second part every entry
has to be filed under its own key, since a snapshot is a plain list and only the entries tell where
they belong.  `Cache.Sound` collects what a cache has to satisfy.

An empty cache is sound, no operation makes a sound cache unsound, and what is taken over from a
snapshot is sound whatever the snapshot says.
-/

set_option autoImplicit false

namespace ChangeContext

namespace Cache

/-! ## The format -/

/-- The bundle fits, and the calendar has the time when the entry was stored. -/
structure Entry.Fits (e : Entry) : Prop where
  bundle : e.bundle.Fits
  createdAt : e.createdAt.Valid

theorem Entry.codec : Json.Codec Entry.Fits Entry.toJson Entry.ofJson? where
  reads e h := by
    rw [ofJson?]
    refine Option.bind_eq_some_iff.2 ⟨_, Json.fields?_record _ (by simp), ?_⟩
    refine Option.bind_eq_some_iff.2 ⟨_, Json.codec_text.required trivial, ?_⟩
    refine Option.bind_eq_some_iff.2 ⟨_, Path.codec.list.required fun _ _ ↦ trivial, ?_⟩
    refine Option.bind_eq_some_iff.2 ⟨_, Json.codec_text.required trivial, ?_⟩
    refine Option.bind_eq_some_iff.2 ⟨_, Bundle.codec.required h.bundle, ?_⟩
    refine Option.bind_eq_some_iff.2 ⟨_, Instant.codec.required h.createdAt, ?_⟩
    rfl
  yields v e h := by
    rw [ofJson?] at h
    obtain ⟨fields, -, h⟩ := Option.bind_eq_some_iff.1 h
    split at h
    next =>
      obtain ⟨_, -, h⟩ := Option.bind_eq_some_iff.1 h
      obtain ⟨_, -, h⟩ := Option.bind_eq_some_iff.1 h
      obtain ⟨_, -, h⟩ := Option.bind_eq_some_iff.1 h
      obtain ⟨bundle, hbundle, h⟩ := Option.bind_eq_some_iff.1 h
      obtain ⟨createdAt, hcreatedAt, h⟩ := Option.bind_eq_some_iff.1 h
      exact Option.some_inj.1 h ▸
        ⟨Bundle.codec.of_required hbundle, Instant.codec.of_required hcreatedAt⟩
    next => simp at h

/-- Both counters have 64 bits. -/
structure Counters.Fits (c : Counters) : Prop where
  hits : Json.FitsWord c.hits
  misses : Json.FitsWord c.misses

theorem Counters.codec : Json.Codec Counters.Fits Counters.toJson Counters.ofJson? where
  reads c h := by
    rw [ofJson?]
    refine Option.bind_eq_some_iff.2 ⟨_, Json.fields?_record _ (by simp), ?_⟩
    refine Option.bind_eq_some_iff.2 ⟨_, Json.codec_nat.required h.hits, ?_⟩
    refine Option.bind_eq_some_iff.2 ⟨_, Json.codec_nat.required h.misses, ?_⟩
    rfl
  yields v c h := by
    rw [ofJson?] at h
    obtain ⟨fields, -, h⟩ := Option.bind_eq_some_iff.1 h
    split at h
    next =>
      obtain ⟨hits, hhits, h⟩ := Option.bind_eq_some_iff.1 h
      obtain ⟨misses, hmisses, h⟩ := Option.bind_eq_some_iff.1 h
      exact Option.some_inj.1 h ▸
        ⟨Json.codec_nat.of_required hhits, Json.codec_nat.of_required hmisses⟩
    next => simp at h

theorem Counters.fits_zero : Counters.zero.Fits := ⟨by decide, by decide⟩

/-- Every part of the snapshot has room in the format. -/
structure Snapshot.Fits (s : Snapshot) : Prop where
  exportedAt : s.exportedAt.Valid
  counters : s.counters.Fits
  entries : ∀ e ∈ s.entries, e.Fits

theorem Snapshot.codec : Json.Codec Snapshot.Fits Snapshot.toJson Snapshot.ofJson? where
  reads s h := by
    rw [ofJson?]
    refine Option.bind_eq_some_iff.2 ⟨_, Json.fields?_record _ (by simp), ?_⟩
    refine Option.bind_eq_some_iff.2 ⟨snapshotVersion, rfl, ?_⟩
    refine Option.bind_eq_some_iff.2 ⟨_, Instant.codec.required h.exportedAt, ?_⟩
    refine Option.bind_eq_some_iff.2 ⟨_, Counters.codec.required h.counters, ?_⟩
    refine Option.bind_eq_some_iff.2 ⟨_, Entry.codec.list.required h.entries, ?_⟩
    exact if_pos rfl
  yields v s h := by
    rw [ofJson?] at h
    obtain ⟨fields, -, h⟩ := Option.bind_eq_some_iff.1 h
    split at h
    next =>
      obtain ⟨version, -, h⟩ := Option.bind_eq_some_iff.1 h
      obtain ⟨exportedAt, hexportedAt, h⟩ := Option.bind_eq_some_iff.1 h
      obtain ⟨counters, hcounters, h⟩ := Option.bind_eq_some_iff.1 h
      obtain ⟨entries, hentries, h⟩ := Option.bind_eq_some_iff.1 h
      split at h
      next =>
        exact Option.some_inj.1 h ▸
          ⟨Instant.codec.of_required hexportedAt, Counters.codec.of_required hcounters,
            Entry.codec.list.of_required hentries⟩
      next => simp at h
    next => simp at h

/-- **The text of a snapshot is read back as the snapshot.** -/
theorem Snapshot.ofText?_toText {s : Snapshot} (h : s.Fits) : ofText? s.toText = some s := by
  rw [ofText?, toText, Json.read?_indented, Option.bind_some, codec.reads s h]

/-- Only snapshots that fit are ever read. -/
theorem Snapshot.fits_of_ofText? {text : String} {s : Snapshot} (h : ofText? text = some s) :
    s.Fits := by
  obtain ⟨v, -, hv⟩ := Option.bind_eq_some_iff.1 h
  exact codec.yields v s hv

/-! ## Sound caches -/

/-- Every entry is filed under its own key, and all of the cache has room in a snapshot. -/
structure Sound (c : Cache) : Prop where
  key : ∀ k e, c.entries.get? k = some e → e.key = k
  fits : ∀ k e, c.entries.get? k = some e → e.Fits
  counters : c.counters.Fits

theorem sound_ofLimits (limits : Limits) : (ofLimits limits).Sound where
  key _ _ h := by simp [ofLimits] at h
  fits _ _ h := by simp [ofLimits] at h
  counters := Counters.fits_zero

/-- What is counted has 64 bits, since the counters begin anew where it would not. -/
theorem fits_counters_step {c : Cache} (h : c.counters.Fits) (ev : Event) :
    (c.step ev).counters.Fits := by
  have hlt (n : Nat) : Json.FitsWord (n % Counters.limit) := Nat.mod_lt _ (by decide)
  rw [step]
  split
  · rw [get]
    split
    · exact ⟨h.hits, hlt _⟩
    · split
      · exact ⟨hlt _, h.misses⟩
      · exact ⟨h.hits, hlt _⟩
  · rw [set]
    split <;> exact h
  · exact h
  · exact Counters.fits_zero
  all_goals exact h

/-- **An operation on a sound cache leaves a sound cache**, as long as what it stores fits. -/
theorem Sound.step {c : Cache} (h : c.Sound) {ev : Event}
    (hstored : ∀ e, ev.stored? = some e → e.Fits) : (c.step ev).Sound where
  key k e he := by
    rcases get?_step_cases he with ⟨-, hkey⟩ | ⟨hbefore, -⟩
    · exact hkey
    · exact h.key k e hbefore
  fits k e he := by
    rcases get?_step_cases he with ⟨hnew, -⟩ | ⟨hbefore, -⟩
    · exact hstored e hnew
    · exact h.fits k e hbefore
  counters := fits_counters_step h.counters ev

/-- What was taken over from a snapshot is sound. -/
theorem sound_restore (c : Cache) {s : Snapshot} (h : s.Fits) : (c.restore s).Sound := by
  have hmem {k : String} {e : Entry} (he : (c.restore s).entries.get? k = some e) :
      e ∈ s.entries ∧ e.key = k := by
    obtain ⟨e', hmem, heq⟩ := List.mem_map.1 (NameMap.mem_of_get?_ofList he)
    obtain ⟨hkey, rfl⟩ := Prod.mk.injEq .. ▸ heq
    exact ⟨hmem, hkey⟩
  exact {
    key := fun k e he ↦ (hmem he).2
    fits := fun k e he ↦ h.entries e (hmem he).1
    counters := h.counters }

theorem sound_importFrom? {c c' : Cache} {t : FileTree} {path : Path}
    (h : c.importFrom? t path = some c') : c'.Sound := by
  obtain ⟨s, hs, rfl⟩ := Option.map_eq_some_iff.1 h
  obtain ⟨text, -, htext⟩ := Option.bind_eq_some_iff.1 hs
  exact sound_restore c (Snapshot.fits_of_ofText? htext)

/-! ## There and back -/

theorem Sound.fits_snapshot {c : Cache} (h : c.Sound) {now : Instant} (hnow : now.Valid) :
    (c.snapshot now).Fits where
  exportedAt := hnow
  counters := h.counters
  entries e he := by
    have he : e ∈ c.entries.values := (List.mergeSort_perm _ _).mem_iff.1 he
    obtain ⟨⟨k, e⟩, hmem, rfl⟩ := List.mem_map.1 he
    exact h.fits k e (NameMap.get?_eq_some_iff.2 hmem)

/-- **Taking over the snapshot of a sound cache gives that cache**, except for the limits, which are
not part of a snapshot. -/
theorem Sound.restore_snapshot {c : Cache} (h : c.Sound) (d : Cache) (now : Instant) :
    d.restore (c.snapshot now) = { c with limits := d.limits } := by
  have hvalues : c.entries.values.map (fun e ↦ (e.key, e)) = c.entries.toList := by
    rw [NameMap.values, List.map_map]
    refine (List.map_congr_left fun p hp ↦ ?_).trans (List.map_id _)
    exact Prod.ext (h.key p.1 p.2 (NameMap.get?_eq_some_iff.2 hp)) rfl
  have hentries : NameMap.ofList ((c.snapshot now).entries.map fun e ↦ (e.key, e)) = c.entries := by
    refine NameMap.ofList_of_perm ?_
    rw [← hvalues]
    exact (List.mergeSort_perm _ _).map _
  rw [restore, hentries]
  rfl

end Cache

end ChangeContext
