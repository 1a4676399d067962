import ChangeContext.Proofs.Cache.History

/-!
# Cleaning up goes unnoticed

Cleaning up drops every entry that is too old.  A request would not have been answered from such an
entry anyway.  But a cache that has been cleaned up has room where the same cache, had it been left
alone, would have to give an entry up, so from then on the two may hold different entries.

`Trims` compares the two caches.  The one that was left alone has all that the other has, and what it
has beyond that is too old and also older than everything in the other.  So as long as there is any
such surplus, it is from the surplus that room is made, and once there is none the caches are the
same.  Every operation keeps this up (`Trims.step`), and a request gets the same answer from both
(`Trims.answer?`).

That the surplus stays older than what is stored later needs a clock that does not go back, and
entries that are not created at the same time: where nothing may grow any older than zero seconds, an
entry is too old at the very moment of its creation.
-/

set_option autoImplicit false

namespace ChangeContext

namespace Cache

/-! ## What can be noticed -/

/-- What a request is answered; no other operation is. -/
def answer? (c : Cache) (ev : Event) : Option (Option Bundle) :=
  match ev.operation with
  | .get files => some (c.get ev.tree ev.now files).1
  | _ => none

/-- What the requests in a run are answered, in order. -/
def answers : Cache → List Event → List (Option Bundle)
  | _, [] => []
  | c, ev :: rest => (c.answer? ev).toList ++ answers (c.step ev) rest

theorem answers_append (c : Cache) (before after : List Event) :
    c.answers (before ++ after) = c.answers before ++ (c.run before).answers after := by
  induction before generalizing c with
  | nil => rfl
  | cons ev rest ih =>
    rw [List.cons_append, answers, answers, ih, List.append_assoc]
    rfl

/-- The times at which something is stored. -/
def storageTimes (events : List Event) : List Instant :=
  events.filterMap fun ev ↦ ev.stored?.map (·.createdAt)

theorem mem_storageTimes {events : List Event} {time : Instant} :
    time ∈ storageTimes events ↔ ∃ ev ∈ events, ∃ e, ev.stored? = some e ∧ e.createdAt = time := by
  simp [storageTimes]

theorem storageTimes_sublist (events : List Event) :
    (storageTimes events).Sublist (events.map (·.now)) := by
  induction events with
  | nil => exact .slnil
  | cons ev rest ih =>
    cases hstored : ev.stored? with
    | none =>
      have hcons : storageTimes (ev :: rest) = storageTimes rest := by simp [storageTimes, hstored]
      rw [hcons]
      exact ih.cons _
    | some e =>
      have hcons : storageTimes (ev :: rest) = ev.now :: storageTimes rest := by
        simp [storageTimes, hstored, createdAt_of_stored? hstored]
      rw [hcons]
      exact ih.cons_cons _

/-- Whatever the events store has a creation time of its own: nothing else is stored at that time,
and nothing that is there was created then. -/
structure DistinctTimes (c : Cache) (events : List Event) : Prop where
  stored : (storageTimes events).Nodup
  there : ∀ k e, c.entries.get? k = some e → e.createdAt ∉ storageTimes events

/-! ## Surplus entries -/

section Trims

variable {times : List Instant} {limits : Limits} {now later : Instant} {c d : Cache} {ev : Event}
  {k : String} {e : Entry}

/-- The entry is too old, and was created at none of the `times`, which are those at which something
is stored later. -/
structure Surplus (times : List Instant) (limits : Limits) (now : Instant) (e : Entry) : Prop where
  plain : e.createdAt.Plain
  apart : e.createdAt ∉ times
  expired : limits.expires e now = true

/-- What is too old stays so. -/
theorem Surplus.mono (h : Surplus times limits now e) (hclock : now.toNanos ≤ later.toNanos) :
    Surplus times limits later e where
  plain := h.plain
  apart := h.apart
  expired := by
    have hexpired := expires_iff.1 h.expired
    rw [expires_iff]
    omega

/-- What is stored now is younger than any surplus. -/
theorem Surplus.lt_now (h : Surplus times limits now e) (hnow : now.Plain) (hmem : now ∈ times) :
    now.le e.createdAt = false := by
  by_contra hle
  rw [Bool.not_eq_false, Instant.le_iff_toNanos_le hnow h.plain] at hle
  have hexpired := expires_iff.1 h.expired
  have hmoment : e.createdAt.toNanos = now.toNanos := by omega
  have hsame : e.createdAt = now := (Instant.toNanos_inj h.plain hnow).1 hmoment
  exact h.apart (hsame ▸ hmem)

/-- `d` is `c` without some surplus, which is older than all that `d` has. -/
structure Trims (times : List Instant) (now : Instant) (c d : Cache) : Prop where
  limits : d.limits = c.limits
  counters : d.counters = c.counters
  kept : ∀ k e, d.entries.get? k = some e → c.entries.get? k = some e
  surplus : ∀ k e, c.entries.get? k = some e → d.entries.get? k = none →
    Surplus times c.limits now e
  older : ∀ k e, c.entries.get? k = some e → d.entries.get? k = none →
    ∀ j f, d.entries.get? j = some f → f.createdAt.le e.createdAt = false

theorem Trims.refl (times : List Instant) (now : Instant) (c : Cache) : Trims times now c c where
  limits := rfl
  counters := rfl
  kept _ _ he := he
  surplus k e he hnone := by simp [he] at hnone
  older k e he hnone := by simp [he] at hnone

theorem Trims.mono (h : Trims times now c d) (hclock : now.toNanos ≤ later.toNanos) :
    Trims times later c d where
  limits := h.limits
  counters := h.counters
  kept := h.kept
  surplus k e he hnone := (h.surplus k e he hnone).mono hclock
  older := h.older

/-- What is young enough is in both caches. -/
theorem Trims.get?_of_young (h : Trims times now c d) (he : c.entries.get? k = some e)
    (hyoung : c.limits.expires e now = false) : d.entries.get? k = some e := by
  cases hd : d.entries.get? k with
  | none =>
    have hexpired := (h.surplus k e he hd).expired
    rw [hyoung] at hexpired
    exact absurd hexpired Bool.false_ne_true
  | some f =>
    have hf := h.kept k f hd
    rw [he] at hf
    exact hf.symm

/-- **Cleaning up leaves a cache without some surplus.** -/
theorem trims_cleanUp (hplain : ∀ k e, c.entries.get? k = some e → e.createdAt.Plain)
    (hapart : ∀ k e, c.entries.get? k = some e → e.createdAt ∉ times) :
    Trims times now c (c.cleanUp now).2 := by
  have hexpired {k : String} {e : Entry} (he : c.entries.get? k = some e)
      (hnone : (c.cleanUp now).2.entries.get? k = none) : c.limits.expires e now = true := by
    rw [get?_cleanUp_snd, he, Option.filter_some] at hnone
    simpa using hnone
  refine ⟨rfl, rfl, fun k e he ↦ ?_, fun k e he hnone ↦ ?_, fun k e he hnone j f hf ↦ ?_⟩
  · rw [get?_cleanUp_snd, Option.filter_eq_some_iff] at he
    exact he.1
  · exact ⟨hplain k e he, hapart k e he, hexpired he hnone⟩
  · rw [get?_cleanUp_snd, Option.filter_eq_some_iff, Bool.not_eq_true', expires_eq_false_iff] at hf
    have hold := expires_iff.1 (hexpired he hnone)
    by_contra hle
    rw [Bool.not_eq_false, Instant.le_iff_toNanos_le (hplain j f hf.1) (hplain k e he)] at hle
    have hyoung := hf.2
    omega

/-! ## Operations on both caches -/

/-- Dropping the same entries from both caches leaves them related. -/
theorem Trims.filter (h : Trims times now c d) {c' d' : Cache} {p : String → Entry → Bool}
    (hlimits : c'.limits = c.limits) (hlimits' : d'.limits = c'.limits)
    (hcounters : d'.counters = c'.counters)
    (hc : ∀ k, c'.entries.get? k = (c.entries.get? k).filter (p k))
    (hd : ∀ k, d'.entries.get? k = (d.entries.get? k).filter (p k)) : Trims times now c' d' := by
  have hbefore {k : String} {e : Entry} (he : c'.entries.get? k = some e)
      (hnone : d'.entries.get? k = none) :
      c.entries.get? k = some e ∧ d.entries.get? k = none := by
    rw [hc, Option.filter_eq_some_iff] at he
    refine ⟨he.1, ?_⟩
    cases hdk : d.entries.get? k with
    | none => rfl
    | some f =>
      have hf := h.kept k f hdk
      rw [he.1, Option.some_inj] at hf
      rw [hd, hdk, ← hf, Option.filter_some, he.2] at hnone
      exact absurd hnone (Option.some_ne_none e)
  refine ⟨hlimits', hcounters, fun k e he ↦ ?_, fun k e he hnone ↦ ?_, fun k e he hnone j f hf ↦ ?_⟩
  · rw [hd, Option.filter_eq_some_iff] at he
    rw [hc, Option.filter_eq_some_iff]
    exact ⟨h.kept k e he.1, he.2⟩
  · obtain ⟨he, hnone⟩ := hbefore he hnone
    rw [hlimits]
    exact h.surplus k e he hnone
  · obtain ⟨he, hnone⟩ := hbefore he hnone
    rw [hd, Option.filter_eq_some_iff] at hf
    exact h.older k e he hnone j f hf.1

/-- Room is made from the surplus, or else in both caches alike. -/
theorem Trims.makeRoom (h : Trims times now c d) (hsize : c.entries.size ≤ c.limits.capacity)
    (new : String) :
    Trims times now { c with entries := c.makeRoom new } { d with entries := d.makeRoom new } := by
  by_cases hsame : ∀ k e, c.entries.get? k = some e → d.entries.get? k = some e
  · have hentries : d.entries = c.entries :=
      NameMap.ext_get? fun k ↦ Option.ext fun e ↦ ⟨h.kept k e, hsame k e⟩
    have hroom : d.makeRoom new = c.makeRoom new := by
      rw [Cache.makeRoom, Cache.makeRoom, hentries, h.limits]
    rw [hroom, h.limits, h.counters]
    exact Trims.refl times now _
  · push Not at hsame
    obtain ⟨k₀, e₀, he₀, hne⟩ := hsame
    have hnone : d.entries.get? k₀ = none := by
      cases hd : d.entries.get? k₀ with
      | none => rfl
      | some f =>
        have hf := h.kept k₀ f hd
        rw [he₀] at hf
        exact absurd (hd.trans hf.symm) hne
    have hless : d.entries.size < c.entries.size := by
      refine NameMap.size_lt_of_keys_subset (fun k hk ↦ ?_) (NameMap.mem_keys_iff.2 ⟨e₀, he₀⟩)
        (NameMap.get?_eq_none_iff.1 hnone)
      obtain ⟨e, he⟩ := NameMap.mem_keys_iff.1 hk
      exact NameMap.mem_keys_iff.2 ⟨e, h.kept k e he⟩
    have hroom : d.makeRoom new = d.entries := by
      rw [Cache.makeRoom, if_neg]
      rw [h.limits, Bool.and_eq_true, decide_eq_true_iff, not_and]
      omega
    refine ⟨h.limits, h.counters, fun k e he ↦ ?_, fun k e he hk ↦ ?_, fun k e he hk j f hf ↦ ?_⟩
    · rw [hroom] at he
      exact get?_makeRoom_of_younger (h.kept k e he) fun _ _ ↦
        ⟨(k₀, e₀), NameMap.get?_eq_some_iff.1 he₀, h.older k₀ e₀ he₀ hnone k e he⟩
    · rw [hroom] at hk
      exact h.surplus k e (get?_of_get?_makeRoom he) hk
    · rw [hroom] at hk hf
      exact h.older k e (get?_of_get?_makeRoom he) hk j f hf

/-- What is filed now in both caches is younger than the surplus. -/
theorem Trims.insert (h : Trims times now c d) (hnow : now.Plain) (hmem : now ∈ times)
    (k : String) (he : e.createdAt = now) :
    Trims times now { c with entries := c.entries.insert k e }
      { d with entries := d.entries.insert k e } := by
  have hbefore {j : String} {f : Entry} (hf : (c.entries.insert k e).get? j = some f)
      (hnone : (d.entries.insert k e).get? j = none) :
      c.entries.get? j = some f ∧ d.entries.get? j = none := by
    rw [NameMap.get?_insert] at hf hnone
    split at hnone
    next => exact absurd hnone (Option.some_ne_none e)
    next hj =>
      rw [if_neg hj] at hf
      exact ⟨hf, hnone⟩
  refine ⟨h.limits, h.counters, fun j f hf ↦ ?_, fun j f hf hnone ↦ ?_, fun j f hf hnone i g hg ↦ ?_⟩
  · rw [NameMap.get?_insert] at hf ⊢
    split
    next hj => rwa [if_pos hj] at hf
    next hj =>
      rw [if_neg hj] at hf
      exact h.kept j f hf
  · obtain ⟨hf, hnone⟩ := hbefore hf hnone
    exact h.surplus j f hf hnone
  · obtain ⟨hf, hnone⟩ := hbefore hf hnone
    rw [NameMap.get?_insert] at hg
    split at hg
    next =>
      obtain rfl : e = g := Option.some_inj.1 hg
      rw [he]
      exact (h.surplus j f hf hnone).lt_now hnow hmem
    next => exact h.older j f hf hnone i g hg

/-- **A request gets the same answer.** -/
theorem Trims.answer? (h : Trims times ev.now c d) : c.answer? ev = d.answer? ev := by
  cases hop : ev.operation with
  | get files =>
    rw [Cache.answer?, Cache.answer?, hop]
    refine congrArg some (Option.ext fun b ↦ ?_)
    rw [get_fst_eq_some_iff, get_fst_eq_some_iff, h.limits]
    constructor
    · rintro ⟨e, he, hgood, hb⟩
      exact ⟨e, h.get?_of_young he (expires_eq_false_iff.2 hgood.young), hgood, hb⟩
    · rintro ⟨e, he, hgood, hb⟩
      exact ⟨e, h.kept _ e he, hgood, hb⟩
  | _ => rw [Cache.answer?, Cache.answer?, hop]

/-- A request leaves both caches related, and counts the same in both. -/
theorem Trims.get (h : Trims times now c d) (t : FileTree) (files : List Path) :
    Trims times now (c.get t now files).2 (d.get t now files).2 := by
  have hserves : d.serves t now = c.serves t now := by
    funext e
    rw [serves, serves, h.limits]
  have hfilter (k : String) (o : Option Entry) :
      (if k = keyOf files then o.filter (c.serves t now) else o) =
        o.filter fun e ↦ !decide (k = keyOf files) || c.serves t now e := by
    by_cases hk : k = keyOf files
    · simp [hk]
    · cases o <;> simp [hk, Option.filter_some]
  have hanswer : c.answer? ⟨t, now, .get files⟩ = d.answer? ⟨t, now, .get files⟩ := h.answer?
  refine h.filter (p := fun k e ↦ !decide (k = keyOf files) || c.serves t now e)
    (limits_step c ⟨t, now, .get files⟩) ?_ ?_ (fun k ↦ ?_) fun k ↦ ?_
  · have hc := limits_step c ⟨t, now, .get files⟩
    have hd := limits_step d ⟨t, now, .get files⟩
    exact hd.trans (h.limits.trans hc.symm)
  · rw [counters_get, counters_get, Option.some_inj.1 hanswer, h.counters]
  · rw [get?_get_snd, hfilter]
  · rw [get?_get_snd, hserves, hfilter]

/-- **Every operation leaves both caches related.** -/
theorem Trims.step (h : Trims times ev.now c d) (hsize : c.entries.size ≤ c.limits.capacity)
    (hnow : ev.now.Plain) (hmem : ∀ e, ev.stored? = some e → ev.now ∈ times) :
    Trims times ev.now (c.step ev) (d.step ev) := by
  cases hop : ev.operation with
  | get files =>
    rw [Cache.step, Cache.step, hop]
    exact h.get ev.tree files
  | set files bundle =>
    cases hstored : ev.stored? with
    | none =>
      rw [step_of_set_of_not_stored c hop hstored, step_of_set_of_not_stored d hop hstored]
      exact h
    | some new =>
      rw [step_of_stored? c hstored, step_of_stored? d hstored]
      exact (h.makeRoom hsize new.key).insert hnow (hmem new hstored) new.key
        (createdAt_of_stored? hstored)
  | invalidate files =>
    rw [Cache.step, Cache.step, hop]
    have hfilter (k : String) (o : Option Entry) :
        (if k = keyOf files then none else o) = o.filter fun _ ↦ !decide (k = keyOf files) := by
      by_cases hk : k = keyOf files <;> cases o <;> simp [hk, Option.filter_some]
    refine h.filter (p := fun k _ ↦ !decide (k = keyOf files)) rfl h.limits h.counters
      (fun k ↦ ?_) fun k ↦ ?_
    · exact (NameMap.get?_erase ..).trans (hfilter k _)
    · exact (NameMap.get?_erase ..).trans (hfilter k _)
  | clear =>
    rw [Cache.step, Cache.step, hop, Cache.clear, Cache.clear, h.limits]
    exact Trims.refl times ev.now _
  | cleanUp =>
    rw [Cache.step, Cache.step, hop]
    refine h.filter (p := fun _ e ↦ !c.limits.expires e ev.now) rfl h.limits h.counters
      (fun k ↦ NameMap.get?_filter ..) fun k ↦ ?_
    rw [← h.limits]
    exact NameMap.get?_filter ..
  | stats => rwa [Cache.step, Cache.step, hop]
  | exportTo path => rwa [Cache.step, Cache.step, hop]

/-- **A whole run**: the requests get the same answers, and the counters come out the same. -/
theorem Trims.run {events : List Event} (h : Trims times now c d)
    (hsize : c.entries.size ≤ c.limits.capacity)
    (hclock : ∀ ev ∈ events, now.toNanos ≤ ev.now.toNanos)
    (hordered : events.Pairwise fun x y ↦ x.now.toNanos ≤ y.now.toNanos)
    (hplain : ∀ ev ∈ events, ev.now.Plain)
    (hmem : ∀ ev ∈ events, ∀ e, ev.stored? = some e → ev.now ∈ times) :
    c.answers events = d.answers events ∧ (c.run events).counters = (d.run events).counters := by
  induction events generalizing c d now with
  | nil => exact ⟨rfl, h.counters.symm⟩
  | cons ev rest ih =>
    obtain ⟨hfirst, hrest⟩ := List.pairwise_cons.1 hordered
    have hnow : Trims times ev.now c d := h.mono (hclock ev (List.mem_cons_self ..))
    have hstep : Trims times ev.now (c.step ev) (d.step ev) :=
      hnow.step hsize (hplain ev (List.mem_cons_self ..)) (hmem ev (List.mem_cons_self ..))
    have hsize' : (c.step ev).entries.size ≤ (c.step ev).limits.capacity := by
      rw [limits_step]
      exact size_step_le (Nat.le_refl _) hsize ev
    obtain ⟨hanswers, hcounters⟩ := ih hstep hsize' hfirst hrest
      (fun x hx ↦ hplain x (List.mem_cons_of_mem _ hx))
      fun x hx ↦ hmem x (List.mem_cons_of_mem _ hx)
    refine ⟨?_, hcounters⟩
    rw [answers, answers, hnow.answer?, hanswers]

end Trims

/-! ## Cleaning up in the course of a run -/

section CleanUp

variable {limits : Limits} {events : List Event} {k : String} {e : Entry}

theorem size_run_ofLimits_le (limits : Limits) (events : List Event) :
    ((ofLimits limits).run events).entries.size ≤ ((ofLimits limits).run events).limits.capacity := by
  rw [limits_run]
  exact size_run_le (Nat.le_refl _) (Nat.zero_le _) events

/-- Entries are created when the clock is read. -/
theorem plain_createdAt_run (hplain : ∀ ev ∈ events, ev.now.Plain)
    (h : ((ofLimits limits).run events).entries.get? k = some e) : e.createdAt.Plain := by
  rcases get?_run_cases h with hbefore | ⟨ev, hev, hstored, -⟩
  · simp [ofLimits] at hbefore
  · rw [createdAt_of_stored? hstored]
    exact hplain ev hev

/-- What is stored later has a creation time that no entry has by then. -/
theorem DistinctTimes.createdAt_run {c : Cache} {before after : List Event}
    (h : DistinctTimes c (before ++ after)) (he : (c.run before).entries.get? k = some e) :
    e.createdAt ∉ storageTimes after := by
  have happend : storageTimes (before ++ after) = storageTimes before ++ storageTimes after :=
    List.filterMap_append
  rcases get?_run_cases he with hbefore | ⟨ev, hev, hstored, -⟩
  · intro hafter
    refine h.there k e hbefore ?_
    rw [happend]
    exact List.mem_append_right _ hafter
  · have hmem : e.createdAt ∈ storageTimes before := mem_storageTimes.2 ⟨ev, hev, e, hstored, rfl⟩
    have hnodup := h.stored
    rw [happend] at hnodup
    exact fun hafter ↦ (List.nodup_append.1 hnodup).2.2 _ hmem _ hafter rfl

/-- Cleaning a cache up makes no difference to a run that follows. -/
theorem answers_step_cleanUp {c : Cache} {x : Event} (hx : x.operation = .cleanUp)
    (hsize : c.entries.size ≤ c.limits.capacity)
    (hentries : ∀ k e, c.entries.get? k = some e →
      e.createdAt.Plain ∧ e.createdAt ∉ storageTimes events)
    (hplain : ∀ ev ∈ x :: events, ev.now.Plain)
    (hclock : (x :: events).Pairwise fun y z ↦ y.now.le z.now = true) :
    c.answers events = (c.step x).answers events ∧
      (c.run events).counters = ((c.step x).run events).counters := by
  have htrims : Trims (storageTimes events) x.now c (c.step x) := by
    rw [step, hx]
    exact trims_cleanUp (fun k e he ↦ (hentries k e he).1) fun k e he ↦ (hentries k e he).2
  have hmono {y z : Event} (hy : y ∈ x :: events) (hz : z ∈ x :: events)
      (hle : y.now.le z.now = true) : y.now.toNanos ≤ z.now.toNanos :=
    (Instant.le_iff_toNanos_le (hplain y hy) (hplain z hz)).1 hle
  obtain ⟨hfirst, hordered⟩ := List.pairwise_cons.1 hclock
  refine htrims.run hsize (fun ev hev ↦ ?_) (hordered.imp_of_mem fun hy hz hle ↦ ?_)
    (fun ev hev ↦ hplain ev (List.mem_cons_of_mem _ hev)) fun ev hev e hstored ↦ ?_
  · exact hmono (List.mem_cons_self ..) (List.mem_cons_of_mem _ hev) (hfirst ev hev)
  · exact hmono (List.mem_cons_of_mem _ hy) (List.mem_cons_of_mem _ hz) hle
  · exact mem_storageTimes.2 ⟨ev, hev, e, hstored, createdAt_of_stored? hstored⟩

/-- **Cleaning up makes no difference** to what is answered and counted.  This holds for a cache of
any limits in any state that operations bring it to, and wherever in its further use it is cleaned
up, as long as from then on the clock does not go back and what is stored has a creation time of its
own.  Files may change in any way.  The clock is one that shows no leap seconds. -/
theorem answers_insert_cleanUp (limits : Limits) (earlier before after : List Event) (x : Event)
    (hx : x.operation = .cleanUp)
    (hplain : ∀ ev ∈ earlier ++ (before ++ x :: after), ev.now.Plain)
    (hclock : (before ++ x :: after).Pairwise fun y z ↦ y.now.le z.now = true)
    (hdistinct : DistinctTimes ((ofLimits limits).run earlier) (before ++ after)) :
    ((ofLimits limits).run earlier).answers (before ++ x :: after) =
        ((ofLimits limits).run earlier).answers (before ++ after) ∧
      (((ofLimits limits).run earlier).run (before ++ x :: after)).counters =
        (((ofLimits limits).run earlier).run (before ++ after)).counters := by
  set c := ((ofLimits limits).run earlier).run before with hc
  have hreached : c = (ofLimits limits).run (earlier ++ before) := by rw [hc, run_append]
  have hsize : c.entries.size ≤ c.limits.capacity := by
    rw [hreached]
    exact size_run_ofLimits_le ..
  have hentries (k : String) (e : Entry) (he : c.entries.get? k = some e) :
      e.createdAt.Plain ∧ e.createdAt ∉ storageTimes after := by
    refine ⟨?_, hdistinct.createdAt_run he⟩
    rw [hreached] at he
    refine plain_createdAt_run (fun ev hev ↦ hplain ev ?_) he
    rw [← List.append_assoc]
    exact List.mem_append_left _ hev
  obtain ⟨hanswers, hcounters⟩ := answers_step_cleanUp hx hsize hentries
    (fun ev hev ↦ hplain ev (List.mem_append_right _ (List.mem_append_right _ hev)))
    (List.pairwise_append.1 hclock).2.1
  have hsilent : c.answer? x = none := by rw [answer?, hx]
  constructor
  · rw [answers_append, answers_append, answers, ← hc, hsilent, hanswers]
    rfl
  · rw [run_append, run_append, ← hc, hcounters]
    rfl

/-- The only entry there may be has expired when the cache is cleaned up, so that another can be
stored without making room. -/
theorem answers_insert_cleanUp_oneFile :
    ((ofLimits ⟨60, 1⟩).run [⟨oneFile, ⟨1, 0⟩, .set [⟨"a"⟩] default⟩]).answers
        ([⟨oneFile, ⟨2, 0⟩, .get [⟨"a"⟩]⟩] ++ ⟨oneFile, ⟨100, 0⟩, .cleanUp⟩ ::
          [⟨oneFile, ⟨101, 0⟩, .set [⟨"/a"⟩] default⟩, ⟨oneFile, ⟨102, 0⟩, .get [⟨"a"⟩]⟩]) =
      ((ofLimits ⟨60, 1⟩).run [⟨oneFile, ⟨1, 0⟩, .set [⟨"a"⟩] default⟩]).answers
        ([⟨oneFile, ⟨2, 0⟩, .get [⟨"a"⟩]⟩] ++
          [⟨oneFile, ⟨101, 0⟩, .set [⟨"/a"⟩] default⟩, ⟨oneFile, ⟨102, 0⟩, .get [⟨"a"⟩]⟩]) := by
  refine (answers_insert_cleanUp ⟨60, 1⟩ _ _ _ _ rfl (by decide) (by decide)
    ⟨(storageTimes_sublist _).nodup (by decide), fun k e he hmem ↦ ?_⟩).1
  have hlater := (storageTimes_sublist _).subset hmem
  rcases get?_run_cases he with hbefore | ⟨ev, hev, hstored, -⟩
  · simp [ofLimits] at hbefore
  · obtain rfl := List.mem_singleton.1 hev
    rw [createdAt_of_stored? hstored] at hlater
    revert hlater
    decide

end CleanUp

end Cache

end ChangeContext
