import ChangeContext.Cache.Snapshot
import ChangeContext.Proofs.Cache.Eviction

/-!
# Runs of a cache

A cache is used by one operation after the other.  Each `Event` comes with the file tree as it is
then and with the reading of the clock, so that files may change in any way between two operations.

What an operation does to the cache is told from outside by three questions about its event: which
entry it stores, if any (`Event.stored?`), whether it drops what is filed under a key whatever that
is (`Event.Drops`), and whether it looks an entry up (`Event.Asks`).  `get?_step_cases` says how an
entry can be there after a step, and `get?_step_of_keeps` what it takes for an entry to survive one.
-/

set_option autoImplicit false

namespace ChangeContext

namespace Cache

/-! ## Operations -/

/-- What can be done with a cache, short of taking a snapshot over. -/
inductive Operation where
  | get (files : List Path)
  | set (files : List Path) (bundle : Bundle)
  | invalidate (files : List Path)
  | clear
  | cleanUp
  | stats
  | exportTo (path : Path)

/-- An operation, when it is carried out and what the files are like then. -/
structure Event where
  tree : FileTree
  now : Instant
  operation : Operation

/-- The cache after an operation; looking at it and writing a snapshot leave it as it is. -/
def step (c : Cache) (ev : Event) : Cache :=
  match ev.operation with
  | .get files => (c.get ev.tree ev.now files).2
  | .set files bundle => c.set ev.tree ev.now files bundle
  | .invalidate files => (c.invalidate files).2
  | .clear => c.clear
  | .cleanUp => (c.cleanUp ev.now).2
  | .stats | .exportTo _ => c

/-- The cache after operations in order. -/
def run (c : Cache) (events : List Event) : Cache :=
  events.foldl step c

/-- The key of a file set, whatever its order and spelling. -/
def keyOf (files : List Path) : String :=
  key (Path.canonicalSet files)

/-- The entry that an event stores: a set of files that cannot all be read is not stored. -/
def Event.stored? (ev : Event) : Option Entry :=
  match ev.operation with
  | .set files bundle =>
    (state? ev.tree (Path.canonicalSet files)).map fun state ↦
      ⟨keyOf files, Path.canonicalSet files, state, bundle, ev.now⟩
  | _ => none

/-- The event drops what is filed under `k`, whatever that is. -/
def Event.Drops (ev : Event) (k : String) : Prop :=
  ev.operation = .clear ∨ ∃ files, ev.operation = .invalidate files ∧ keyOf files = k

/-- The event asks for what is filed under `k`. -/
def Event.Asks (ev : Event) (k : String) : Prop :=
  ∃ files, ev.operation = .get files ∧ keyOf files = k

/-- The event stores an entry under `k`. -/
def Event.Stores (ev : Event) (k : String) : Prop :=
  ∃ e, ev.stored? = some e ∧ e.key = k

/-- The age in seconds at which an entry is too old, no matter how great an age was asked for. -/
def Limits.age (limits : Limits) : Nat :=
  min limits.maxAge ageLimit

/-- What was stored at the time `stored` for files of this state may be served now: less than the
age limit has passed, and the files can be read and are as they were. -/
structure Limits.Fresh (limits : Limits) (stored : Instant) (files : List Path) (state : String)
    (t : FileTree) (now : Instant) : Prop where
  young : now.toNanos - stored.toNanos < (limits.age : Int) * 1000000000
  same : state? t files = some state

/-- The entry may be served. -/
def Entry.Good (e : Entry) (limits : Limits) (t : FileTree) (now : Instant) : Prop :=
  limits.Fresh e.createdAt e.files e.state t now

/-! ## One operation -/

section Step

variable {c : Cache} {ev : Event} {k : String} {e : Entry}

theorem run_append (c : Cache) (before after : List Event) :
    c.run (before ++ after) = (c.run before).run after :=
  List.foldl_append

@[simp] theorem run_singleton (c : Cache) (ev : Event) : c.run [ev] = c.step ev := rfl

theorem expires_eq_false_iff {limits : Limits} {now : Instant} :
    limits.expires e now = false ↔
      now.toNanos - e.createdAt.toNanos < (limits.age : Int) * 1000000000 := by
  rw [Limits.expires, Instant.hasAged, decide_eq_false_iff_not, Int.not_le, Limits.age]

theorem expires_iff {limits : Limits} {now : Instant} :
    limits.expires e now = true ↔
      (limits.age : Int) * 1000000000 ≤ now.toNanos - e.createdAt.toNanos := by
  rw [Limits.expires, Instant.hasAged, decide_eq_true_iff, Limits.age]

theorem serves_iff {t : FileTree} {now : Instant} :
    c.serves t now e = true ↔ e.Good c.limits t now := by
  rw [serves, Bool.and_eq_true, Bool.not_eq_true', beq_iff_eq, expires_eq_false_iff]
  exact ⟨fun h ↦ ⟨h.1, h.2⟩, fun h ↦ ⟨h.young, h.same⟩⟩

/-- **What a request answers.** -/
theorem get_fst_eq_some_iff {t : FileTree} {now : Instant} {files : List Path} {b : Bundle} :
    (c.get t now files).1 = some b ↔
      ∃ e, c.entries.get? (keyOf files) = some e ∧ e.Good c.limits t now ∧ e.bundle = b := by
  rw [get]
  cases hfind : c.entries.get? (key (Path.canonicalSet files)) with
  | none => simp [keyOf, hfind]
  | some e =>
    by_cases hgood : c.serves t now e = true
    · simp [keyOf, hfind, hgood, ← serves_iff]
    · simp [keyOf, hfind, hgood, ← serves_iff]

/-- After a request only an entry that may not be served is gone. -/
theorem get?_get_snd (c : Cache) (t : FileTree) (now : Instant) (files : List Path) (k : String) :
    (c.get t now files).2.entries.get? k =
      if k = keyOf files then (c.entries.get? k).filter (c.serves t now) else c.entries.get? k := by
  rw [get]
  by_cases hk : k = keyOf files
  · subst hk
    rw [if_pos rfl]
    cases hfind : c.entries.get? (keyOf files) with
    | none => simp only [keyOf] at hfind ⊢; simp [hfind]
    | some e =>
      simp only [keyOf] at hfind ⊢
      by_cases hgood : c.serves t now e = true <;> simp [hfind, hgood, Option.filter]
  · rw [if_neg hk]
    cases hfind : c.entries.get? (key (Path.canonicalSet files)) with
    | none => rfl
    | some e =>
      by_cases hgood : c.serves t now e = true
      · simp [hgood]
      · simp only [hgood, Bool.false_eq_true, if_false, NameMap.get?_erase]
        exact if_neg hk

/-- After cleaning up only an entry that is too old is gone. -/
theorem get?_cleanUp_snd (c : Cache) (now : Instant) (k : String) :
    (c.cleanUp now).2.entries.get? k =
      (c.entries.get? k).filter fun e ↦ !c.limits.expires e now :=
  NameMap.get?_filter ..

/-- A request is counted by whether it was answered. -/
theorem counters_get (c : Cache) (t : FileTree) (now : Instant) (files : List Path) :
    (c.get t now files).2.counters =
      if (c.get t now files).1.isSome then c.counters.hit else c.counters.miss := by
  rw [get]
  split
  · rfl
  · split <;> rfl

theorem stored?_eq_some_iff {files : List Path} {bundle : Bundle}
    (h : ev.operation = .set files bundle) :
    ev.stored? = some e ↔ ∃ state, state? ev.tree (Path.canonicalSet files) = some state ∧
      e = ⟨keyOf files, Path.canonicalSet files, state, bundle, ev.now⟩ := by
  rw [Event.stored?, h]
  simp only [Option.map_eq_some_iff]
  exact exists_congr fun _ ↦ and_congr_right fun _ ↦ eq_comm

/-- Only setting stores something, and what it stores was created then. -/
theorem set_of_stored? (h : ev.stored? = some e) :
    ∃ files bundle, ev.operation = .set files bundle ∧
      state? ev.tree (Path.canonicalSet files) = some e.state ∧
      e = ⟨keyOf files, Path.canonicalSet files, e.state, bundle, ev.now⟩ := by
  cases hop : ev.operation with
  | set files bundle =>
    obtain ⟨state, hstate, rfl⟩ := (stored?_eq_some_iff hop).1 h
    exact ⟨files, bundle, rfl, hstate, rfl⟩
  | _ => simp [Event.stored?, hop] at h

theorem createdAt_of_stored? (h : ev.stored? = some e) : e.createdAt = ev.now := by
  obtain ⟨_, _, -, -, he⟩ := set_of_stored? h
  rw [he]

/-- What storing does to a cache. -/
theorem step_of_stored? (c : Cache) (h : ev.stored? = some e) :
    c.step ev = { c with entries := (c.makeRoom e.key).insert e.key e } := by
  obtain ⟨files, bundle, hop, hstate, he⟩ := set_of_stored? h
  rw [step, hop]
  simp only [set, hstate]
  rw [he]
  rfl

theorem entries_step_of_stored? (c : Cache) (h : ev.stored? = some e) :
    (c.step ev).entries = (c.makeRoom e.key).insert e.key e := by
  rw [step_of_stored? c h]

theorem get?_set (c : Cache) {t : FileTree} (now : Instant) {files : List Path} (bundle : Bundle)
    {state : String} (hstate : state? t (Path.canonicalSet files) = some state) :
    (c.set t now files bundle).entries.get? (keyOf files) =
      some ⟨keyOf files, Path.canonicalSet files, state, bundle, now⟩ := by
  rw [set]
  simp only [hstate]
  exact (NameMap.get?_insert ..).trans (if_pos rfl)

@[simp] theorem limits_set (c : Cache) (t : FileTree) (now : Instant) (files : List Path)
    (bundle : Bundle) : (c.set t now files bundle).limits = c.limits := by
  rw [set]
  split <;> rfl

/-- What is set can be asked for under its key, in whatever way the key comes about, as long as it is
young enough and its files can be read and are as they were. -/
theorem get_set_eq_some (c : Cache) {t t' : FileTree} {now now' : Instant} {files request : List Path}
    (bundle : Bundle) {state : String} (hkey : keyOf request = keyOf files)
    (hstate : state? t (Path.canonicalSet files) = some state)
    (hfresh : c.limits.Fresh now (Path.canonicalSet files) state t' now') :
    ((c.set t now files bundle).get t' now' request).1 = some bundle := by
  refine get_fst_eq_some_iff.2 ⟨_, hkey ▸ get?_set c now bundle hstate, ?_, rfl⟩
  rw [limits_set]
  exact hfresh

/-- A set of files that cannot all be read is not stored. -/
theorem step_of_set_of_not_stored {files : List Path} {bundle : Bundle} (c : Cache)
    (hop : ev.operation = .set files bundle) (h : ev.stored? = none) : c.step ev = c := by
  have hstate : state? ev.tree (Path.canonicalSet files) = none := by
    simpa [Event.stored?, hop] using h
  rw [step, hop]
  simp only [set, hstate]

@[simp] theorem limits_step (c : Cache) (ev : Event) : (c.step ev).limits = c.limits := by
  rw [step]
  split
  · rw [get]
    split
    · rfl
    · split <;> rfl
  · exact limits_set ..
  all_goals rfl

@[simp] theorem limits_run (c : Cache) (events : List Event) : (c.run events).limits = c.limits := by
  induction events generalizing c with
  | nil => rfl
  | cons ev rest ih => exact (ih (c.step ev)).trans (limits_step c ev)

/-- **Only storing adds to a cache**, and only as long as there is room. -/
theorem size_step_le {n : Nat} (hn : c.limits.capacity ≤ n) (h : c.entries.size ≤ n) (ev : Event) :
    (c.step ev).entries.size ≤ n := by
  cases hop : ev.operation with
  | get files =>
    rw [step, hop]
    simp only [get]
    split
    · exact h
    · split
      · exact h
      · exact Nat.le_trans (NameMap.size_erase_le _ _) h
  | set files bundle =>
    cases hstored : ev.stored? with
    | none => rwa [step_of_set_of_not_stored c hop hstored]
    | some new =>
      rw [entries_step_of_stored? c hstored]
      exact size_insert_makeRoom_le hn h new.key new
  | invalidate files =>
    rw [step, hop]
    exact Nat.le_trans (NameMap.size_erase_le _ _) h
  | clear =>
    rw [step, hop]
    exact Nat.zero_le _
  | cleanUp =>
    rw [step, hop]
    exact Nat.le_trans (List.length_filter_le _ _) h
  | stats => rwa [step, hop]
  | exportTo path => rwa [step, hop]

/-- A cache does not exceed its capacity, nor the size that it has in the beginning. -/
theorem size_run_le {n : Nat} (hn : c.limits.capacity ≤ n) (h : c.entries.size ≤ n)
    (events : List Event) : (c.run events).entries.size ≤ n := by
  induction events generalizing c with
  | nil => exact h
  | cons ev rest ih => exact ih (by rwa [limits_step]) (size_step_le hn h ev)

/-- **How an entry can be there after a step**: it was stored just then, or it was there before and
the step has neither dropped it nor put another in its place. -/
theorem get?_step_cases (h : (c.step ev).entries.get? k = some e) :
    (ev.stored? = some e ∧ e.key = k) ∨
      (c.entries.get? k = some e ∧ ¬ ev.Drops k ∧ ¬ ev.Stores k) := by
  cases hop : ev.operation with
  | get files =>
    refine .inr ⟨?_, by simp [Event.Drops, hop], by simp [Event.Stores, Event.stored?, hop]⟩
    rw [step, hop] at h
    simp only [get?_get_snd] at h
    split at h
    · exact (Option.filter_eq_some_iff.1 h).1
    · exact h
  | set files bundle =>
    have hdrops : ¬ ev.Drops k := by simp [Event.Drops, hop]
    cases hstored : ev.stored? with
    | none =>
      rw [step_of_set_of_not_stored c hop hstored] at h
      exact .inr ⟨h, hdrops, by simp [Event.Stores, hstored]⟩
    | some new =>
      rw [entries_step_of_stored? c hstored, NameMap.get?_insert] at h
      split at h
      next hk => exact .inl ⟨h, by rw [hk, ← Option.some_inj.1 h]⟩
      next hk =>
        exact .inr ⟨get?_of_get?_makeRoom h, hdrops, by simp [Event.Stores, hstored, Ne.symm hk]⟩
  | invalidate files =>
    rw [step, hop] at h
    simp only [invalidate, NameMap.get?_erase] at h
    split at h
    · simp at h
    next hk =>
      refine .inr ⟨h, ?_, by simp [Event.Stores, Event.stored?, hop]⟩
      simpa [Event.Drops, hop, keyOf] using Ne.symm hk
  | clear =>
    rw [step, hop] at h
    simp [clear, ofLimits] at h
  | cleanUp =>
    rw [step, hop] at h
    simp only [get?_cleanUp_snd] at h
    exact .inr ⟨(Option.filter_eq_some_iff.1 h).1, by simp [Event.Drops, hop],
      by simp [Event.Stores, Event.stored?, hop]⟩
  | stats =>
    rw [step, hop] at h
    exact .inr ⟨h, by simp [Event.Drops, hop], by simp [Event.Stores, Event.stored?, hop]⟩
  | exportTo path =>
    rw [step, hop] at h
    exact .inr ⟨h, by simp [Event.Drops, hop], by simp [Event.Stores, Event.stored?, hop]⟩

/-- How an entry can be there after a run: it was there before, or it was stored on the way. -/
theorem get?_run_cases {events : List Event} (h : (c.run events).entries.get? k = some e) :
    c.entries.get? k = some e ∨ ∃ ev ∈ events, ev.stored? = some e ∧ e.key = k := by
  induction events generalizing c with
  | nil => exact .inl h
  | cons ev rest ih =>
    rcases ih h with hstep | ⟨x, hx, hstored⟩
    · rcases get?_step_cases hstep with hstored | ⟨hbefore, -⟩
      · exact .inr ⟨ev, List.mem_cons_self .., hstored⟩
      · exact .inl hbefore
    · exact .inr ⟨x, List.mem_cons_of_mem _ hx, hstored⟩

/-- **What it takes for an entry to survive a step.** -/
theorem get?_step_of_keeps (h : c.entries.get? k = some e) (hdrops : ¬ ev.Drops k)
    (hstores : ¬ ev.Stores k) (hasks : ev.Asks k → e.Good c.limits ev.tree ev.now)
    (hyoung : ev.operation = .cleanUp → c.limits.expires e ev.now = false)
    (hroom : ∀ new, ev.stored? = some new → c.entries.contains new.key = false →
      c.limits.capacity ≤ c.entries.size →
      ∃ b ∈ c.entries.toList, e.createdAt.le b.2.createdAt = false) :
    (c.step ev).entries.get? k = some e := by
  cases hop : ev.operation with
  | get files =>
    rw [step, hop]
    simp only [get?_get_snd]
    split
    next hk =>
      rw [h, Option.filter_some, if_pos (serves_iff.2 (hasks ⟨files, hop, hk.symm⟩))]
    next hk => exact h
  | set files bundle =>
    cases hstored : ev.stored? with
    | none => rwa [step_of_set_of_not_stored c hop hstored]
    | some new =>
      have hk : k ≠ new.key := fun hk ↦ hstores ⟨new, hstored, hk.symm⟩
      rw [entries_step_of_stored? c hstored, NameMap.get?_insert, if_neg hk]
      exact get?_makeRoom_of_younger h (hroom new hstored)
  | invalidate files =>
    have hk : k ≠ keyOf files := fun hk ↦ hdrops (.inr ⟨files, hop, hk.symm⟩)
    rw [step, hop]
    simp only [invalidate, NameMap.get?_erase]
    exact (if_neg hk).trans h
  | clear => exact absurd (.inl hop) hdrops
  | cleanUp =>
    rw [step, hop]
    simp only [get?_cleanUp_snd]
    rw [h, Option.filter_some, hyoung hop]
    rfl
  | stats => rwa [step, hop]
  | exportTo path => rwa [step, hop]

end Step

end Cache

end ChangeContext
