import ChangeContext.Proofs.Cache.CleanUp
import ChangeContext.Proofs.Path.Order
import Mathlib.Data.List.DropRight

/-!
# What a cache keeps in order

Whatever is done with a cache, its entries stay where they belong: each under the key of its own
files, which are listed in ascending order, and never more of them than there is room for.  And the
counters say how many requests were answered and how many were not since the cache was cleared for
the last time.

Entries are what they were when they were stored, so for them it is enough to look at storing.  The
counters are an induction over the history from its end: the last operation cleared the cache, or was
a request and is counted by its answer, or counts for nothing (`counters_step`).
-/

set_option autoImplicit false

namespace ChangeContext

namespace Cache

/-! ## Entries -/

/-- The entry belongs under `k`: that is the key it has noted and the key of its files, and these are
strictly ascending. -/
structure Entry.BelongsUnder (e : Entry) (k : String) : Prop where
  noted : e.key = k
  derived : Cache.key e.files = k
  ascending : e.files.Pairwise fun p q ↦ p.compare q = .lt

/-- What is stored belongs under its key. -/
theorem belongsUnder_of_stored? {ev : Event} {e : Entry} (h : ev.stored? = some e) :
    e.BelongsUnder e.key := by
  obtain ⟨files, bundle, -, -, he⟩ := set_of_stored? h
  rw [he]
  exact ⟨rfl, rfl, Path.ascending_canonicalSet files⟩

theorem belongsUnder_of_get?_run {limits : Limits} {events : List Event} {k : String} {e : Entry}
    (h : ((ofLimits limits).run events).entries.get? k = some e) : e.BelongsUnder k := by
  rcases get?_run_cases h with hbefore | ⟨ev, -, hstored, hkey⟩
  · simp [ofLimits] at hbefore
  · exact hkey ▸ belongsUnder_of_stored? hstored

/-! ## Requests since the cache was cleared -/

/-- The event clears the cache. -/
def Event.clears (ev : Event) : Bool :=
  match ev.operation with
  | .clear => true
  | _ => false

/-- The event is a request for a bundle. -/
def Event.requests (ev : Event) : Bool :=
  match ev.operation with
  | .get _ => true
  | _ => false

/-- The events after the last one that cleared the cache, or all of them. -/
def sinceCleared (events : List Event) : List Event :=
  events.rtakeWhile fun ev ↦ !ev.clears

/-- The events up to the last one that cleared the cache. -/
def untilCleared (events : List Event) : List Event :=
  events.rdropWhile fun ev ↦ !ev.clears

/-- What the requests since the cache was cleared were answered, in order. -/
def recentAnswers (c : Cache) (events : List Event) : List (Option Bundle) :=
  (c.run (untilCleared events)).answers (sinceCleared events)

theorem untilCleared_append_sinceCleared (events : List Event) :
    untilCleared events ++ sinceCleared events = events :=
  List.rdropWhile_append_rtakeWhile ..

theorem recentAnswers_append_singleton (c : Cache) (events : List Event) (ev : Event) :
    c.recentAnswers (events ++ [ev]) =
      if ev.clears then [] else c.recentAnswers events ++ ((c.run events).answer? ev).toList := by
  rw [recentAnswers, untilCleared, sinceCleared, List.rdropWhile_concat, List.rtakeWhile_concat]
  cases hclears : ev.clears with
  | true => rfl
  | false =>
    have hrun : (c.run (untilCleared events)).run (sinceCleared events) = c.run events := by
      rw [← run_append, untilCleared_append_sinceCleared]
    simp only [Bool.not_false, if_true, Bool.false_eq_true, if_false]
    rw [← untilCleared, ← sinceCleared, answers_append, hrun, answers, answers, List.append_nil,
      recentAnswers]

/-- There is one answer for each request. -/
theorem length_answers (c : Cache) (events : List Event) :
    (c.answers events).length = events.countP (·.requests) := by
  induction events generalizing c with
  | nil => rfl
  | cons ev rest ih =>
    rw [answers, List.length_append, ih, List.countP_cons, Nat.add_comm]
    congr 1
    cases hop : ev.operation <;> simp [answer?, Event.requests, hop]

theorem length_recentAnswers (c : Cache) (events : List Event) :
    (c.recentAnswers events).length = (sinceCleared events).countP (·.requests) :=
  length_answers ..

/-! ## Counters -/

/-- The counters after one more request with this answer. -/
def Counters.count (c : Counters) (answer : Option Bundle) : Counters :=
  if answer.isSome then c.hit else c.miss

/-- The counters after requests with these answers. -/
def Counters.ofAnswers (answers : List (Option Bundle)) : Counters where
  hits := answers.countP (·.isSome) % limit
  misses := answers.countP (·.isNone) % limit

theorem Counters.ofAnswers_append_singleton (answers : List (Option Bundle))
    (answer : Option Bundle) : ofAnswers (answers ++ [answer]) = (ofAnswers answers).count answer := by
  cases answer <;> simp [ofAnswers, count, hit, miss, List.countP_append]

/-- **What an event does to the counters.** -/
theorem counters_step (c : Cache) (ev : Event) :
    (c.step ev).counters =
      if ev.clears then Counters.zero
      else (c.answer? ev).elim c.counters c.counters.count := by
  cases hop : ev.operation with
  | get files =>
    rw [step, answer?, Event.clears, hop]
    exact counters_get ..
  | set files bundle =>
    rw [step, answer?, Event.clears, hop]
    simp only [set]
    split <;> rfl
  | _ =>
    rw [step, answer?, Event.clears, hop]
    rfl

/-- **The counters tell the answers since the cache was cleared.** -/
theorem counters_run (limits : Limits) (events : List Event) :
    ((ofLimits limits).run events).counters =
      Counters.ofAnswers ((ofLimits limits).recentAnswers events) := by
  induction events using List.reverseRecOn with
  | nil => rfl
  | append_singleton events ev ih =>
    rw [run_append, run_singleton, counters_step, recentAnswers_append_singleton, ih]
    split
    next => rfl
    next =>
      cases ((ofLimits limits).run events).answer? ev with
      | none => simp
      | some answer => exact (Counters.ofAnswers_append_singleton _ _).symm

/-- As long as the counters do not begin anew, they are the numbers of requests that were answered
and that were not. -/
theorem Counters.ofAnswers_of_lt {answers : List (Option Bundle)} (h : answers.length < limit) :
    (ofAnswers answers).hits = answers.countP (·.isSome) ∧
      (ofAnswers answers).hits + (ofAnswers answers).misses = answers.length := by
  have hhits : answers.countP (·.isSome) < limit := Nat.lt_of_le_of_lt List.countP_le_length h
  have hmisses : answers.countP (·.isNone) < limit := Nat.lt_of_le_of_lt List.countP_le_length h
  have hsum : answers.length = answers.countP (·.isSome) + answers.countP (·.isNone) := by
    rw [List.length_eq_countP_add_countP (·.isSome)]
    congr 1
    exact List.countP_congr fun answer _ ↦ by simp
  rw [ofAnswers, Nat.mod_eq_of_lt hhits, Nat.mod_eq_of_lt hmisses]
  exact ⟨rfl, hsum.symm⟩

/-! ## After any use -/

/-- **A cache stays in order**, whatever is done with it and whatever becomes of the files meanwhile.
Every entry belongs under the key it is filed under, and there are no more entries than there is room
for.  The counters tell the answers of the requests since the cache was cleared: those that got a
bundle are the hits, and hits and misses together are the requests, as long as these can be counted
in 64 bits. -/
theorem inOrder_run (limits : Limits) (events : List Event) :
    (∀ k e, ((ofLimits limits).run events).entries.get? k = some e → e.BelongsUnder k) ∧
    ((ofLimits limits).run events).entries.size ≤ max 1 limits.maxEntries ∧
    ((ofLimits limits).run events).counters =
      Counters.ofAnswers ((ofLimits limits).recentAnswers events) ∧
    ((sinceCleared events).countP (·.requests) < Counters.limit →
      ((ofLimits limits).run events).counters.hits =
        ((ofLimits limits).recentAnswers events).countP (·.isSome) ∧
      ((ofLimits limits).run events).counters.hits + ((ofLimits limits).run events).counters.misses =
        (sinceCleared events).countP (·.requests)) := by
  refine ⟨fun k e ↦ belongsUnder_of_get?_run, ?_, counters_run limits events, fun hfew ↦ ?_⟩
  · rw [max_comm]
    exact size_run_le (Nat.le_refl _) (Nat.zero_le _) events
  · rw [← length_recentAnswers (ofLimits limits)] at hfew ⊢
    rw [counters_run]
    exact Counters.ofAnswers_of_lt hfew

/-- A bundle is asked for twice before it is set and twice after, and the cache is cleared behind the
first request. -/
def askedFourTimes : List Event :=
  [⟨oneFile, ⟨1, 0⟩, .get [⟨"a"⟩]⟩, ⟨oneFile, ⟨2, 0⟩, .clear⟩, ⟨oneFile, ⟨3, 0⟩, .get [⟨"a"⟩]⟩,
    ⟨oneFile, ⟨4, 0⟩, .set [⟨"a"⟩] default⟩, ⟨oneFile, ⟨5, 0⟩, .get [⟨"a"⟩]⟩,
    ⟨oneFile, ⟨6, 0⟩, .get [⟨"a"⟩]⟩]

/-- Three of these requests count. -/
theorem inOrder_run_askedFourTimes :
    (sinceCleared askedFourTimes).countP (·.requests) < Counters.limit ∧
      ((ofLimits ⟨60, 1⟩).run askedFourTimes).counters.hits +
        ((ofLimits ⟨60, 1⟩).run askedFourTimes).counters.misses = 3 := by
  have hfew : (sinceCleared askedFourTimes).countP (·.requests) < Counters.limit := by decide
  exact ⟨hfew, ((inOrder_run ⟨60, 1⟩ askedFourTimes).2.2.2 hfew).2⟩

end Cache

end ChangeContext
