import ChangeContext.Pattern.Search
import ChangeContext.Proofs.Pattern.Reach

/-!
# Where matches lie

A search goes through a text from left to right.  So a match covers a stretch of that text
(`Span.In`), which it reaches in one of the ways of the pattern (`Pattern.Matches`), and a match ends
before the next one begins (`pairwise_findAll`).
-/

set_option autoImplicit false

namespace ChangeContext

/-! ## Places and stretches of a text -/

/-- The place lies in this text. -/
structure Place.In (p : Place) (text : List Char) : Prop where
  text : p.before.reverse ++ p.ahead = text
  offset : p.offset = p.before.length

/-- The stretch lies in this text. -/
structure Span.In (s : Span) (text : List Char) : Prop where
  ahead : s.ahead = text.drop s.start
  start_le : s.start ≤ s.stop
  stop_le : s.stop ≤ text.length

section In

variable {p q : Place} {s : Span} {cs text : List Char}

theorem Place.in_start (text : List Char) : (Place.start text).In text where
  text := rfl
  offset := rfl

namespace Place.In

theorem ahead_eq (h : p.In text) : p.ahead = text.drop p.offset := by
  rw [← h.text, h.offset, ← List.length_reverse, List.drop_left]

theorem offset_le (h : p.In text) : p.offset ≤ text.length := by
  rw [← h.text, h.offset, List.length_append, List.length_reverse]
  exact Nat.le_add_right ..

theorem passes (h : p.In text) (hpasses : p.Passes cs q) : q.In text where
  text := by
    rw [hpasses.before, List.reverse_append, List.reverse_reverse, List.append_assoc,
      ← hpasses.ahead, h.text]
  offset := by rw [hpasses.offset, hpasses.before, h.offset, List.length_append, List.length_reverse,
      Nat.add_comm]

theorem next (h : p.In text) : p.next.In text := by
  cases hahead : p.ahead with
  | nil => rwa [Place.next, hahead]
  | cons c rest => exact h.passes (.next hahead)

/-- Between two places lies a stretch of the text. -/
theorem until_in (h : p.In text) (hpasses : p.Passes cs q) : (p.until q).In text where
  ahead := h.ahead_eq
  start_le := hpasses.offset_le
  stop_le := (h.passes hpasses).offset_le

end Place.In

theorem Span.In.chars_eq (h : s.In text) : s.chars = (text.drop s.start).take (s.stop - s.start) := by
  rw [Span.chars, h.ahead]

theorem Span.In.length_chars (h : s.In text) : s.chars.length = s.stop - s.start := by
  rw [Span.chars, h.ahead, List.length_take, List.length_drop, Nat.min_eq_left]
  exact Nat.sub_le_sub_right h.stop_le _

end In

/-! ## Matches -/

namespace Pattern

/-- The match covers a stretch of the text in one of the ways of the pattern. -/
def Matches (p : Pattern) (text : List Char) (m : Match) : Prop :=
  ∃ place r, place.In text ∧ p.Reaches ⟨place, []⟩ r ∧ m = ⟨place.until r.place, r.marks⟩

/-- One match ends before the other begins. -/
def Precedes (m m' : Match) : Prop :=
  m.whole.stop ≤ m'.whole.start

variable {p : Pattern} {text : List Char} {m : Match}

theorem Matches.whole_in (h : p.Matches text m) : m.whole.In text := by
  obtain ⟨place, r, hplace, hr, rfl⟩ := h
  obtain ⟨cs, hpasses⟩ := hr.exists_passes
  exact hplace.until_in hpasses

/-- A match at a place begins there, and the place where it ends comes with it. -/
theorem matches_of_matchAt? {place stop : Place} (hplace : place.In text)
    (h : p.matchAt? place = some (m, stop)) :
    p.Matches text m ∧ stop.In text ∧ m.whole.start = place.offset ∧ m.whole.stop = stop.offset := by
  obtain ⟨r, hr, hsome⟩ := exists_reaches_of_fits h
  obtain ⟨rfl, rfl⟩ := Prod.mk.inj (Option.some_inj.1 hsome)
  obtain ⟨cs, hpasses⟩ := hr.exists_passes
  exact ⟨⟨place, r, hplace, hr, rfl⟩, hplace.passes hpasses, rfl, rfl⟩

/-- Matches that lie behind a position, each behind the one before it. -/
structure Ahead (p : Pattern) (text : List Char) (offset : Nat) (ms : List Match) : Prop where
  are_matches : ∀ m ∈ ms, p.Matches text m
  offset_le : ∀ m ∈ ms, offset ≤ m.whole.start
  pairwise : ms.Pairwise Precedes

namespace Ahead

variable {offset offset' : Nat} {ms : List Match}

theorem nil (p : Pattern) (text : List Char) (offset : Nat) : p.Ahead text offset [] :=
  ⟨by simp, by simp, .nil⟩

theorem mono (h : p.Ahead text offset' ms) (hle : offset ≤ offset') : p.Ahead text offset ms :=
  ⟨h.are_matches, fun m hm ↦ Nat.le_trans hle (h.offset_le m hm), h.pairwise⟩

/-- A match comes before those that lie behind the position where it ends. -/
theorem cons (h : p.Ahead text offset' ms) (hm : p.Matches text m) (hstart : offset ≤ m.whole.start)
    (hstop : m.whole.stop ≤ offset') (hle : offset ≤ offset') : p.Ahead text offset (m :: ms) where
  are_matches := List.forall_mem_cons.2 ⟨hm, h.are_matches⟩
  offset_le := List.forall_mem_cons.2 ⟨hstart, (h.mono hle).offset_le⟩
  pairwise :=
    List.pairwise_cons.2 ⟨fun m' hm' ↦ Nat.le_trans hstop (h.offset_le m' hm'), h.pairwise⟩

end Ahead

/-- What a search finds from a place on lies behind the place. -/
theorem matchesFrom_eq (p : Pattern) (bound : Nat) {place : Place} (hplace : place.In text)
    (found : List Match) :
    ∃ ms, p.matchesFrom bound place found = found.reverse ++ ms ∧
      p.Ahead text place.offset ms := by
  induction bound generalizing place found with
  | zero => exact ⟨[], by simp [matchesFrom], .nil ..⟩
  | succ bound ih =>
    have hnext : place.offset ≤ place.next.offset := by
      cases hahead : place.ahead with
      | nil => simp [Place.next, hahead]
      | cons c rest => exact (Place.Passes.next hahead).offset_le
    rw [matchesFrom]
    split
    next m stop hm =>
      obtain ⟨hmatches, hstop, hmstart, hmstop⟩ := matches_of_matchAt? hplace hm
      have hstart : place.offset ≤ m.whole.start := Nat.le_of_eq hmstart.symm
      split
      next hlt =>
        obtain ⟨ms, heq, hms⟩ := ih hstop (m :: found)
        have hall := hms.cons hmatches hstart (Nat.le_of_eq hmstop) (Nat.le_of_lt hlt)
        exact ⟨m :: ms, by simp [heq], hall⟩
      next hempty =>
        -- an empty match ends where it begins, and the search goes on behind this place
        have hle : m.whole.stop ≤ place.offset :=
          Nat.le_trans (Nat.le_of_eq hmstop) (Nat.not_lt.1 hempty)
        split
        next =>
          exact ⟨[m], by simp, (Ahead.nil p text _).cons hmatches hstart hle (Nat.le_refl _)⟩
        next =>
          obtain ⟨ms, heq, hms⟩ := ih hplace.next (m :: found)
          have hall := hms.cons hmatches hstart (Nat.le_trans hle hnext) hnext
          exact ⟨m :: ms, by simp [heq], hall⟩
    next =>
      split
      next => exact ⟨[], by simp, .nil ..⟩
      next =>
        obtain ⟨ms, heq, hms⟩ := ih hplace.next found
        exact ⟨ms, heq, hms.mono hnext⟩

/-- **What is found in a text are matches.** -/
theorem matches_of_mem_findAll (h : m ∈ p.findAll text) : p.Matches text m := by
  obtain ⟨ms, heq, hms⟩ := matchesFrom_eq p (text.length + 1) (Place.in_start text) []
  rw [findAll, heq] at h
  exact hms.are_matches m h

/-- **Matches are found from left to right.** -/
theorem pairwise_findAll (p : Pattern) (text : List Char) : (p.findAll text).Pairwise Precedes := by
  obtain ⟨ms, heq, hms⟩ := matchesFrom_eq p (text.length + 1) (Place.in_start text) []
  rw [findAll, heq]
  exact hms.pairwise

end Pattern

end ChangeContext
