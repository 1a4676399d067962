import ChangeContext.Pattern.Basic
import Mathlib.Data.List.Induction
import Mathlib.Logic.Relation

/-!
# The ways in which a pattern fits

`Pattern.fits` looks for one way in which a pattern fits, with what has to happen after it in mind,
and takes back what does not work out.  `Pattern.Reaches` leaves the looking aside.  It says which
places a pattern can lead to from a place, one way as good as another: a run leads past any number of
characters of its class, whichever of them would be tried first.  What is found by `fits` is one of
these ways (`exists_reaches_of_fits`).

All that is said about matches is about the stretch of text that a way goes past.  `Place.Passes`
says which characters stand between two places, and every way passes some (`Reaches.exists_passes`).
-/

set_option autoImplicit false

namespace ChangeContext

namespace Place

/-- The characters `cs` stand between two places. -/
structure Passes (p : Place) (cs : List Char) (q : Place) : Prop where
  ahead : p.ahead = cs ++ q.ahead
  before : q.before = cs.reverse ++ p.before
  offset : q.offset = p.offset + cs.length

namespace Passes

variable {p q r : Place} {cs ds : List Char} {c : Char}

theorem refl (p : Place) : p.Passes [] p where
  ahead := rfl
  before := rfl
  offset := rfl

theorem trans (h : p.Passes cs q) (h' : q.Passes ds r) : p.Passes (cs ++ ds) r where
  ahead := by rw [h.ahead, h'.ahead, List.append_assoc]
  before := by rw [h'.before, h.before, List.reverse_append, List.append_assoc]
  offset := by rw [h'.offset, h.offset, List.length_append, Nat.add_assoc]

theorem offset_le (h : p.Passes cs q) : p.offset ≤ q.offset := by
  rw [h.offset]
  exact Nat.le_add_right ..

/-- The next character is passed. -/
theorem next {rest : List Char} (h : p.ahead = c :: rest) : p.Passes [c] p.next where
  ahead := by rw [Place.next, h]; rfl
  before := by rw [Place.next, h]; rfl
  offset := by rw [Place.next, h]; rfl

/-- The character that was passed last is taken back. -/
theorem back (h : p.Passes (cs ++ [c]) q) : p.Passes cs q.back := by
  have hbefore : q.before = c :: (cs.reverse ++ p.before) := by
    rw [h.before, List.reverse_append]
    rfl
  refine ⟨?_, ?_, ?_⟩
  · rw [Place.back, hbefore, h.ahead, List.append_assoc]
    rfl
  · rw [Place.back, hbefore]
  · rw [Place.back, hbefore, h.offset, List.length_append]
    rfl

/-- The stretch between two places holds the characters that stand between them. -/
theorem chars_until (h : p.Passes cs q) : (p.until q).chars = cs := by
  rw [Span.chars, Place.until, h.offset, Nat.add_sub_cancel_left, h.ahead, List.take_left]

end Passes

/-- Passing characters of a class. -/
theorem exists_passes_pass (accepts : Char → Bool) (bound count : Nat) (p : Place) :
    ∃ cs, (∀ c ∈ cs, accepts c = true) ∧ (p.pass accepts bound count).1 = count + cs.length ∧
      p.Passes cs (p.pass accepts bound count).2 := by
  induction bound generalizing count p with
  | zero => exact ⟨[], by simp, rfl, Passes.refl p⟩
  | succ bound ih =>
    rw [pass]
    split
    next => exact ⟨[], by simp, rfl, Passes.refl p⟩
    next c rest hahead =>
      split
      next hc =>
        obtain ⟨cs, hcs, hcount, hpasses⟩ := ih (count + 1) p.next
        refine ⟨c :: cs, List.forall_mem_cons.2 ⟨hc, hcs⟩, ?_, (Passes.next hahead).trans hpasses⟩
        rw [hcount, List.length_cons]
        omega
      next => exact ⟨[], by simp, rfl, Passes.refl p⟩

end Place

namespace Pattern

/-- A pattern can lead from one place to another, with these stretches remembered on the way. -/
def Reaches : Pattern → Reached → Reached → Prop
  | nothing, r, r' => r' = r
  | one accepts, r, r' =>
    ∃ c, accepts c = true ∧ r.place.Passes [c] r'.place ∧ r'.marks = r.marks
  | run accepts, r, r' | fewest accepts, r, r' =>
    ∃ cs, (∀ c ∈ cs, accepts c = true) ∧ r.place.Passes cs r'.place ∧ r'.marks = r.marks
  | both p q, r, r' => ∃ between, p.Reaches r between ∧ q.Reaches between r'
  | either p q, r, r' => p.Reaches r r' ∨ q.Reaches r r'
  | many p, r, r' => Relation.ReflTransGen p.Reaches r r'
  | mark group p, r, r' =>
    ∃ inner, p.Reaches r inner ∧
      r' = ⟨inner.place, (group, r.place.until inner.place) :: inner.marks⟩
  | wordEdge, r, r' => r' = r ∧ r.place.atWordEdge = true
  | lineStart, r, r' => r' = r ∧ r.place.atLineStart = true
  | textStart, r, r' => r' = r ∧ r.place.before = []

/-! ## What is found is a way -/

section Fits

variable {α : Type} {after : Reached → Option α} {a : α} {marks : List (Nat × Span)}

/-- Where characters are taken back, fewer of them have been passed. -/
theorem exists_passes_of_retreat {p q : Place} {cs : List Char} (hpasses : p.Passes cs q)
    (h : retreat marks after cs.length q = some a) :
    ∃ ds q', ds <+: cs ∧ p.Passes ds q' ∧ after ⟨q', marks⟩ = some a := by
  induction cs using List.reverseRecOn generalizing q with
  | nil => exact ⟨[], q, List.prefix_refl _, hpasses, h⟩
  | append_singleton cs c ih =>
    rw [List.length_append, List.length_singleton, retreat] at h
    split at h
    next a' ha' => exact ⟨cs ++ [c], q, List.prefix_refl _, hpasses, ha'.trans h⟩
    next =>
      obtain ⟨ds, q', hds, hq', hafter⟩ := ih hpasses.back h
      exact ⟨ds, q', hds.trans (List.prefix_append ..), hq', hafter⟩

theorem exists_passes_of_advance {accepts : Char → Bool} {bound : Nat} {p : Place}
    (h : advance accepts marks after bound p = some a) :
    ∃ cs q, (∀ c ∈ cs, accepts c = true) ∧ p.Passes cs q ∧ after ⟨q, marks⟩ = some a := by
  induction bound generalizing p with
  | zero => exact ⟨[], p, by simp, Place.Passes.refl p, h⟩
  | succ bound ih =>
    rw [advance] at h
    split at h
    next a' ha' => exact ⟨[], p, by simp, Place.Passes.refl p, ha'.trans h⟩
    next =>
      split at h
      next => simp at h
      next c rest hahead =>
        split at h
        next hc =>
          obtain ⟨cs, q, hcs, hpasses, hafter⟩ := ih h
          exact ⟨c :: cs, q, List.forall_mem_cons.2 ⟨hc, hcs⟩,
            (Place.Passes.next hahead).trans hpasses, hafter⟩
        next => simp at h

theorem exists_reaches_of_repeated {step : Reached → (Reached → Option α) → Option α}
    {R : Reached → Reached → Prop}
    (hstep : ∀ {r : Reached} {after : Reached → Option α} {a : α}, step r after = some a →
      ∃ r', R r r' ∧ after r' = some a)
    {bound : Nat} {r : Reached} (h : repeated step after bound r = some a) :
    ∃ r', Relation.ReflTransGen R r r' ∧ after r' = some a := by
  induction bound generalizing r with
  | zero => exact ⟨r, .refl, h⟩
  | succ bound ih =>
    rw [repeated] at h
    split at h
    next a' ha' =>
      obtain ⟨between, hbetween, hrest⟩ := hstep ha'
      split at hrest
      next =>
        obtain ⟨r', hr', hafter⟩ := ih (hrest.trans h)
        exact ⟨r', .head hbetween hr', hafter⟩
      next => simp at hrest
    next => exact ⟨r, .refl, h⟩

/-- **What is found is one of the ways in which the pattern fits.** -/
theorem exists_reaches_of_fits {p : Pattern} {r : Reached} (h : p.fits r after = some a) :
    ∃ r', p.Reaches r r' ∧ after r' = some a := by
  induction p generalizing r after a with
  | nothing => exact ⟨r, rfl, h⟩
  | one accepts =>
    rw [fits] at h
    split at h
    next => simp at h
    next c rest hahead =>
      obtain ⟨hc, hafter⟩ := Option.ite_none_right_eq_some.1 h
      exact ⟨⟨r.place.next, r.marks⟩, ⟨c, hc, Place.Passes.next hahead, rfl⟩, hafter⟩
  | run accepts =>
    rw [fits] at h
    obtain ⟨cs, hcs, hcount, hpasses⟩ :=
      Place.exists_passes_pass accepts r.place.left 0 r.place
    rw [Nat.zero_add] at hcount
    simp only [hcount] at h
    obtain ⟨ds, q, hds, hq, hafter⟩ := exists_passes_of_retreat hpasses h
    exact ⟨⟨q, r.marks⟩, ⟨ds, fun c hc ↦ hcs c (hds.subset hc), hq, rfl⟩, hafter⟩
  | fewest accepts =>
    obtain ⟨cs, q, hcs, hq, hafter⟩ := exists_passes_of_advance h
    exact ⟨⟨q, r.marks⟩, ⟨cs, hcs, hq, rfl⟩, hafter⟩
  | both p q ihp ihq =>
    obtain ⟨between, hbetween, hq⟩ := ihp h
    obtain ⟨r', hr', hafter⟩ := ihq hq
    exact ⟨r', ⟨between, hbetween, hr'⟩, hafter⟩
  | either p q ihp ihq =>
    rw [fits] at h
    split at h
    next a' ha' =>
      obtain ⟨r', hr', hafter⟩ := ihp (ha'.trans h)
      exact ⟨r', .inl hr', hafter⟩
    next =>
      obtain ⟨r', hr', hafter⟩ := ihq h
      exact ⟨r', .inr hr', hafter⟩
  | many p ih =>
    rw [fits] at h
    exact exists_reaches_of_repeated (fun h ↦ ih h) h
  | mark group p ih =>
    obtain ⟨inner, hinner, hafter⟩ := ih h
    exact ⟨_, ⟨inner, hinner, rfl⟩, hafter⟩
  | wordEdge =>
    rw [fits, Option.ite_none_right_eq_some] at h
    exact ⟨r, ⟨rfl, h.1⟩, h.2⟩
  | lineStart =>
    rw [fits, Option.ite_none_right_eq_some] at h
    exact ⟨r, ⟨rfl, h.1⟩, h.2⟩
  | textStart =>
    rw [fits, Option.ite_none_right_eq_some] at h
    exact ⟨r, ⟨rfl, List.isEmpty_iff.1 h.1⟩, h.2⟩

end Fits

/-- The parts of a pattern that are marked with this number. -/
def marked (group : Nat) : Pattern → List Pattern
  | both p q | either p q => p.marked group ++ q.marked group
  | many p => p.marked group
  | mark group' p => if group' = group then p :: p.marked group else p.marked group
  | nothing | one _ | run _ | fewest _ | wordEdge | lineStart | textStart => []

/-- **What is remembered under a number is what a part with this mark covers.** -/
theorem Reaches.of_mem_marks {p : Pattern} {r r' : Reached} {group : Nat} {s : Span}
    (h : p.Reaches r r') (hs : (group, s) ∈ r'.marks) :
    (group, s) ∈ r.marks ∨
      ∃ q ∈ p.marked group, ∃ r₁ r₂, q.Reaches r₁ r₂ ∧ s = r₁.place.until r₂.place := by
  induction p generalizing r r' with
  | nothing => exact .inl (h ▸ hs)
  | one accepts =>
    obtain ⟨-, -, -, hmarks⟩ := h
    exact .inl (hmarks ▸ hs)
  | run accepts =>
    obtain ⟨-, -, -, hmarks⟩ := h
    exact .inl (hmarks ▸ hs)
  | fewest accepts =>
    obtain ⟨-, -, -, hmarks⟩ := h
    exact .inl (hmarks ▸ hs)
  | both p q ihp ihq =>
    obtain ⟨between, hp, hq⟩ := h
    rcases ihq hq hs with hs | ⟨part, hpart, hcovers⟩
    · rcases ihp hp hs with hs | ⟨part, hpart, hcovers⟩
      · exact .inl hs
      · exact .inr ⟨part, List.mem_append_left _ hpart, hcovers⟩
    · exact .inr ⟨part, List.mem_append_right _ hpart, hcovers⟩
  | either p q ihp ihq =>
    rcases h with h | h
    · exact (ihp h hs).imp_right fun ⟨part, hpart, hcovers⟩ ↦
        ⟨part, List.mem_append_left _ hpart, hcovers⟩
    · exact (ihq h hs).imp_right fun ⟨part, hpart, hcovers⟩ ↦
        ⟨part, List.mem_append_right _ hpart, hcovers⟩
  | many p ih =>
    induction h with
    | refl => exact .inl hs
    | tail _ hlast hbefore => exact (ih hlast hs).elim hbefore .inr
  | mark group' p ih =>
    obtain ⟨inner, hinner, rfl⟩ := h
    rcases List.mem_cons.1 hs with hs | hs
    · -- the stretch is the one that this mark adds
      obtain ⟨rfl, rfl⟩ := Prod.mk.inj hs
      exact .inr ⟨p, by simp [marked], r, inner, hinner, rfl⟩
    · refine (ih hinner hs).imp_right fun ⟨part, hpart, hcovers⟩ ↦ ⟨part, ?_, hcovers⟩
      rw [marked]
      split
      · exact List.mem_cons_of_mem _ hpart
      · exact hpart
  | wordEdge => exact .inl (h.1 ▸ hs)
  | lineStart => exact .inl (h.1 ▸ hs)
  | textStart => exact .inl (h.1 ▸ hs)

/-- **Every way goes past a stretch of the text.** -/
theorem Reaches.exists_passes {p : Pattern} {r r' : Reached} (h : p.Reaches r r') :
    ∃ cs, r.place.Passes cs r'.place := by
  induction p generalizing r r' with
  | nothing => exact ⟨[], h ▸ Place.Passes.refl _⟩
  | one accepts =>
    obtain ⟨c, -, hc, -⟩ := h
    exact ⟨[c], hc⟩
  | run accepts =>
    obtain ⟨cs, -, hcs, -⟩ := h
    exact ⟨cs, hcs⟩
  | fewest accepts =>
    obtain ⟨cs, -, hcs, -⟩ := h
    exact ⟨cs, hcs⟩
  | both p q ihp ihq =>
    obtain ⟨between, hp, hq⟩ := h
    obtain ⟨cs, hcs⟩ := ihp hp
    obtain ⟨ds, hds⟩ := ihq hq
    exact ⟨cs ++ ds, hcs.trans hds⟩
  | either p q ihp ihq => exact h.elim ihp ihq
  | many p ih =>
    induction h with
    | refl => exact ⟨[], Place.Passes.refl _⟩
    | tail _ hlast hbefore =>
      obtain ⟨cs, hcs⟩ := hbefore
      obtain ⟨ds, hds⟩ := ih hlast
      exact ⟨cs ++ ds, hcs.trans hds⟩
  | mark group p ih =>
    obtain ⟨inner, hinner, rfl⟩ := h
    obtain ⟨cs, hcs⟩ := ih hinner
    exact ⟨cs, hcs⟩
  | wordEdge => exact ⟨[], h.1 ▸ Place.Passes.refl _⟩
  | lineStart => exact ⟨[], h.1 ▸ Place.Passes.refl _⟩
  | textStart => exact ⟨[], h.1 ▸ Place.Passes.refl _⟩

/-! ## Common forms -/

section Forms

variable {p q : Pattern} {r r' : Reached}

/-- A pattern that begins with a character of a class passes such a character first. -/
theorem Reaches.exists_passes_cons {accepts : Char → Bool}
    (h : (both (one accepts) q).Reaches r r') :
    ∃ c cs, accepts c = true ∧ r.place.Passes (c :: cs) r'.place := by
  obtain ⟨between, ⟨c, hc, hfirst, -⟩, hrest⟩ := h
  obtain ⟨cs, hcs⟩ := hrest.exists_passes
  exact ⟨c, cs, hc, hfirst.trans hcs⟩

/-- A run of at least one character of a class. -/
theorem Reaches.of_run1 {accepts : Char → Bool} (h : (run1 accepts).Reaches r r') :
    ∃ cs, cs ≠ [] ∧ (∀ c ∈ cs, accepts c = true) ∧ r.place.Passes cs r'.place ∧
      r'.marks = r.marks := by
  obtain ⟨between, ⟨c, hc, hfirst, hmarks⟩, cs, hcs, hrest, hmarks'⟩ := h
  exact ⟨c :: cs, List.cons_ne_nil _ _, List.forall_mem_cons.2 ⟨hc, hcs⟩, hfirst.trans hrest,
    hmarks'.trans hmarks⟩

/-- A single given character. -/
theorem Reaches.of_char {c : Char} (h : (char c).Reaches r r') :
    r.place.Passes [c] r'.place ∧ r'.marks = r.marks := by
  obtain ⟨d, hd, hpasses, hmarks⟩ := h
  obtain rfl : d = c := by simpa using hd
  exact ⟨hpasses, hmarks⟩

theorem Reaches.of_seq_cons {ps : List Pattern} (h : (seq (p :: ps)).Reaches r r') :
    ∃ between, p.Reaches r between ∧ (seq ps).Reaches between r' := by
  cases ps with
  | nil => exact ⟨r', h, rfl⟩
  | cons q ps => exact h

theorem Reaches.of_chars {cs : List Char} (h : (seq (cs.map char)).Reaches r r') :
    r.place.Passes cs r'.place := by
  induction cs generalizing r with
  | nil => exact h ▸ Place.Passes.refl _
  | cons c cs ih =>
    obtain ⟨between, hc, hcs⟩ := h.of_seq_cons
    exact hc.of_char.1.trans (ih hcs)

/-- A given text. -/
theorem Reaches.of_word {s : String} (h : (word s).Reaches r r') :
    r.place.Passes s.toList r'.place :=
  Reaches.of_chars h

end Forms

end Pattern

end ChangeContext
