import ChangeContext.Mention.Basic
import ChangeContext.Proofs.Mention.Shape
import Mathlib.Data.List.Induction
import Mathlib.Data.List.Pairwise
import Mathlib.Data.List.Perm.Basic

/-!
# Which candidates are taken

The shapes of mentions take turns, and in its turn a shape takes those of its matches that touch
nothing taken before.  The turns are one long turn with all that is offered in it, one shape after
the other (`takeTurn_append`), and for a single turn it is plain what is taken: what touches nothing
that was taken earlier (`mem_takeTurn_iff`).  So no part of a text is taken twice, and nothing is
passed over without something in its way.

Punctuation at the end of an absolute path is left out of its stretch.  It cannot be in the way of
anything either: what was taken before begins with a quotation mark or a drive letter
(`not_isPunctuation_of_mem_candidates`).  So it makes no difference whether the whole match or the stretch
without the punctuation is asked for.
-/

set_option autoImplicit false

namespace ChangeContext

namespace Mention

/-! ## The order of candidates -/

namespace Shape

/-- The place of a shape in the order of candidates. -/
def rank : Shape → Nat
  | drive => 0
  | rooted => 1
  | quoted => 2
  | relative => 3
  | bare => 4

/-- A shape whose stretches are trimmed comes behind none whose stretches are not. -/
theorem trims_of_rank_lt {shape other : Shape} (htrims : shape.trims = true)
    (h : other.rank < shape.rank) : other.trims = true := by
  revert htrims h
  cases shape <;> cases other <;> decide

/-- The candidates that a shape offers. -/
def offers (cs : List Char) : Shape → List Candidate
  | quoted => quotations cs
  | shape => (shape.spans cs).map shape.candidate

end Shape

/-- One candidate is named before another: by their shapes, and from left to right within a
shape. -/
def Candidate.Precedes (c d : Candidate) : Prop :=
  c.shape.rank < d.shape.rank ∨ c.shape = d.shape ∧ c.start < d.start

/-- The stretches of two candidates have no character in common. -/
def Candidate.Apart (c d : Candidate) : Prop :=
  c.stop ≤ d.start ∨ d.stop ≤ c.start

section Order

variable {a b c d : Candidate}

theorem Candidate.Precedes.asymm (h : c.Precedes d) : ¬ d.Precedes c := by
  unfold Precedes at *
  rcases h with h | ⟨heq, h⟩
  · rintro (h' | ⟨heq', -⟩)
    · omega
    · rw [heq'] at h
      omega
  · rw [heq]
    omega

theorem Candidate.Apart.symm (h : c.Apart d) : d.Apart c :=
  Or.symm h

theorem Candidate.overlaps_eq_false_iff : c.overlaps d = false ↔ c.Apart d := by
  simp only [overlaps, Apart, Bool.and_eq_false_iff, decide_eq_false_iff_not, Nat.not_lt]
  exact or_comm

end Order

/-! ## Turns -/

section Turns

variable {taken offered before after : List Candidate} {c d : Candidate}

theorem takeTurn_sublist (taken offered : List Candidate) :
    (takeTurn taken offered).Sublist offered := by
  induction offered generalizing taken with
  | nil => exact .slnil
  | cons c rest ih =>
    rw [takeTurn]
    split
    next => exact (ih taken).cons c
    next => exact (ih (c :: taken)).cons_cons c

/-- In a turn it does not matter in which order things were taken before it. -/
theorem takeTurn_congr {taken' : List Candidate} (h : ∀ d, d ∈ taken ↔ d ∈ taken')
    (offered : List Candidate) : takeTurn taken offered = takeTurn taken' offered := by
  induction offered generalizing taken taken' with
  | nil => rfl
  | cons c rest ih =>
    have hany : taken.any c.overlaps = taken'.any c.overlaps := by
      rw [Bool.eq_iff_iff, List.any_eq_true, List.any_eq_true]
      exact exists_congr fun d ↦ and_congr_left' (h d)
    have hcons (d : Candidate) : d ∈ c :: taken ↔ d ∈ c :: taken' := by
      rw [List.mem_cons, List.mem_cons, h d]
    rw [takeTurn, takeTurn, hany, ih h, ih hcons]

/-- **Two turns are one turn with the offers of both.** -/
theorem takeTurn_append (taken before after : List Candidate) :
    takeTurn taken (before ++ after) =
      takeTurn taken before ++ takeTurn (takeTurn taken before ++ taken) after := by
  induction before generalizing taken with
  | nil => rfl
  | cons c rest ih =>
    rw [List.cons_append, takeTurn, takeTurn]
    split
    next => exact ih taken
    next =>
      have hmem (d : Candidate) : d ∈ takeTurn (c :: taken) rest ++ c :: taken ↔
          d ∈ c :: takeTurn (c :: taken) rest ++ taken := by
        simp only [List.mem_append, List.mem_cons]
        tauto
      rw [ih (c :: taken), takeTurn_congr hmem]
      rfl

/-- Nothing that is taken in a turn touches anything taken before the turn. -/
theorem apart_of_mem_takeTurn (h : c ∈ takeTurn taken offered) (hd : d ∈ taken) : c.Apart d := by
  induction offered generalizing taken with
  | nil => simp [takeTurn] at h
  | cons a rest ih =>
    rw [takeTurn] at h
    split at h
    next => exact ih h hd
    next hfree =>
      rcases List.mem_cons.1 h with rfl | h
      · rw [List.any_eq_true, not_exists] at hfree
        rw [← Candidate.overlaps_eq_false_iff, ← Bool.not_eq_true]
        exact fun hover ↦ hfree d ⟨hd, hover⟩
      · exact ih h (List.mem_cons_of_mem _ hd)

/-- **No two things that are taken in a turn touch one another.** -/
theorem pairwise_takeTurn (taken offered : List Candidate) :
    (takeTurn taken offered).Pairwise Candidate.Apart := by
  induction offered generalizing taken with
  | nil => exact .nil
  | cons c rest ih =>
    rw [takeTurn]
    split
    next => exact ih taken
    next =>
      refine List.pairwise_cons.2 ⟨fun d hd ↦ ?_, ih (c :: taken)⟩
      exact (apart_of_mem_takeTurn hd List.mem_cons_self).symm

/-- **What is offered in a turn is taken exactly if it touches nothing that was taken before the turn
or earlier in it.** -/
theorem mem_takeTurn_iff (hoffered : offered.Pairwise Candidate.Precedes) (hc : c ∈ offered) :
    c ∈ takeTurn taken offered ↔
      (∀ d ∈ taken, c.Apart d) ∧ ∀ d ∈ takeTurn taken offered, d.Precedes c → c.Apart d := by
  obtain ⟨before, after, rfl⟩ := List.append_of_mem hc
  obtain ⟨-, hafter, hbefore⟩ := List.pairwise_append.1 hoffered
  have hlater := (List.pairwise_cons.1 hafter).1
  -- what is offered before `c` precedes it, and what is offered after it does not
  have hmem (d : Candidate) : d ∈ takeTurn taken before ↔
      d ∈ takeTurn taken (before ++ c :: after) ∧ d.Precedes c := by
    rw [takeTurn_append, List.mem_append]
    constructor
    · intro hd
      exact ⟨.inl hd, hbefore d ((takeTurn_sublist _ _).subset hd) c List.mem_cons_self⟩
    · rintro ⟨hd | hd, hprec⟩
      · exact hd
      · rcases List.mem_cons.1 ((takeTurn_sublist _ _).subset hd) with rfl | hd
        · exact absurd hprec hprec.asymm
        · exact absurd hprec (hlater d hd).asymm
  have hself : c ∈ takeTurn taken (before ++ c :: after) ↔
      ∀ d ∈ takeTurn taken before ++ taken, c.Apart d := by
    have hnot : c ∉ takeTurn taken before := fun h ↦
      absurd ((hmem c).1 h).2 ((hmem c).1 h).2.asymm
    constructor
    · intro h
      rw [takeTurn_append, List.mem_append] at h
      exact fun d hd ↦ apart_of_mem_takeTurn (h.resolve_left hnot) hd
    · intro h
      have hfree : (takeTurn taken before ++ taken).any c.overlaps = false :=
        List.any_eq_false.2 fun d hd ↦ by
          rw [Candidate.overlaps_eq_false_iff.2 (h d hd)]
          exact Bool.false_ne_true
      rw [takeTurn_append, takeTurn, hfree]
      exact List.mem_append_right _ List.mem_cons_self
  rw [hself, List.forall_mem_append, and_comm]
  exact and_congr_right fun _ ↦ forall_congr' fun d ↦ by rw [hmem d, and_imp]

end Turns

/-! ## What is offered -/

section Offers

variable {cs : List Char} {shape : Shape} {c d : Candidate} {s : Span}

theorem mem_quotations_iff : c ∈ quotations cs ↔
    ∃ m ∈ quotation.findAll cs, ∃ inner mark, Quotes m inner mark ∧
      looksLikePath inner.text = true ∧
      c = ⟨.quoted, m.whole.start, m.whole.stop, inner.text⟩ := by
  rw [quotations, List.mem_filterMap]
  refine exists_congr fun m ↦ and_congr_right fun hm ↦ ?_
  obtain ⟨inner, mark, hquotes⟩ := quotes_of_quotation (Pattern.matches_of_mem_findAll hm)
  rw [hquotes.group, Option.bind_some]
  constructor
  · intro h
    split at h
    next hpath => exact ⟨inner, mark, hquotes, hpath, (Option.some_inj.1 h).symm⟩
    next => exact absurd h (by simp)
  · rintro ⟨inner', mark', hquotes', hpath, rfl⟩
    obtain rfl := Option.some_inj.1 (hquotes.group.symm.trans hquotes'.group)
    rw [if_pos hpath]

/-- What a candidate says stands in the text where the candidate says. -/
structure Candidate.Reads (cs : List Char) (c : Candidate) : Prop where
  stop_le : c.stop ≤ cs.length
  ne_empty : c.text ≠ ""
  /-- Between quotation marks if it is quoted. -/
  quoted : c.shape = .quoted → ∃ mark ∈ marks,
    (cs.drop c.start).take (c.stop - c.start) = mark :: c.text.toList ++ [mark]
  /-- Else as it stands. -/
  plain : c.shape ≠ .quoted → (cs.drop c.start).take (c.stop - c.start) = c.text.toList

theorem Candidate.Reads.start_lt (h : c.Reads cs) : c.start < c.stop := by
  by_contra hle
  have hnone : (cs.drop c.start).take (c.stop - c.start) = [] := by
    rw [Nat.sub_eq_zero_of_le (Nat.not_lt.1 hle), List.take_zero]
  by_cases hshape : c.shape = .quoted
  · obtain ⟨mark, -, hchars⟩ := h.quoted hshape
    simp [hnone] at hchars
  · exact h.ne_empty (String.toList_eq_nil_iff.1 ((h.plain hshape).symm.trans hnone))

/-- What a candidate says is part of its stretch. -/
theorem Candidate.Reads.mem_of_mem_text (h : c.Reads cs) {ch : Char} (hch : ch ∈ c.text.toList) :
    ch ∈ (cs.drop c.start).take (c.stop - c.start) := by
  by_cases hshape : c.shape = .quoted
  · obtain ⟨mark, -, hchars⟩ := h.quoted hshape
    rw [hchars]
    exact List.mem_append_left _ (List.mem_cons_of_mem _ hch)
  · rwa [h.plain hshape]

theorem reads_of_mem_quotations (h : c ∈ quotations cs) : c.Reads cs := by
  obtain ⟨m, hm, inner, mark, hquotes, -, rfl⟩ := mem_quotations_iff.1 h
  have hin := (Pattern.matches_of_mem_findAll hm).whole_in
  refine ⟨hin.stop_le, ?_, fun _ ↦ ⟨mark, hquotes.mem, ?_⟩, fun hne ↦ absurd rfl hne⟩
  · exact fun hempty ↦ hquotes.ne_nil (by simpa [Span.text] using hempty)
  · rw [← hin.chars_eq, hquotes.chars, Span.text, String.toList_ofList]

/-- A candidate begins with the first character of its stretch. -/
theorem exists_head_candidate (h : s ∈ shape.spans cs) :
    ∃ ch rest, (shape.candidate s).text.toList = ch :: rest ∧
      (shape.trims = true → isPunctuation ch = false) := by
  obtain ⟨hin, ch, rest, hchars, hch⟩ := in_of_mem_spans h
  obtain ⟨-, -, tail, htext, -, htail, -⟩ := covers_candidate shape hin
  cases hlist : (shape.candidate s).text.toList with
  | nil =>
    -- else the first character would be punctuation in the tail
    have hmem : ch ∈ tail := by
      rw [hlist, List.nil_append] at htext
      rw [← htext, hchars]
      exact List.mem_cons_self
    obtain ⟨htrims, hpunctuation⟩ := htail ch hmem
    rw [hch htrims] at hpunctuation
    exact absurd hpunctuation Bool.false_ne_true
  | cons a as =>
    rw [hlist, hchars, List.cons_append, List.cons.injEq] at htext
    exact ⟨a, as, rfl, htext.1 ▸ hch⟩

theorem shape_ne_quoted_of_mem_spans (h : s ∈ shape.spans cs) : shape ≠ .quoted := by
  rintro rfl
  exact absurd h List.not_mem_nil

theorem reads_candidate (h : s ∈ shape.spans cs) : (shape.candidate s).Reads cs := by
  have hin := (in_of_mem_spans h).1
  obtain ⟨hshape, hstart, tail, htext, hstop, -, -⟩ := covers_candidate shape hin
  have hlength := hin.length_chars
  have hle := hin.start_le
  rw [htext, List.length_append] at hlength
  refine ⟨?_, fun hempty ↦ ?_, fun heq ↦ ?_, fun _ ↦ ?_⟩
  · exact Nat.le_trans (by omega) hin.stop_le
  · obtain ⟨ch, rest, hlist, -⟩ := exists_head_candidate h
    simp [hempty] at hlist
  · exact absurd (hshape.symm.trans heq) (shape_ne_quoted_of_mem_spans h)
  · have hlen : (shape.candidate s).stop - (shape.candidate s).start =
        min (shape.candidate s).text.toList.length (s.stop - s.start) := by omega
    rw [hlen, hstart, ← List.take_take, ← hin.chars_eq, htext, List.take_left]

theorem shape_candidate (shape : Shape) (s : Span) : (shape.candidate s).shape = shape := by
  rw [Shape.candidate]
  split <;> rfl

theorem shape_of_mem_quotations (h : c ∈ quotations cs) : c.shape = .quoted := by
  obtain ⟨m, -, inner, mark, -, -, rfl⟩ := mem_quotations_iff.1 h
  rfl

theorem shape_of_mem_offers (h : c ∈ shape.offers cs) : c.shape = shape := by
  cases shape with
  | quoted => exact shape_of_mem_quotations h
  | drive | rooted | relative | bare =>
    obtain ⟨s, -, rfl⟩ := List.mem_map.1 h
    exact shape_candidate ..

theorem reads_of_mem_offers (h : c ∈ shape.offers cs) : c.Reads cs := by
  cases shape with
  | quoted => exact reads_of_mem_quotations h
  | drive | rooted | relative | bare =>
    obtain ⟨s, hs, rfl⟩ := List.mem_map.1 h
    exact reads_candidate hs

/-- Quotations never share a quotation mark. -/
theorem pairwise_quotations (cs : List Char) :
    (quotations cs).Pairwise fun c d ↦ c.stop ≤ d.start := by
  refine List.pairwise_filterMap.2 ((Pattern.pairwise_findAll quotation cs).imp ?_)
  intro m m' hprecedes c hc d hd
  obtain ⟨inner, -, hinner⟩ := Option.bind_eq_some_iff.1 hc
  obtain ⟨inner', -, hinner'⟩ := Option.bind_eq_some_iff.1 hd
  split at hinner
  case isFalse => exact absurd hinner (by simp)
  split at hinner'
  case isFalse => exact absurd hinner' (by simp)
  obtain rfl := Option.some_inj.1 hinner
  obtain rfl := Option.some_inj.1 hinner'
  exact hprecedes

theorem pairwise_map_candidate (cs : List Char) (shape : Shape) :
    ((shape.spans cs).map shape.candidate).Pairwise fun c d ↦ c.start < d.start := by
  refine List.pairwise_map.2 ((pairwise_spans cs shape).imp_of_mem fun {s s'} hs hs' hle ↦ ?_)
  obtain ⟨-, -, tail, -, hstop, -, -⟩ := covers_candidate shape (in_of_mem_spans hs).1
  obtain ⟨-, hstart', -⟩ := covers_candidate shape (in_of_mem_spans hs').1
  have hlt := (reads_candidate hs).start_lt
  omega

/-- What a shape offers is offered from left to right. -/
theorem pairwise_offers (cs : List Char) (shape : Shape) :
    (shape.offers cs).Pairwise fun c d ↦ c.start < d.start := by
  cases shape with
  | quoted =>
    refine (pairwise_quotations cs).imp_of_mem fun hc _ hle ↦ ?_
    exact Nat.lt_of_lt_of_le (reads_of_mem_quotations hc).start_lt hle
  | drive | rooted | relative | bare => exact pairwise_map_candidate cs _

/-- What shapes offer one after the other is in the order of candidates. -/
theorem pairwise_flatMap_offers (cs : List Char) {shapes : List Shape}
    (h : shapes.Pairwise fun shape shape' ↦ shape.rank < shape'.rank) :
    (shapes.flatMap (Shape.offers cs)).Pairwise Candidate.Precedes := by
  refine List.pairwise_flatMap.2 ⟨fun shape _ ↦ ?_, h.imp fun hlt c hc d hd ↦ .inl ?_⟩
  · refine (pairwise_offers cs shape).imp_of_mem fun hc hd hlt ↦ .inr ⟨?_, hlt⟩
    rw [shape_of_mem_offers hc, shape_of_mem_offers hd]
  · rwa [shape_of_mem_offers hc, shape_of_mem_offers hd]

end Offers

/-! ## What is taken -/

section Taken

variable {text : String} {cs : List Char} {shape : Shape} {c d : Candidate} {s : Span}

/-- The shapes that take turns, before and after the quotations in the order of candidates. -/
def firstShapes : List Shape :=
  [.drive, .rooted]

def lastShapes : List Shape :=
  [.relative, .bare]

/-- The absolute paths that are taken, after the quotations have been set aside. -/
def takenFirst (cs : List Char) : List Candidate :=
  takeTurn (quotations cs) (firstShapes.flatMap (Shape.offers cs))

/-- The other paths and names that are taken. -/
def takenLast (cs : List Char) : List Candidate :=
  takeTurn (takenFirst cs ++ quotations cs) (lastShapes.flatMap (Shape.offers cs))

theorem takenFirst_append_takenLast (cs : List Char) : takenFirst cs ++ takenLast cs =
    takeTurn (quotations cs) ((firstShapes ++ lastShapes).flatMap (Shape.offers cs)) := by
  rw [List.flatMap_append, takeTurn_append]
  rfl

theorem reads_of_mem_flatMap_offers {shapes : List Shape}
    (h : c ∈ shapes.flatMap (Shape.offers cs)) : c.Reads cs := by
  obtain ⟨shape, -, hc⟩ := List.mem_flatMap.1 h
  exact reads_of_mem_offers hc

theorem reads_of_mem_taken (h : c ∈ takenFirst cs ∨ c ∈ quotations cs ∨ c ∈ takenLast cs) :
    c.Reads cs := by
  rcases h with h | h | h
  · exact reads_of_mem_flatMap_offers ((takeTurn_sublist ..).subset h)
  · exact reads_of_mem_quotations h
  · exact reads_of_mem_flatMap_offers ((takeTurn_sublist ..).subset h)

/-- The turns as they are taken, each shape after the one before it. -/
theorem exists_turns (text : String) : ∃ drive rooted relative bare,
    drive = takeTurn (quotations text.toList) (Shape.drive.offers text.toList) ∧
    rooted = takeTurn (drive ++ quotations text.toList) (Shape.rooted.offers text.toList) ∧
    relative = takeTurn (rooted ++ drive ++ quotations text.toList)
      (Shape.relative.offers text.toList) ∧
    bare = takeTurn (relative ++ rooted ++ drive ++ quotations text.toList)
      (Shape.bare.offers text.toList) ∧
    candidates text =
      (drive ++ rooted ++ quotations text.toList ++ relative ++ bare).filter (·.text ≠ "") := by
  refine ⟨_, _, _, _, rfl, rfl, rfl, rfl, ?_⟩
  simp only [candidates, Shape.offers, Shape.spans, List.map_map, List.map_filterMap]
  rfl

/-- **The quotations are named between what is taken first and what is taken last.** -/
theorem candidates_eq (text : String) : candidates text =
    takenFirst text.toList ++ quotations text.toList ++ takenLast text.toList := by
  obtain ⟨drive, rooted, relative, bare, hdrive, hrooted, hrelative, hbare, heq⟩ :=
    exists_turns text
  have hfirst : takenFirst text.toList = drive ++ rooted := by
    rw [takenFirst, firstShapes, List.flatMap_cons, List.flatMap_singleton, takeTurn_append,
      ← hdrive, ← hrooted]
  have hlast : takenLast text.toList = relative ++ bare := by
    rw [takenLast, lastShapes, List.flatMap_cons, List.flatMap_singleton, takeTurn_append, hfirst,
      hbare, hrelative]
    -- only the order of what was taken before is another
    have hmem (d : Candidate) : d ∈ drive ++ rooted ++ quotations text.toList ↔
        d ∈ rooted ++ drive ++ quotations text.toList := by
      simp only [List.mem_append]
      tauto
    rw [takeTurn_congr hmem, ← hrelative]
    refine congrArg (relative ++ ·) (takeTurn_congr (fun d ↦ ?_) _)
    rw [List.mem_append, hmem d, ← List.mem_append, List.append_assoc, List.append_assoc,
      List.append_assoc]
  rw [hfirst, hlast, ← List.append_assoc, heq, List.filter_eq_self]
  intro c hc
  have htaken : c ∈ takenFirst text.toList ∨ c ∈ quotations text.toList ∨
      c ∈ takenLast text.toList := by
    rwa [hfirst, hlast, ← List.mem_append, ← List.mem_append, ← List.append_assoc,
      ← List.append_assoc]
  exact decide_eq_true (reads_of_mem_taken htaken).ne_empty

theorem mem_candidates_iff : c ∈ candidates text ↔
    c ∈ quotations text.toList ∨ c ∈ takenFirst text.toList ++ takenLast text.toList := by
  rw [candidates_eq]
  simp only [List.mem_append]
  tauto

/-- **Candidates are named shape by shape, and from left to right.** -/
theorem pairwise_candidates (text : String) : (candidates text).Pairwise Candidate.Precedes := by
  have hshapes : (firstShapes ++ [Shape.quoted] ++ lastShapes).Pairwise
      fun shape shape' ↦ shape.rank < shape'.rank := by decide
  rw [candidates_eq]
  refine (pairwise_flatMap_offers text.toList hshapes).sublist ?_
  rw [List.flatMap_append, List.flatMap_append, List.flatMap_singleton]
  exact ((takeTurn_sublist ..).append (List.Sublist.refl _)).append (takeTurn_sublist ..)

/-- **No two candidates share a character.** -/
theorem pairwise_apart_candidates (text : String) : (candidates text).Pairwise Candidate.Apart := by
  have hperm : (candidates text).Perm
      (quotations text.toList ++ (takenFirst text.toList ++ takenLast text.toList)) := by
    rw [candidates_eq, ← List.append_assoc]
    exact List.perm_append_comm.append_right _
  refine (hperm.pairwise_iff fun h ↦ h.symm).2 (List.pairwise_append.2 ⟨?_, ?_, ?_⟩)
  · exact (pairwise_quotations text.toList).imp .inl
  · rw [takenFirst_append_takenLast]
    exact pairwise_takeTurn ..
  · intro c hc d hd
    rw [takenFirst_append_takenLast] at hd
    exact (apart_of_mem_takeTurn hd hc).symm

theorem shape_of_mem_taken (h : c ∈ takenFirst cs ++ takenLast cs) :
    ∃ shape ∈ firstShapes ++ lastShapes, c ∈ shape.offers cs := by
  rw [takenFirst_append_takenLast] at h
  exact List.mem_flatMap.1 ((takeTurn_sublist ..).subset h)

theorem shape_ne_quoted_of_mem_taken (h : c ∈ takenFirst cs ++ takenLast cs) :
    c.shape ≠ .quoted := by
  obtain ⟨shape, hshape, hc⟩ := shape_of_mem_taken h
  rw [shape_of_mem_offers hc]
  rintro rfl
  exact absurd hshape (by decide)

theorem reads_of_mem_candidates (h : c ∈ candidates text) : c.Reads text.toList := by
  rw [candidates_eq, List.append_assoc, List.mem_append, List.mem_append] at h
  exact reads_of_mem_taken h

theorem mem_quotations_of_mem_candidates :
    c ∈ quotations text.toList ↔ c ∈ candidates text ∧ c.shape = .quoted := by
  rw [mem_candidates_iff]
  constructor
  · exact fun h ↦ ⟨.inl h, shape_of_mem_quotations h⟩
  · exact fun ⟨h, hshape⟩ ↦ h.resolve_right fun h ↦ shape_ne_quoted_of_mem_taken h hshape

/-- Whatever is not quoted is the candidate for a stretch. -/
theorem exists_span_of_mem_candidates (h : c ∈ candidates text) (hshape : c.shape ≠ .quoted) :
    ∃ s ∈ c.shape.spans text.toList, c = c.shape.candidate s := by
  obtain ⟨shape, -, hc⟩ := shape_of_mem_taken ((mem_candidates_iff.1 h).resolve_left fun hq ↦
    hshape (mem_quotations_of_mem_candidates.1 hq).2)
  obtain rfl := shape_of_mem_offers hc
  cases hcase : c.shape with
  | quoted => exact absurd hcase hshape
  | drive | rooted | relative | bare =>
    rw [hcase] at hc
    obtain ⟨s, hs, heq⟩ := List.mem_map.1 hc
    exact ⟨s, hs, heq.symm⟩

theorem candidate_mem_flatMap_offers (h : s ∈ shape.spans cs) :
    shape.candidate s ∈ (firstShapes ++ lastShapes).flatMap (Shape.offers cs) := by
  refine List.mem_flatMap.2 ⟨shape, ?_⟩
  cases shape with
  | quoted => exact absurd h List.not_mem_nil
  | drive | rooted | relative | bare => exact ⟨by decide, List.mem_map_of_mem h⟩

/-- **A match is passed over exactly if something is in its way that was set aside or taken
before.** -/
theorem candidate_mem_iff (h : s ∈ shape.spans text.toList) :
    shape.candidate s ∈ candidates text ↔
      ∀ d ∈ candidates text, d.shape = .quoted ∨ d.Precedes (shape.candidate s) →
        (shape.candidate s).Apart d := by
  have hshape : (shape.candidate s).shape ≠ .quoted := by
    rw [shape_candidate]
    exact shape_ne_quoted_of_mem_spans h
  have hpairwise : ((firstShapes ++ lastShapes).flatMap (Shape.offers text.toList)).Pairwise
      Candidate.Precedes := pairwise_flatMap_offers _ (by decide)
  have hself : shape.candidate s ∈ candidates text ↔
      shape.candidate s ∈ takenFirst text.toList ++ takenLast text.toList := by
    rw [mem_candidates_iff]
    exact or_iff_right fun hq ↦ hshape (mem_quotations_of_mem_candidates.1 hq).2
  rw [hself, takenFirst_append_takenLast, mem_takeTurn_iff hpairwise (candidate_mem_flatMap_offers h),
    ← takenFirst_append_takenLast]
  constructor
  · rintro ⟨hquoted, hearlier⟩ d hd hbefore
    rcases mem_candidates_iff.1 hd with hd | hd
    · exact hquoted d hd
    · exact hearlier d hd (hbefore.resolve_left (shape_ne_quoted_of_mem_taken hd))
  · intro hall
    constructor
    · intro d hd
      obtain ⟨hd, hdshape⟩ := mem_quotations_of_mem_candidates.1 hd
      exact hall d hd (.inl hdshape)
    · exact fun d hd hprec ↦ hall d (mem_candidates_iff.2 (.inr hd)) (.inr hprec)

/-! ## Punctuation at the end -/

theorem getElem?_of_take_drop {i n : Nat} {ch : Char} {rest : List Char}
    (h : (cs.drop i).take n = ch :: rest) : cs[i]? = some ch := by
  have hhead := congrArg List.head? h
  cases n with
  | zero => simp at h
  | succ n => rwa [List.head?_take, if_neg (Nat.succ_ne_zero n), List.head?_drop] at hhead

/-- What is left out at the end of a stretch is punctuation. -/
theorem isPunctuation_of_stop_le (h : s ∈ shape.spans cs) {i : Nat} {ch : Char}
    (hle : (shape.candidate s).stop ≤ i) (hlt : i < s.stop) (hch : cs[i]? = some ch) :
    shape.trims = true ∧ isPunctuation ch = true := by
  have hin := (in_of_mem_spans h).1
  obtain ⟨-, hstart, tail, htext, hstop, htail, -⟩ := covers_candidate shape hin
  have hlength := hin.length_chars
  have hstart_lt := (reads_candidate h).start_lt
  rw [htext, List.length_append] at hlength
  have hget : s.chars[i - s.start]? = some ch := by
    rw [hin.chars_eq, List.getElem?_take_of_lt (by omega), List.getElem?_drop,
      Nat.add_sub_cancel' (by omega), hch]
  rw [htext, List.getElem?_append_right (by omega)] at hget
  exact htail ch (List.mem_of_getElem? hget)

/-- **Nothing that comes before an absolute path begins with punctuation.** -/
theorem not_isPunctuation_of_mem_candidates (hd : d ∈ candidates text)
    (hbefore : d.shape = .quoted ∨ d.shape.rank < shape.rank) (htrims : shape.trims = true)
    {ch : Char} (hch : text.toList[d.start]? = some ch) : isPunctuation ch = false := by
  have hreads := reads_of_mem_candidates hd
  by_cases hquoted : d.shape = .quoted
  · obtain ⟨mark, hmark, hchars⟩ := hreads.quoted hquoted
    obtain rfl := Option.some_inj.1 (hch.symm.trans (getElem?_of_take_drop hchars))
    simp only [marks, List.mem_cons, List.not_mem_nil, or_false] at hmark
    rcases hmark with rfl | rfl | rfl <;> decide
  · have htrims' := Shape.trims_of_rank_lt htrims (hbefore.resolve_left hquoted)
    obtain ⟨s, hs, heq⟩ := exists_span_of_mem_candidates hd hquoted
    obtain ⟨ch', rest, hlist, hfirst⟩ := exists_head_candidate hs
    rw [← heq] at hlist
    have hchars := (hreads.plain hquoted).trans hlist
    obtain rfl := Option.some_inj.1 (hch.symm.trans (getElem?_of_take_drop hchars))
    exact hfirst htrims'

/-- **For what is in the way of a match it makes no difference whether the punctuation at its end
counts.** -/
theorem apart_candidate_iff (h : s ∈ shape.spans text.toList) (hd : d ∈ candidates text)
    (hbefore : d.shape = .quoted ∨ d.Precedes (shape.candidate s)) :
    (shape.candidate s).Apart d ↔ s.stop ≤ d.start ∨ d.stop ≤ s.start := by
  obtain ⟨hshape, hstart, tail, -, hstop, -, -⟩ := covers_candidate shape (in_of_mem_spans h).1
  rw [Candidate.Apart, hstart]
  refine or_congr_left ⟨fun hle ↦ ?_, fun hle ↦ by omega⟩
  by_contra hlt
  have hreads := reads_of_mem_candidates hd
  have hstart_lt := (reads_candidate h).start_lt
  have hget := List.getElem?_eq_getElem (Nat.lt_of_lt_of_le hreads.start_lt hreads.stop_le)
  obtain ⟨htrims, hpunctuation⟩ := isPunctuation_of_stop_le h hle (Nat.not_le.1 hlt) hget
  have hother : d.shape = .quoted ∨ d.shape.rank < shape.rank := by
    rcases hbefore with hquoted | hrank | ⟨-, hleft⟩
    · exact .inl hquoted
    · exact .inr (hshape ▸ hrank)
    · omega
  rw [not_isPunctuation_of_mem_candidates hd hother htrims hget] at hpunctuation
  exact Bool.false_ne_true hpunctuation

end Taken

end Mention

end ChangeContext
