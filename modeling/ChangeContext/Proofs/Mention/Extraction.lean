import ChangeContext.Proofs.Mention.Candidate
import Mathlib.Data.List.Nodup

/-!
# What is extracted from a text

`Extracts` says which candidates a text has, without the turns in which they are taken: each reads
what stands in the text, no two of them share a character, they are named shape by shape and from
left to right, and a match is missing only if something named earlier is in its way.  `Firsts` says
which of them become mentions: of each wording the first.  The main statement is that the mentions of
every text are those (`extracts_ofText`).
-/

set_option autoImplicit false

namespace ChangeContext

namespace Mention

/-! ## One mention for each wording -/

/-- Of all candidates these are kept: the first of each text, in their order. -/
structure Firsts (all kept : List Candidate) : Prop where
  sublist : kept.Sublist all
  /-- No text is kept twice. -/
  nodup : (kept.map (·.text)).Nodup
  /-- A text that is not kept was kept before. -/
  first : ∀ c ∈ all, ∃ d ∈ kept, d.text = c.text ∧ (d = c ∨ d.Precedes c)

/-- One more candidate is kept if its text is new. -/
theorem Firsts.append_singleton {all kept : List Candidate} {c : Candidate} (h : Firsts all kept)
    (hlast : ∀ d ∈ all, d.Precedes c) :
    Firsts (all ++ [c]) (if kept.any (·.text == c.text) then kept else kept ++ [c]) := by
  split
  next hknown =>
    obtain ⟨d, hd, htext⟩ := List.any_eq_true.1 hknown
    refine ⟨h.sublist.trans (List.sublist_append_left ..), h.nodup, fun e he ↦ ?_⟩
    rcases List.mem_append.1 he with he | he
    · exact h.first e he
    · obtain rfl := List.mem_singleton.1 he
      exact ⟨d, hd, beq_iff_eq.1 htext, .inr (hlast d (h.sublist.subset hd))⟩
  next hnew =>
    refine ⟨h.sublist.append (List.Sublist.refl _), ?_, fun e he ↦ ?_⟩
    · rw [List.map_append, List.map_singleton, List.nodup_append]
      refine ⟨h.nodup, List.nodup_singleton _, fun text htext text' htext' ↦ ?_⟩
      obtain ⟨d, hd, rfl⟩ := List.mem_map.1 htext
      rw [List.mem_singleton.1 htext']
      exact fun heq ↦ hnew (List.any_eq_true.2 ⟨d, hd, beq_iff_eq.2 heq⟩)
    · rcases List.mem_append.1 he with he | he
      · obtain ⟨d, hd, htext, hfirst⟩ := h.first e he
        exact ⟨d, List.mem_append_left _ hd, htext, hfirst⟩
      · obtain rfl := List.mem_singleton.1 he
        exact ⟨e, List.mem_append_right _ List.mem_cons_self, rfl, .inl rfl⟩

/-- **The distinct ones among candidates are the first of each text.** -/
theorem firsts_distinct {all : List Candidate} (h : all.Pairwise Candidate.Precedes) :
    Firsts all (distinct all) := by
  induction all using List.reverseRecOn with
  | nil => exact ⟨.slnil, .nil, by simp⟩
  | append_singleton all c ih =>
    obtain ⟨hall, -, hlast⟩ := List.pairwise_append.1 h
    rw [distinct, List.foldl_append]
    exact (ih hall).append_singleton fun d hd ↦ hlast d hd c List.mem_cons_self

/-! ## The candidates of a text -/

/-- These are the candidates of a text. -/
structure Extracts (text : String) (cs : List Candidate) : Prop where
  /-- What a candidate says stands in the text, between quotation marks or as it is. -/
  reads : ∀ c ∈ cs, c.Reads text.toList
  /-- No two candidates share a character. -/
  apart : cs.Pairwise Candidate.Apart
  /-- They are named by their shapes, and from left to right within a shape. -/
  ordered : cs.Pairwise Candidate.Precedes
  /-- Of quotations all are taken that look like paths. -/
  quoted : ∀ c, c ∈ cs ∧ c.shape = .quoted ↔
    ∃ m ∈ quotation.findAll text.toList, ∃ inner mark, Quotes m inner mark ∧
      looksLikePath inner.text = true ∧ c = ⟨.quoted, m.whole.start, m.whole.stop, inner.text⟩
  /-- Any other candidate is the one for a match of its shape. -/
  matched : ∀ c ∈ cs, c.shape ≠ .quoted → ∃ s ∈ c.shape.spans text.toList, c = c.shape.candidate s
  /-- The candidate for a match covers it up to the punctuation that is left out. -/
  covers : ∀ shape : Shape, ∀ s ∈ shape.spans text.toList, Covers shape s (shape.candidate s)
  /-- A match is taken unless it touches a quotation or something that is named earlier. -/
  taken : ∀ shape : Shape, ∀ s ∈ shape.spans text.toList, (shape.candidate s ∈ cs ↔
    ∀ d ∈ cs, d.shape = .quoted ∨ d.Precedes (shape.candidate s) → (shape.candidate s).Apart d)
  /-- It does not matter for this whether the punctuation is left out. -/
  untrimmed : ∀ shape : Shape, ∀ s ∈ shape.spans text.toList, ∀ d ∈ cs,
    d.shape = .quoted ∨ d.Precedes (shape.candidate s) →
      ((shape.candidate s).Apart d ↔ s.stop ≤ d.start ∨ d.stop ≤ s.start)

theorem extracts_candidates (text : String) : Extracts text (candidates text) where
  reads _ hc := reads_of_mem_candidates hc
  apart := pairwise_apart_candidates text
  ordered := pairwise_candidates text
  quoted _ := mem_quotations_of_mem_candidates.symm.trans mem_quotations_iff
  matched _ hc hshape := exists_span_of_mem_candidates hc hshape
  covers shape _ hs := covers_candidate shape (in_of_mem_spans hs).1
  taken _ _ hs := candidate_mem_iff hs
  untrimmed _ _ hs _ hd hbefore := apart_candidate_iff hs hd hbefore

/-- **The mentions in a text are made by its candidates, one for each wording: no part of the text
is split or counted twice.** -/
theorem extracts_ofText (t : FileTree) (root : Path) (ignored : List String) (text : String) :
    Extracts text (candidates text) ∧ ∃ kept, Firsts (candidates text) kept ∧
      ofText t root ignored text = kept.map (ofCandidate t root ignored) ∧
      (ofText t root ignored text).map (·.wording) = kept.map (·.text) := by
  refine ⟨extracts_candidates text, distinct (candidates text),
    firsts_distinct (pairwise_candidates text), rfl, ?_⟩
  rw [ofText, List.map_map]
  rfl

end Mention

end ChangeContext
