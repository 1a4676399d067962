import ChangeContext.Mention.Candidate
import ChangeContext.Proofs.Pattern.Search

/-!
# What the patterns of mentions match

Of the patterns that mentions are looked for with, these are the parts that matter for taking turns.
A path goes past a slash and the name of a file past a dot (`GoesPast`), so no match is empty.  A
path with a drive letter begins with a letter and a path from the root with a slash, so neither is
taken for the punctuation at its end.  A quotation begins and ends with the same mark, and what is
marked in it is all that stands between.
-/

set_option autoImplicit false

namespace ChangeContext

namespace Pattern

variable {p q : Pattern} {r r' : Reached}

/-- Every way of the pattern goes past this character. -/
def GoesPast (p : Pattern) (c : Char) : Prop :=
  ∀ ⦃r r' : Reached⦄, p.Reaches r r' → ∃ cs, c ∈ cs ∧ r.place.Passes cs r'.place

section GoesPast

variable {c : Char}

theorem goesPast_char (c : Char) : (char c).GoesPast c := by
  intro r r' h
  exact ⟨[c], List.mem_singleton_self c, h.of_char.1⟩

theorem GoesPast.left (h : p.GoesPast c) (q : Pattern) : (both p q).GoesPast c := by
  rintro r r' ⟨between, hp, hq⟩
  obtain ⟨cs, hc, hcs⟩ := h hp
  obtain ⟨ds, hds⟩ := hq.exists_passes
  exact ⟨cs ++ ds, List.mem_append_left _ hc, hcs.trans hds⟩

theorem GoesPast.right (h : q.GoesPast c) (p : Pattern) : (both p q).GoesPast c := by
  rintro r r' ⟨between, hp, hq⟩
  obtain ⟨cs, hcs⟩ := hp.exists_passes
  obtain ⟨ds, hc, hds⟩ := h hq
  exact ⟨cs ++ ds, List.mem_append_right _ hc, hcs.trans hds⟩

theorem GoesPast.mem_chars (h : p.GoesPast c) {text : List Char} {m : Match}
    (hm : p.Matches text m) : c ∈ m.whole.chars := by
  obtain ⟨place, r, -, hr, rfl⟩ := hm
  obtain ⟨cs, hc, hcs⟩ := h hr
  rwa [hcs.chars_until]

end GoesPast

end Pattern

namespace Mention

open Pattern

variable {r r' : Reached} {text : List Char} {m : Match}

/-! ## Names of files -/

theorem goesPast_namePattern : namePattern.GoesPast '.' :=
  (((goesPast_char '.').left _).right _).right _

theorem goesPast_relativePath : relativePath.GoesPast '.' :=
  (goesPast_namePattern.right _).right _

theorem goesPast_bareName : bareName.GoesPast '.' :=
  goesPast_namePattern.right _

/-! ## Absolute paths -/

theorem goesPast_drivePath : drivePath.GoesPast '\\' :=
  (((goesPast_char '\\').right (.char ':')).left _).right _

theorem chars_of_drivePath (h : drivePath.Matches text m) :
    ∃ c cs, m.whole.chars = c :: cs ∧ isLetter c = true := by
  obtain ⟨place, r, -, hr, rfl⟩ := h
  obtain ⟨c, cs, hc, hcs⟩ := Reaches.exists_passes_cons hr
  exact ⟨c, cs, hcs.chars_until, hc⟩

/-- What is marked as a path from the root is the end of the match. -/
theorem group_of_rootedPath (h : rootedPath.Matches text m) :
    ∃ s, m.group? 1 = some s ∧ s.In text ∧ m.whole.start ≤ s.start ∧ s.stop = m.whole.stop ∧
      ∃ cs, s.chars = '/' :: cs := by
  obtain ⟨place, r, hplace, ⟨between, hfirst, inner, hinner, rfl⟩, rfl⟩ := h
  obtain ⟨ds, hds⟩ := hfirst.exists_passes
  obtain ⟨c, cs, hc, hcs⟩ := Reaches.exists_passes_cons hinner
  obtain rfl : c = '/' := by simpa using hc
  exact ⟨between.place.until inner.place, rfl, (hplace.passes hds).until_in hcs, hds.offset_le, rfl,
    cs, hcs.chars_until⟩

/-! ## Quotations -/

/-- The quotation marks. -/
def marks : List Char :=
  ['\x60', '"', '\'']

/-- The match is a quotation: these characters, in this stretch, between two of the same marks. -/
structure Quotes (m : Match) (inner : Span) (mark : Char) : Prop where
  mem : mark ∈ marks
  group : m.firstGroup? [1, 2, 3] = some inner
  chars : m.whole.chars = mark :: inner.chars ++ [mark]
  ne_nil : inner.chars ≠ []

theorem quotes_of_between {mark : Char} {group : Nat} (hmark : mark ∈ marks)
    (hgroup : group ∈ [1, 2, 3]) {place : Place}
    (h : (between mark group).Reaches ⟨place, []⟩ r) :
    ∃ inner, Quotes ⟨place.until r.place, r.marks⟩ inner mark := by
  obtain ⟨first, hfirst, last, ⟨inner, hinner, rfl⟩, hlast⟩ := h
  obtain ⟨hopen, hmarks⟩ := hfirst.of_char
  obtain ⟨cs, hne, -, hcs, hmarks'⟩ := hinner.of_run1
  obtain ⟨hclose, hmarks''⟩ := hlast.of_char
  rw [hmarks', hmarks] at hmarks''
  refine ⟨first.place.until inner.place, hmark, ?_, ?_, by rwa [hcs.chars_until]⟩
  · simp only [Match.firstGroup?, hmarks'']
    simp only [List.mem_cons, List.not_mem_nil, or_false] at hgroup
    rcases hgroup with rfl | rfl | rfl <;> rfl
  · rw [hcs.chars_until, ((hopen.trans hcs).trans hclose).chars_until]
    rfl

/-- **A quotation has the same mark at both ends, and what is marked is all that is between.** -/
theorem quotes_of_quotation (h : quotation.Matches text m) : ∃ inner mark, Quotes m inner mark := by
  obtain ⟨place, r, hplace, hr, rfl⟩ := h
  rcases hr with h | h | h
  · obtain ⟨inner, hquotes⟩ := quotes_of_between (by decide) (by decide) h
    exact ⟨inner, _, hquotes⟩
  · obtain ⟨inner, hquotes⟩ := quotes_of_between (by decide) (by decide) h
    exact ⟨inner, _, hquotes⟩
  · obtain ⟨inner, hquotes⟩ := quotes_of_between (by decide) (by decide) h
    exact ⟨inner, _, hquotes⟩

/-! ## Stretches of a shape -/

namespace Shape

/-- Candidates of this shape do not have the punctuation at the end of their stretches. -/
def trims : Shape → Bool
  | drive | rooted => true
  | _ => false

/-- The stretches of a text that a pattern finds, quotations aside. -/
def spans (cs : List Char) : Shape → List Span
  | drive => (drivePath.findAll cs).map (·.whole)
  | rooted => (rootedPath.findAll cs).filterMap (·.group? 1)
  | quoted => []
  | relative => (relativePath.findAll cs).map (·.whole)
  | bare => (bareName.findAll cs).map (·.whole)

/-- The candidate for a stretch. -/
def candidate (shape : Shape) (s : Span) : Candidate :=
  if shape.trims then coveringTrimmed shape s else covering shape s

end Shape

section Spans

variable {cs : List Char} {shape : Shape} {s : Span}

theorem isPunctuation_eq_false_of_isLetter {c : Char} (h : isLetter c = true) :
    isPunctuation c = false := by
  have hne (d : Char) (hd : isLetter d = false) : c ≠ d := by
    rintro rfl
    rw [h] at hd
    exact Bool.noConfusion hd
  simp [isPunctuation, hne '.' (by decide), hne ',' (by decide), hne ';' (by decide),
    hne ':' (by decide)]

/-- **A stretch lies in the text and is not empty, and an absolute path does not begin with
punctuation.** -/
theorem in_of_mem_spans (h : s ∈ shape.spans cs) :
    s.In cs ∧ ∃ c rest, s.chars = c :: rest ∧ (shape.trims = true → isPunctuation c = false) := by
  have hwhole {p : Pattern} (hp : p.GoesPast '.') {m : Match} (hm : m ∈ p.findAll cs) :
      m.whole.In cs ∧ ∃ c rest, m.whole.chars = c :: rest :=
    ⟨(Pattern.matches_of_mem_findAll hm).whole_in, List.exists_cons_of_ne_nil
      (List.ne_nil_of_mem (hp.mem_chars (Pattern.matches_of_mem_findAll hm)))⟩
  cases shape with
  | drive =>
    obtain ⟨m, hm, rfl⟩ := List.mem_map.1 h
    obtain ⟨c, rest, hchars, hc⟩ := chars_of_drivePath (Pattern.matches_of_mem_findAll hm)
    exact ⟨(Pattern.matches_of_mem_findAll hm).whole_in, c, rest, hchars,
      fun _ ↦ isPunctuation_eq_false_of_isLetter hc⟩
  | rooted =>
    obtain ⟨m, hm, hgroup⟩ := List.mem_filterMap.1 h
    obtain ⟨s', hs', hin, -, -, rest, hchars⟩ :=
      group_of_rootedPath (Pattern.matches_of_mem_findAll hm)
    obtain rfl : s' = s := Option.some_inj.1 (hs'.symm.trans hgroup)
    exact ⟨hin, '/', rest, hchars, fun _ ↦ by decide⟩
  | quoted => simp [Shape.spans] at h
  | relative =>
    obtain ⟨m, hm, rfl⟩ := List.mem_map.1 h
    obtain ⟨hin, c, rest, hchars⟩ := hwhole goesPast_relativePath hm
    exact ⟨hin, c, rest, hchars, by simp [Shape.trims]⟩
  | bare =>
    obtain ⟨m, hm, rfl⟩ := List.mem_map.1 h
    obtain ⟨hin, c, rest, hchars⟩ := hwhole goesPast_bareName hm
    exact ⟨hin, c, rest, hchars, by simp [Shape.trims]⟩

/-- **The stretches of a shape follow one another.** -/
theorem pairwise_spans (cs : List Char) (shape : Shape) :
    (shape.spans cs).Pairwise fun s s' ↦ s.stop ≤ s'.start := by
  have hwhole (p : Pattern) : ((p.findAll cs).map (·.whole)).Pairwise fun s s' ↦ s.stop ≤ s'.start :=
    List.pairwise_map.2 (Pattern.pairwise_findAll p cs)
  cases shape with
  | drive => exact hwhole drivePath
  | rooted =>
    -- the marked stretch is the end of the match, so it lies behind whatever the match lies behind
    refine List.pairwise_filterMap.2 ((Pattern.pairwise_findAll rootedPath cs).imp_of_mem ?_)
    intro m m' hm hm' hprecedes s hs s' hs'
    obtain ⟨_, hgroup, -, -, hstop, -⟩ := group_of_rootedPath (Pattern.matches_of_mem_findAll hm)
    obtain ⟨_, hgroup', -, hstart, -, -⟩ := group_of_rootedPath (Pattern.matches_of_mem_findAll hm')
    obtain rfl := Option.some_inj.1 (hgroup.symm.trans hs)
    obtain rfl := Option.some_inj.1 (hgroup'.symm.trans hs')
    exact Nat.le_trans (Nat.le_of_eq hstop) (Nat.le_trans hprecedes hstart)
  | quoted => exact .nil
  | relative => exact hwhole relativePath
  | bare => exact hwhole bareName

end Spans

/-! ## The candidate for a stretch -/

/-- What is left and what is dropped at the end make up the whole. -/
theorem exists_trimEndWhile_append (drops : Char → Bool) (cs : List Char) :
    ∃ tail, cs = Text.trimEndWhile drops cs ++ tail ∧ (∀ c ∈ tail, drops c = true) ∧
      ∀ c ∈ (Text.trimEndWhile drops cs).getLast?, drops c = false := by
  refine ⟨(cs.reverse.takeWhile drops).reverse, ?_, fun c hc ↦ ?_, fun c hc ↦ ?_⟩
  · rw [Text.trimEndWhile, ← List.reverse_append, List.takeWhile_append_dropWhile,
      List.reverse_reverse]
  · exact List.all_eq_true.1 List.all_takeWhile c (List.mem_reverse.1 hc)
  · rw [Text.trimEndWhile, List.getLast?_reverse] at hc
    have hhead := List.head?_dropWhile_not drops cs.reverse
    rwa [hc] at hhead

/-- The candidate covers the stretch, up to the punctuation at its end if this is not taken. -/
structure Covers (shape : Shape) (s : Span) (c : Candidate) : Prop where
  shape_eq : c.shape = shape
  start_eq : c.start = s.start
  chars : ∃ tail, s.chars = c.text.toList ++ tail ∧ s.stop = c.stop + tail.length ∧
    (∀ d ∈ tail, shape.trims = true ∧ isPunctuation d = true) ∧
    ∀ d ∈ c.text.toList.getLast?, shape.trims = true → isPunctuation d = false

theorem covers_candidate {cs : List Char} (shape : Shape) {s : Span} (h : s.In cs) :
    Covers shape s (shape.candidate s) := by
  have hlength := h.length_chars
  have hle := h.start_le
  rw [Shape.candidate]
  split
  next htrims =>
    obtain ⟨tail, hchars, htail, hlast⟩ := exists_trimEndWhile_append isPunctuation s.chars
    refine ⟨rfl, rfl, tail, by simpa [coveringTrimmed] using hchars, ?_,
      fun d hd ↦ ⟨htrims, htail d hd⟩, by simpa [coveringTrimmed] using fun d hd _ ↦ hlast d hd⟩
    have hsum := congrArg List.length hchars
    rw [List.length_append] at hsum
    simp only [coveringTrimmed]
    omega
  next htrims =>
    exact ⟨rfl, rfl, [], by simp [covering, Span.text], rfl, by simp, by simp [htrims]⟩

end Mention

end ChangeContext
