import ChangeContext.Proofs.Mention.Extraction
import ChangeContext.Proofs.Pattern.Scan
import ChangeContext.Proofs.Text.Digits

/-!
# Paths between backticks

Whatever shape a candidate has, there is a dot or a slash in it, since each of the patterns goes past
one and trimming takes no slash away (`exists_isPathMark_of_mem_candidates`).  So if all dots and
slashes of a text stand between two backticks, each candidate has a character in common with this
quotation (`Backticked.not_apart`).  The quotation is a candidate itself: the search for quotations
comes to it first, unless a quotation mark stands before it.  Candidates have no characters in
common, so there is no other, and the path between the backticks is the only mention, just as it
stands (`ofText_backticks`).
-/

set_option autoImplicit false

namespace ChangeContext

namespace Mention

/-! ## What makes a path -/

/-- A dot, or a slash of either kind. -/
def isPathMark (c : Char) : Bool :=
  c == '.' || c == '/' || c == '\\'

theorem exists_isPathMark_of_looksLikePath {s : String} (h : looksLikePath s = true) :
    ∃ c ∈ s.toList, isPathMark c = true := by
  rw [looksLikePath] at h
  split at h
  next hslash =>
    rw [Bool.or_eq_true, List.contains_iff_mem, List.contains_iff_mem] at hslash
    rcases hslash with hslash | hslash
    · exact ⟨'/', hslash, by decide⟩
    · exact ⟨'\\', hslash, by decide⟩
  next =>
    split at h
    next rest htail =>
      have hdot : '.' ∈ s.toList.reverse.dropWhile (· ≠ '.') := htail ▸ List.mem_cons_self
      exact ⟨'.', List.mem_reverse.1 ((List.dropWhile_sublist _).subset hdot), by decide⟩
    next => exact absurd h Bool.false_ne_true

section Candidates

variable {text : String} {cs : List Char} {shape : Shape} {s : Span} {c : Candidate}

/-- A stretch has a mark of a path that is not trimmed away. -/
theorem exists_isPathMark_of_mem_spans (h : s ∈ shape.spans cs) :
    ∃ ch ∈ s.chars, isPathMark ch = true ∧ (shape.trims = true → isPunctuation ch = false) := by
  cases shape with
  | drive =>
    obtain ⟨m, hm, rfl⟩ := List.mem_map.1 h
    exact ⟨'\\', goesPast_drivePath.mem_chars (Pattern.matches_of_mem_findAll hm), by decide⟩
  | rooted =>
    obtain ⟨m, hm, hgroup⟩ := List.mem_filterMap.1 h
    obtain ⟨s', hs', -, -, -, rest, hchars⟩ :=
      group_of_rootedPath (Pattern.matches_of_mem_findAll hm)
    obtain rfl : s' = s := Option.some_inj.1 (hs'.symm.trans hgroup)
    exact ⟨'/', by simp [hchars], by decide⟩
  | quoted => exact absurd h List.not_mem_nil
  | relative =>
    obtain ⟨m, hm, rfl⟩ := List.mem_map.1 h
    exact ⟨'.', goesPast_relativePath.mem_chars (Pattern.matches_of_mem_findAll hm), by decide⟩
  | bare =>
    obtain ⟨m, hm, rfl⟩ := List.mem_map.1 h
    exact ⟨'.', goesPast_bareName.mem_chars (Pattern.matches_of_mem_findAll hm), by decide⟩

/-- **There is a dot or a slash in every candidate.** -/
theorem exists_isPathMark_of_mem_candidates (h : c ∈ candidates text) :
    ∃ ch ∈ c.text.toList, isPathMark ch = true := by
  by_cases hshape : c.shape = .quoted
  · obtain ⟨m, -, inner, mark, -, hpath, rfl⟩ :=
      mem_quotations_iff.1 (mem_quotations_of_mem_candidates.2 ⟨h, hshape⟩)
    exact exists_isPathMark_of_looksLikePath hpath
  · obtain ⟨s, hs, heq⟩ := exists_span_of_mem_candidates h hshape
    obtain ⟨ch, hch, hmark, hkept⟩ := exists_isPathMark_of_mem_spans hs
    obtain ⟨-, -, tail, hchars, -, htail, -⟩ := covers_candidate c.shape (in_of_mem_spans hs).1
    rw [← heq] at hchars
    rw [hchars] at hch
    rcases List.mem_append.1 hch with hch | hch
    · exact ⟨ch, hch, hmark⟩
    · obtain ⟨htrims, hpunctuation⟩ := htail ch hch
      rw [hkept htrims] at hpunctuation
      exact absurd hpunctuation Bool.false_ne_true

end Candidates

/-! ## The quotation -/

/-- Characters of a text that stand before a piece of it or behind it. -/
theorem mem_or_mem_of_mem_take_drop {front piece back : List Char} {start stop : Nat} {c : Char}
    (hapart : stop ≤ front.length ∨ (front ++ piece).length ≤ start)
    (h : c ∈ ((front ++ piece ++ back).drop start).take (stop - start)) : c ∈ front ∨ c ∈ back := by
  rcases hapart with hbefore | hbehind
  · rw [← List.drop_take, List.append_assoc, List.take_append_of_le_length hbefore] at h
    exact .inl (List.mem_of_mem_take (List.mem_of_mem_drop h))
  · rw [List.drop_append, List.drop_of_length_le hbehind, List.nil_append] at h
    exact .inr (List.mem_of_mem_drop (List.mem_of_mem_take h))

section Between

variable {α : Type} {mark : Char} {group : Nat} {groups : List (Nat × Span)}
  {after : Reached → Option α} {a : α} {before ahead cs rest : List Char}

theorem of_fits_between
    (h : (between mark group).fits ⟨.between before ahead, groups⟩ after = some a) :
    ∃ cs rest span, ahead = mark :: (cs ++ mark :: rest) ∧ (∀ c ∈ cs, c ≠ mark) ∧
      span.chars = cs ∧
      after ⟨.between (mark :: (cs.reverse ++ mark :: before)) rest, (group, span) :: groups⟩ =
        some a := by
  simp only [between, Pattern.fits_seq_cons, Pattern.fits_mark, Pattern.fits_seq_nil] at h
  obtain ⟨_, rfl, hinside⟩ := Pattern.of_fits_char h
  obtain ⟨cs, _, rfl, -, hcs, hclose⟩ := Pattern.of_fits_run1 hinside
  obtain ⟨rest, rfl, hafter⟩ := Pattern.of_fits_char hclose
  refine ⟨cs, rest, _, rfl, fun c hc ↦ ?_, Place.chars_until_between, hafter⟩
  have haccepts := hcs c hc
  rw [Bool.and_eq_true, bne_iff_ne] at haccepts
  exact haccepts.1

theorem isSome_fits_between (hne : cs ≠ [])
    (hcs : ∀ c ∈ cs, c ≠ mark ∧ Text.isBlank c = false)
    (h : ∀ span, (after ⟨.between (mark :: (cs.reverse ++ mark :: before)) rest,
      (group, span) :: groups⟩).isSome = true) :
    ((between mark group).fits ⟨.between before (mark :: (cs ++ mark :: rest)), groups⟩
      after).isSome = true := by
  have haccepts : ∀ c ∈ cs, (c != mark && !Text.isBlank c) = true := by
    intro c hc
    simp [hcs c hc]
  simp only [between, Pattern.fits_seq_cons, Pattern.fits_mark, Pattern.fits_seq_nil]
  exact Pattern.isSome_fits_char (Pattern.isSome_fits_run1 hne haccepts
    (Pattern.isSome_fits_char (h _)))

end Between

section Backticks

variable {before ahead inner rest : List Char} {m : Match} {stop : Place}

/-- Where the pattern for quotations fits, one of its three forms does. -/
theorem exists_fits_of_matchAt? (h : quotation.matchAt? (.between before ahead) = some (m, stop)) :
    ∃ mark group cs rest span, (mark, group) ∈ marks.zip [1, 2, 3] ∧
      ahead = mark :: (cs ++ mark :: rest) ∧ (∀ c ∈ cs, c ≠ mark) ∧ span.chars = cs ∧
      m = ⟨(Place.between before ahead).until
        (.between (mark :: (cs.reverse ++ mark :: before)) rest), [(group, span)]⟩ ∧
      stop = .between (mark :: (cs.reverse ++ mark :: before)) rest := by
  obtain ⟨p, hp, hfits⟩ := Pattern.of_fits_oneOf (List.cons_ne_nil _ _) h
  have hform : ∃ mark group, (mark, group) ∈ marks.zip [1, 2, 3] ∧ p = between mark group := by
    simp only [List.mem_cons, List.not_mem_nil, or_false] at hp
    rcases hp with rfl | rfl | rfl
    · exact ⟨'\x60', 1, by decide, rfl⟩
    · exact ⟨'"', 2, by decide, rfl⟩
    · exact ⟨'\'', 3, by decide, rfl⟩
  obtain ⟨mark, group, hmem, rfl⟩ := hform
  obtain ⟨cs, rest, span, hahead, hcs, hspan, hsome⟩ := of_fits_between hfits
  obtain ⟨hm, hstop⟩ := Prod.mk.inj (Option.some_inj.1 hsome)
  exact ⟨mark, group, cs, rest, span, hmem, hahead, hcs, hspan, hm.symm, hstop.symm⟩

/-- A quotation begins with a quotation mark. -/
theorem opens_quotation : quotation.Opens fun c ↦ marks.contains c := by
  intro before ahead hsome
  obtain ⟨⟨m, stop⟩, h⟩ := Option.isSome_iff_exists.1 hsome
  obtain ⟨mark, group, cs, rest, span, hmem, rfl, -⟩ := exists_fits_of_matchAt? h
  simpa using (List.of_mem_zip hmem).1

/-- The match is a quotation that begins here, with these characters between its marks. -/
structure QuotesAt (start : Nat) (inner : List Char) (m : Match) : Prop where
  start_eq : m.whole.start = start
  stop_eq : m.whole.stop = start + inner.length + 2
  group : ∃ span, m.firstGroup? [1, 2, 3] = some span ∧ span.chars = inner

/-- What stands between two backticks is quoted as a whole. -/
theorem quotesAt_of_matchAt? (hinner : ∀ c ∈ inner, c ≠ '\x60')
    (h : quotation.matchAt? (.between before ('\x60' :: (inner ++ '\x60' :: rest))) =
      some (m, stop)) : stop.ahead = rest ∧ QuotesAt before.length inner m := by
  obtain ⟨mark, group, cs, rest', span, hmem, hahead, hcs, hspan, rfl, rfl⟩ :=
    exists_fits_of_matchAt? h
  obtain ⟨rfl, hbehind⟩ := List.cons.inj hahead
  obtain ⟨rfl, -, rfl⟩ := Text.append_cons_inj (· ≠ '\x60') (by simpa using hinner) (by decide)
    (by simpa using hcs) (by decide) hbehind
  have hgroup : group = 1 := by
    simp only [marks, List.zip_cons_cons, List.zip_nil_right, List.mem_cons, Prod.mk.injEq] at hmem
    simpa using hmem
  refine ⟨rfl, rfl, ?_, span, ?_, hspan⟩
  · simp only [Place.until, Place.between, List.length_cons, List.length_append, List.length_reverse]
    omega
  · rw [hgroup]
    rfl

/-- The search finds what stands between backticks first. -/
theorem exists_scan_backticks (before rest : List Char) (hne : inner ≠ [])
    (hinner : ∀ c ∈ inner, c ≠ '\x60' ∧ Text.isBlank c = false) :
    ∃ m ms, quotation.scan before ('\x60' :: (inner ++ '\x60' :: rest)) = m :: ms ∧
      QuotesAt before.length inner m := by
  have hpiece : '\x60' :: (inner ++ '\x60' :: rest) = '\x60' :: inner ++ ['\x60'] ++ rest := by simp
  have hsome : (quotation.matchAt?
      (.between before ('\x60' :: (inner ++ '\x60' :: rest)))).isSome = true :=
    Pattern.isSome_fits_oneOf List.mem_cons_self (isSome_fits_between hne hinner fun _ ↦ rfl)
  have hmatch : ∀ m stop, quotation.matchAt?
      (.between before ('\x60' :: (inner ++ '\x60' :: rest))) = some (m, stop) →
      stop.ahead = rest ∧ QuotesAt before.length inner m :=
    fun m stop ↦ quotesAt_of_matchAt? fun c hc ↦ (hinner c hc).1
  rw [hpiece] at hsome hmatch ⊢
  obtain ⟨m, hm, hscan⟩ := Pattern.exists_scan_eq_cons (by simp) hsome hmatch
  exact ⟨m, _, hscan, hm⟩

end Backticks

/-! ## The only candidate -/

/-- All dots and slashes of a text stand between two backticks, and so does what makes a path of
them; no quotation mark stands before. -/
structure Backticked (front inner back : String) : Prop where
  front_plain : ∀ c ∈ front.toList, isPathMark c = false ∧ c ∉ marks
  inner_whole : ∀ c ∈ inner.toList, c ≠ '\x60' ∧ Text.isBlank c = false
  inner_path : looksLikePath inner = true
  back_plain : ∀ c ∈ back.toList, isPathMark c = false

/-- The text with the backticks. -/
def backticks (front inner back : String) : String :=
  front ++ "\x60" ++ inner ++ "\x60" ++ back

/-- The candidate that the quotation makes. -/
def backtickCandidate (front inner : String) : Candidate :=
  ⟨.quoted, front.length, front.length + inner.length + 2, inner⟩

section Backticked

variable {front inner back : String}

theorem toList_backticks (front inner back : String) : (backticks front inner back).toList =
    front.toList ++ ('\x60' :: inner.toList ++ ['\x60']) ++ back.toList := by
  simp [backticks]

/-- Outside the quotation there is no mark of a path. -/
theorem Backticked.isPathMark_eq_false (h : Backticked front inner back) {start stop : Nat}
    (hapart : stop ≤ (backtickCandidate front inner).start ∨
      (backtickCandidate front inner).stop ≤ start) :
    ∀ c ∈ ((backticks front inner back).toList.drop start).take (stop - start),
      isPathMark c = false := by
  intro c hc
  rw [toList_backticks] at hc
  have hlength : (front.toList ++ ('\x60' :: inner.toList ++ ['\x60'])).length =
      (backtickCandidate front inner).stop := by
    simp [backtickCandidate, Nat.add_assoc, String.length_toList]
  have hstart : front.toList.length = (backtickCandidate front inner).start :=
    String.length_toList
  rw [← hlength, ← hstart] at hapart
  rcases mem_or_mem_of_mem_take_drop hapart hc with hc | hc
  · exact (h.front_plain c hc).1
  · exact h.back_plain c hc

/-- The search for quotations finds this one first. -/
theorem Backticked.exists_findAll (h : Backticked front inner back) :
    ∃ m ms, quotation.findAll (backticks front inner back).toList = m :: ms ∧
      QuotesAt front.length inner.toList m := by
  have hne : inner.toList ≠ [] := by
    obtain ⟨c, hc, -⟩ := exists_isPathMark_of_looksLikePath h.inner_path
    exact List.ne_nil_of_mem hc
  have hskips : quotation.Skips front.toList ('\x60' :: (inner.toList ++ '\x60' :: back.toList)) :=
    opens_quotation.skips fun c hc ↦ by simpa using (h.front_plain c hc).2
  have hlength : front.toList.reverse.length = front.length := by
    rw [List.length_reverse, String.length_toList]
  have hpiece : (backticks front inner back).toList =
      front.toList ++ '\x60' :: (inner.toList ++ '\x60' :: back.toList) := by
    simp [toList_backticks]
  rw [Pattern.findAll_eq_scan, hpiece, hskips [], List.append_nil, ← hlength]
  exact exists_scan_backticks _ _ hne h.inner_whole

/-- The quotation is a candidate. -/
theorem Backticked.mem_candidates (h : Backticked front inner back) :
    backtickCandidate front inner ∈ candidates (backticks front inner back) := by
  obtain ⟨m, ms, hfind, hm⟩ := h.exists_findAll
  obtain ⟨span, hgroup, hspan⟩ := hm.group
  have hmem : m ∈ quotation.findAll (backticks front inner back).toList :=
    hfind ▸ List.mem_cons_self
  obtain ⟨span', mark, hquotes⟩ := quotes_of_quotation (Pattern.matches_of_mem_findAll hmem)
  obtain rfl : span = span' := Option.some_inj.1 (hgroup.symm.trans hquotes.group)
  have htext : span.text = inner := by rw [Span.text, hspan, String.ofList_toList]
  refine (mem_quotations_of_mem_candidates.1 (mem_quotations_iff.2
    ⟨m, hmem, span, mark, hquotes, htext ▸ h.inner_path, ?_⟩)).1
  rw [backtickCandidate, hm.start_eq, hm.stop_eq, htext, String.length_toList]

/-- **Every candidate has a character in common with the quotation.** -/
theorem Backticked.not_apart (h : Backticked front inner back) {c : Candidate}
    (hc : c ∈ candidates (backticks front inner back)) :
    ¬ c.Apart (backtickCandidate front inner) := by
  intro hapart
  obtain ⟨ch, hch, hmark⟩ := exists_isPathMark_of_mem_candidates hc
  have hplain := h.isPathMark_eq_false hapart ch
    ((reads_of_mem_candidates hc).mem_of_mem_text hch)
  exact Bool.false_ne_true (hplain.symm.trans hmark)

/-- **The quotation is the only candidate.** -/
theorem Backticked.candidates_eq (h : Backticked front inner back) :
    candidates (backticks front inner back) = [backtickCandidate front inner] := by
  obtain ⟨before, after, heq⟩ := List.append_of_mem h.mem_candidates
  have hpairwise := pairwise_apart_candidates (backticks front inner back)
  have hnot : ∀ c ∈ before ++ backtickCandidate front inner :: after,
      ¬ c.Apart (backtickCandidate front inner) := fun c hc ↦ h.not_apart (heq ▸ hc)
  rw [heq, List.pairwise_append] at hpairwise
  obtain ⟨-, hafter, hbefore⟩ := hpairwise
  have hbefore_nil : before = [] := List.eq_nil_iff_forall_not_mem.2 fun c hc ↦
    hnot c (List.mem_append_left _ hc) (hbefore c hc _ List.mem_cons_self)
  have hafter_nil : after = [] := List.eq_nil_iff_forall_not_mem.2 fun c hc ↦
    hnot c (List.mem_append_right _ (List.mem_cons_of_mem _ hc))
      ((List.pairwise_cons.1 hafter).1 c hc).symm
  rw [heq, hbefore_nil, hafter_nil, List.nil_append]

end Backticked

/-- **A path between backticks is the only mention, and its wording is what stands between them**, if
there is no dot, slash or quotation mark before them and no dot or slash behind. -/
theorem ofText_backticks (t : FileTree) (root : Path) (ignored : List String)
    {front inner back : String}
    (hfront : ∀ c ∈ front.toList, isPathMark c = false ∧ c ∉ marks)
    (hinner : ∀ c ∈ inner.toList, c ≠ '\x60' ∧ Text.isBlank c = false)
    (hpath : looksLikePath inner = true)
    (hback : ∀ c ∈ back.toList, isPathMark c = false) :
    ∃ m, ofText t root ignored (front ++ "\x60" ++ inner ++ "\x60" ++ back) = [m] ∧
      m.wording = inner := by
  have h : Backticked front inner back := ⟨hfront, hinner, hpath, hback⟩
  refine ⟨ofCandidate t root ignored (backtickCandidate front inner), ?_, rfl⟩
  rw [ofText, show front ++ "\x60" ++ inner ++ "\x60" ++ back = backticks front inner back from rfl,
    h.candidates_eq]
  rfl

/-- Quotation marks and names in the path do not make mentions of their own. -/
theorem ofText_backticks_marksInside :
    ∃ m, ofText (.bare []) ⟨"/p"⟩ [] ("note: " ++ "\x60" ++ "C:\\it's/\"my.ts\"/a.b" ++ "\x60" ++
        " and \"more\" of \x60it") = [m] ∧
      m.wording = "C:\\it's/\"my.ts\"/a.b" :=
  ofText_backticks (.bare []) ⟨"/p"⟩ [] (by decide +kernel) (by decide +kernel) (by decide +kernel)
    (by decide +kernel)

end Mention

end ChangeContext
