import ChangeContext.Proofs.Outline.DefaultReadings
import ChangeContext.Proofs.Outline.Description
import ChangeContext.Proofs.Outline.ExportDeclarations

/-!
# Default exports without a name

A source that exports a value without a name as its default exports nothing else, and its tree says so
whatever the value is.  By pattern the default export is found in each of these sources, too
(`exists_findAll_defaultExportWords`), but it counts only where no declaration with a name is found.  The
pattern for declarations asks no more of a name than that it looks like one and stands behind the word for
functions or classes.  Behind the word for functions there is nothing like that, and behind the word for
classes there is the keyword before the superclass, if the class has one.  So a class that extends another
is exported under that keyword, and every other value as the default (`exports_defaultExport`).
-/

set_option autoImplicit false

namespace ChangeContext

namespace Outline

open Rules Pattern
open Place (between)

/-! ## The characters of names -/

/-- What ends a name for the grammar ends it for the patterns. -/
theorem isNameRest_of_script {c : Char} (h : Script.isNameRest c = false) :
    isNameRest c = false := by
  have hcontrol : ∀ n ≤ 0x20, isNameRest (Char.ofNat n) = false := by decide +kernel
  have hmarks : ∀ c ∈ ":;\x60\"'@#.,|^&<=>+-*/\\%?!~()[]\x7b\x7d".toList, isNameRest c = false := by
    decide +kernel
  simp only [Script.isNameRest, Script.isNameStart, Script.isBlank, Script.isLineBreak,
    Bool.or_eq_false_iff, Bool.and_eq_false_iff, Bool.not_eq_false', decide_eq_false_iff_not,
    Bool.or_eq_true, beq_iff_eq, List.contains_iff_mem] at h
  obtain ⟨hstart | hmem, hnone⟩ := h
  · rcases hstart with ((hle | hdigit) | ((hblank | rfl) | rfl) | rfl) | (rfl | rfl) | rfl
    · simpa using hcontrol c.toNat (by omega)
    · rw [hnone] at hdigit
      exact absurd hdigit Bool.false_ne_true
    · exact isNameRest_of_isBlank hblank
    -- what is left are the blanks and line breaks that are given one by one
    all_goals decide +kernel
  · exact hmarks c hmem

theorem stops_of_nameEnds {cs : List Char} (h : Script.NameEnds cs) : Text.Stops isNameRest cs :=
  fun c hc ↦ isNameRest_of_script (Bool.or_eq_false_iff.1 (h c hc)).1

namespace BoundName

variable (x : BoundName)

theorem isBlank_eq_false : ∀ c ∈ x.chars, Text.isBlank c = false := by
  intro c hc
  refine Bool.eq_false_iff.2 fun hblank ↦ ?_
  have hrest := x.isName.all c hc
  rw [Script.isNameRest_of_isBlank (by simp [Script.isBlank, hblank])] at hrest
  exact absurd hrest Bool.false_ne_true

theorem ne_brace : ∀ c ∈ x.chars, c ≠ '\x7b' := by
  rintro c hc rfl
  exact absurd (x.isName.all _ hc) (by decide +kernel)

end BoundName

/-! ## What is skipped -/

section Skips

variable {p : Pattern} (h : OpensExport p exportWords) (rest : List Char)

include h

theorem ParameterList.skips (ps : ParameterList) : p.Skips ps.chars (')' :: rest) := by
  have hname (x : BoundName) (b : Blanks) {c : Char} (hc : c ∈ textMarks) (rest : List Char) :
      p.Skips x.chars (b.chars ++ c :: rest) :=
    h.skips_before_mark x.isBlank_eq_false b.all hc rest
  induction ps with
  | done blanks => exact h.skips_blanks blanks.all _
  | last front name back =>
    exact .append (h.skips_blanks front.all _)
      (.append (hname name back (by decide) rest) (h.skips_blanks back.all _))
  | cons front name back more ih =>
    have hmore : p.Skips ([','] ++ more.chars) (')' :: rest) :=
      .append (h.opens.skips (by decide)) ih
    refine .append (h.skips_blanks front.all _) (.append ?_
      (.append (h.skips_blanks back.all _) hmore))
    rw [List.append_assoc]
    exact hname name back (by decide) _

theorem EmptyBody.skips (b : EmptyBody) : p.Skips b.chars rest := by
  have hbraces : p.Skips (['\x7b'] ++ (b.inside.chars ++ ['\x7d'])) rest :=
    .append (h.opens.skips (by decide)) (.append (h.skips_blanks b.inside.all _)
      (h.opens.skips (by decide)))
  exact .append (h.skips_blanks b.before.all _) hbraces

/-- A function is skipped behind its keyword. -/
theorem AnonymousFunction.skips (f : AnonymousFunction) : p.Skips f.chars rest := by
  have hlead (rest : List Char) : p.Skips f.lead rest := by
    refine .append (h.skips_blanks f.front.all _) ?_
    cases f.star with
    | none => exact fun _ ↦ rfl
    | some b =>
      have hstar : p.Skips (['*'] ++ b.chars) rest :=
        .append (h.opens.skips (by decide)) (h.skips_blanks b.all _)
      exact hstar
  have hbehind : p.Skips (['('] ++ (f.parameters.chars ++ ([')'] ++ f.body.chars))) rest :=
    .append (h.opens.skips (by decide)) (.append (f.parameters.skips h _)
      (.append (h.opens.skips (by decide)) (f.body.skips h rest)))
  exact .append (hlead _) hbehind

/-- A superclass and the body behind it are skipped. -/
theorem skips_superclass (g : Heritage) (body : EmptyBody) :
    p.Skips (g.behind.chars ++ (g.name.chars ++ body.chars)) rest := by
  refine .append (h.skips_blanks g.behind.all _) (.append ?_ (body.skips h rest))
  rw [body.chars_append]
  exact h.skips_before_mark g.name.isBlank_eq_false body.before.all (by decide) _

/-- A value without a name is skipped. -/
theorem AnonymousValue.skips (v : AnonymousValue) : p.Skips v.chars rest := by
  have hword : p.Skips v.word.toList (v.tail ++ rest) :=
    h.skips_other ((by decide : ∀ w ∈ ["function", "async", "class"],
      (w.toList.all isIdentifierChar && !"export".toList.isSuffixOf w.toList) = true) _ v.word_mem)
      (stops_of_nameEnds (v.nameEnds rest))
  refine .append hword ?_
  cases v with
  | function f => exact f.skips h rest
  | asyncFunction gap f =>
    refine .append (h.skips_blanks gap.all _) (.append ?_ (f.skips h rest))
    exact h.skips_other (by decide) (stops_of_nameEnds (f.nameEnds rest))
  | «class» heritage body =>
    cases heritage with
    | none => exact body.skips h rest
    | some g =>
      have hextends : p.Skips "extends".toList
          (g.behind.chars ++ (g.name.chars ++ body.chars) ++ rest) := by
        rw [List.append_assoc]
        exact h.skips_other (by decide) (g.behind.stops _)
      have hclass : p.Skips (g.before.chars ++ ("extends".toList ++
          (g.behind.chars ++ (g.name.chars ++ body.chars)))) rest :=
        .append (h.skips_blanks g.before.all _) (hextends.append (skips_superclass h rest g body))
      simpa [AnonymousValue.tail, Heritage.chars] using hclass

theorem Ending.skips (e : Ending) : p.Skips e.chars [] :=
  h.opens.skips fun c hc ↦ beq_eq_false_iff_ne.2 (e.ne (by decide) (by decide) c hc)

theorem DefaultExport.skips_rest (d : DefaultExport) : p.Skips d.rest [] :=
  .append (h.skips_blanks d.behind.all _) (.append (d.value.skips h _) (d.ending.skips h))

end Skips

/-! ## Where the body begins -/

theorem ParameterList.ne_brace (ps : ParameterList) : ∀ c ∈ ps.chars, c ≠ '\x7b' := by
  have hname (front : Blanks) (name : BoundName) (back : Blanks) :
      ∀ c ∈ front.chars ++ (name.chars ++ back.chars), c ≠ '\x7b' := by
    simp only [List.forall_mem_append]
    exact ⟨front.ne (by decide), name.ne_brace, back.ne (by decide)⟩
  induction ps with
  | done blanks => exact blanks.ne (by decide)
  | last front name back => exact hname front name back
  | cons front name back more ih =>
    have hmore := List.forall_mem_append.2 ⟨hname front name back,
      List.forall_mem_cons.2 ⟨(by decide : ',' ≠ '\x7b'), ih⟩⟩
    simpa [chars] using hmore

theorem AnonymousFunction.ne_brace (f : AnonymousFunction) :
    ∀ c ∈ f.lead ++ '(' :: (f.parameters.chars ++ [')']), c ≠ '\x7b' := by
  have hstar : ∀ c ∈ (f.star.map fun b ↦ '*' :: b.chars).getD [], c ≠ '\x7b' := by
    cases f.star with
    | none => exact List.forall_mem_nil _
    | some b => exact List.forall_mem_cons.2 ⟨by decide, b.ne (by decide)⟩
  simp only [lead, List.forall_mem_append, List.forall_mem_cons]
  exact ⟨⟨f.front.ne (by decide), hstar⟩, by decide, f.parameters.ne_brace, by decide,
    List.forall_mem_nil _⟩

/-- A value without a name has no braces but those around its body. -/
theorem AnonymousValue.exists_chars_eq (v : AnonymousValue) :
    ∃ text inside, v.chars = text ++ '\x7b' :: (inside ++ ['\x7d']) ∧
      (∀ c ∈ text, c ≠ '\x7b') ∧ ∀ c ∈ inside, Text.isBlank c = true := by
  have hbody {front cs : List Char} (hfront : ∀ c ∈ front, c ≠ '\x7b') (b : EmptyBody)
      (hcs : cs = front ++ b.chars) : ∃ text inside, cs = text ++ '\x7b' :: (inside ++ ['\x7d']) ∧
        (∀ c ∈ text, c ≠ '\x7b') ∧ ∀ c ∈ inside, Text.isBlank c = true :=
    ⟨front ++ b.before.chars, b.inside.chars, by simp [hcs, EmptyBody.chars],
      List.forall_mem_append.2 ⟨hfront, b.before.ne (by decide)⟩, b.inside.all⟩
  have hfunction (f : AnonymousFunction) : ∀ c ∈ "function".toList ++ (f.lead ++
      '(' :: (f.parameters.chars ++ [')'])), c ≠ '\x7b' :=
    List.forall_mem_append.2 ⟨by decide, f.ne_brace⟩
  cases v with
  | function f =>
    exact hbody (hfunction f) f.body (by simp [chars, word, tail, AnonymousFunction.chars])
  | asyncFunction gap f =>
    have hfront : ∀ c ∈ "async".toList ++ gap.chars, c ≠ '\x7b' :=
      List.forall_mem_append.2 ⟨by decide, gap.ne (by decide)⟩
    exact hbody (List.forall_mem_append.2 ⟨hfront, hfunction f⟩) f.body
      (by simp [chars, word, tail, AnonymousFunction.chars])
  | «class» heritage body =>
    have hheritage : ∀ c ∈ (heritage.map Heritage.chars).getD [], c ≠ '\x7b' := by
      cases heritage with
      | none => exact List.forall_mem_nil _
      | some g =>
        simp only [Option.map_some, Option.getD_some, Heritage.chars, List.forall_mem_append]
        exact ⟨g.before.ne (by decide), by decide, g.behind.ne (by decide), g.name.ne_brace⟩
    exact hbody (List.forall_mem_append.2 ⟨(by decide : ∀ c ∈ "class".toList, c ≠ '\x7b'),
      hheritage⟩) body (by simp [chars, word, tail])

/-! ## Where a declaration is found -/

section Declared

variable (e : Exported) {rest rest' : List Char}

theorem Blanks.isGap (b : Blanks) : ∀ c ∈ b.chars, Rules.isGap c = true :=
  fun c hc ↦ by simp [Rules.isGap, b.all c hc]

/-- A function without a name is not declared. -/
theorem AnonymousFunction.declared_ne (f : AnonymousFunction) :
    e.declared rest' ≠ "function".toList ++ (f.chars ++ rest) := by
  have hlead : ∀ c ∈ f.lead, isGap c = true := by
    rw [lead]
    refine List.forall_mem_append.2 ⟨f.front.isGap, ?_⟩
    cases f.star with
    | none => exact List.forall_mem_nil _
    | some b => exact List.forall_mem_cons.2 ⟨by decide, b.isGap⟩
  rw [f.chars_append]
  exact e.declared_ne (by decide) hlead (by decide)

/-- **Only a class with a superclass is taken for a declaration**, and the keyword before the superclass
for its name. -/
theorem AnonymousValue.eq_of_declared (v : AnonymousValue) (hstops : Text.Stops isNameRest rest')
    (h : e.declared rest' = v.chars ++ rest) :
    ∃ heritage body, v = .class (some heritage) body ∧ e.name = "extends".toList ∧
      rest' = heritage.behind.chars ++ (heritage.name.chars ++ (body.chars ++ rest)) := by
  rw [chars, List.append_assoc] at h
  cases v with
  | function f => exact absurd h (f.declared_ne e)
  | asyncFunction gap f =>
    -- the word for asynchronous functions may stand before a declaration, so it decides nothing
    have hasync : "async" ∈ modifierWords := by decide
    rw [tail_asyncFunction] at h
    obtain ⟨e', -, hdeclared⟩ := e.exists_declared_eq_of_modifier hasync gap.all
      (stops_of_isNameStart (by decide)) h
    exact absurd hdeclared (f.declared_ne e')
  | «class» heritage body =>
    cases heritage with
    | none =>
      have hbody : e.declared rest' =
          "class".toList ++ (body.before.chars ++ '\x7b' :: (body.inside.chars ++ '\x7d' :: rest)) :=
        h.trans (by rw [← body.chars_append]; rfl)
      exact absurd hbody (e.declared_ne (by decide) body.before.isGap (by decide))
    | some g =>
      have htail : e.declared rest' = "class".toList ++ (g.before.chars ++ ("extends".toList ++
          (g.behind.chars ++ (g.name.chars ++ (body.chars ++ rest))))) := by
        simpa [tail, word, Heritage.chars] using h
      obtain ⟨-, hgap⟩ := e.eq_of_declared (by decide) htail
      have hname := eq_of_gap_append e.isGap g.before.isGap (stops_isGap e.isName.head)
        (stops_isGap (by decide)) hgap
      obtain ⟨hextends, hrest⟩ := eq_of_name e.isName.all (isNameRest_of_word (by decide)) hstops
        (g.behind.stops _) hname
      exact ⟨g, body, rfl, hextends, hrest⟩

end Declared

theorem AnonymousValue.eq_class_of_heritage? {v : AnonymousValue} {heritage : Heritage}
    (h : v.heritage? = some heritage) : ∃ body, v = .class (some heritage) body := by
  cases v with
  | function f => exact absurd h (Option.some_ne_none heritage).symm
  | asyncFunction gap f => exact absurd h (Option.some_ne_none heritage).symm
  | «class» heritage' body =>
    obtain rfl : heritage' = some heritage := h
    exact ⟨body, rfl⟩

/-! ## The search -/

namespace DefaultExport

variable (d : DefaultExport)

section

variable {before : List Char} {m : Match} {stop : Place}

/-- Where the pattern for exported declarations fits, a class with a superclass is exported. -/
theorem of_exportDeclaration (h : exportDeclaration.matchAt? (between before
    ("export".toList ++ (d.gap.chars ++ ("default".toList ++ d.rest)))) = some (m, stop)) :
    ∃ heritage body, d.value = .class (some heritage) body ∧ exportOf? m = some "extends" ∧
      stop.ahead = heritage.behind.chars ++
        (heritage.name.chars ++ (body.chars ++ d.ending.chars)) := by
  obtain ⟨e, rest, heq, hstops, hreport, hahead⟩ := Rules.of_exportDeclaration h
  have hbehind := eq_of_blanks_append d.gap.all e.isBlank
    (stops_of_isNameStart isWord_default.head) (e.stops_declared rest) (List.append_cancel_left heq)
  have hvalue : Text.Stops Text.isBlank (d.value.chars ++ d.ending.chars) := by
    rw [AnonymousValue.chars, List.append_assoc]
    exact stops_of_isNameStart d.value.isWord_word.head
  obtain ⟨e', hname, hdeclared'⟩ := e.exists_declared_eq_of_modifier (by decide) d.behind.all
    hvalue hbehind.symm
  obtain ⟨heritage, body, hclass, hextends, rfl⟩ := d.value.eq_of_declared e' hstops hdeclared'
  exact ⟨heritage, body, hclass, by rw [hreport, ← hname, hextends]; rfl, hahead⟩

end

/-- No word stands before the export. -/
theorem not_word : d.front.chars.reverse.head?.any Text.isWordChar = false := by
  have hfront := d.front.not_word
  rwa [List.append_nil] at hfront

/-- The match at the default export ends behind its keyword. -/
theorem exists_scan_defaultExportWords :
    ∃ m, m.whole.start = d.front.chars.length ∧
      defaultExportWords.scan d.front.chars.reverse
          ("export".toList ++ (d.gap.chars ++ "default".toList) ++ d.rest) =
        m :: defaultExportWords.scan
          (("export".toList ++ (d.gap.chars ++ "default".toList)).reverse ++ d.front.chars.reverse)
          d.rest := by
  have htext : "export".toList ++ (d.gap.chars ++ "default".toList) ++ d.rest =
      "export".toList ++ (d.gap.chars ++ ("default".toList ++ d.rest)) := by
    simp
  have hword (rest : List Char) : Text.Stops Text.isBlank ("default".toList ++ rest) :=
    stops_of_isNameStart isWord_default.head
  have hend : d.rest.head?.any Text.isWordChar = false := by
    obtain ⟨c, cs, heq, hc, -⟩ := d.behind.exists_eq_cons
    rw [rest, heq]
    exact isWordChar_of_isBlank hc
  refine exists_scan_eq_cons (by simp) ?_ fun m stop h ↦ ?_
  · rw [htext]
    simp only [matchAt?, defaultExportWords, fits_seq_cons, fits_seq_nil]
    refine isSome_fits_wordEdge (Place.atWordEdge_between d.not_word rfl) (isSome_fits_word
      (isSome_fits_run1 d.gap.ne_nil d.gap.all (isSome_fits_word (isSome_fits_wordEdge ?_ rfl))))
    change (true != d.rest.head?.any Text.isWordChar) = true
    rw [hend]
    rfl
  · refine ⟨?_, (start_of_matchAt? h).trans List.length_reverse⟩
    rw [htext] at h
    obtain ⟨blanks, rest, heq, -, hblanks, hahead⟩ := of_defaultExportWords h
    have hbehind := eq_of_blanks_append d.gap.all hblanks (hword _) (hword _)
      (List.append_cancel_left heq)
    rw [hahead, List.append_cancel_left hbehind]

/-- **The default export is found** where it begins, and nothing else is. -/
theorem exists_findAll_defaultExportWords :
    ∃ m, defaultExportWords.findAll d.chars = [m] ∧ m.whole.start = d.front.chars.length := by
  have h := opensExport_defaultExportWords.mono (by decide : ["default"] ⊆ exportWords)
  obtain ⟨m, hstart, hscan⟩ := d.exists_scan_defaultExportWords
  have hfind := h.opens.findAll_eq_singleton (h.skips_blanks d.front.all _) hscan (d.skips_rest h)
  refine ⟨m, ?_, hstart⟩
  rw [← hfind]
  simp [chars]

/-- Where the value is no class with a superclass, no declaration is found. -/
theorem findAll_exportDeclaration_of_none (hv : d.value.heritage? = none) :
    exportDeclaration.findAll d.chars = [] := by
  have h := opensExport_exportDeclaration
  have hexport : exportDeclaration.Skips "export".toList
      (d.gap.chars ++ ("default".toList ++ d.rest)) := by
    refine h.skips_of_forall_ne_blank (isBlank_of_word (by decide)) (d.gap.stops _) fun _ before ↦ ?_
    by_contra hsome
    obtain ⟨⟨m, stop⟩, hmatch⟩ := Option.ne_none_iff_exists'.1 hsome
    obtain ⟨heritage, body, hclass, -⟩ := d.of_exportDeclaration hmatch
    rw [hclass] at hv
    exact absurd hv (Option.some_ne_none heritage)
  have hdefault : exportDeclaration.Skips ("default".toList ++ d.rest) [] := by
    refine .append (h.skips_other (by decide) ?_) (d.skips_rest h)
    rw [List.append_nil]
    exact d.behind.stops _
  have hskips : exportDeclaration.Skips d.chars [] := by
    refine .append (h.skips_blanks d.front.all _) (.append ?_ (.append (h.skips_blanks d.gap.all _)
      hdefault))
    rw [List.append_nil]
    exact hexport
  exact h.opens.findAll_eq_nil hskips

/-- The match at a class with a superclass ends behind the keyword before the superclass. -/
theorem exists_scan_exportDeclaration {heritage : Heritage} {body : EmptyBody}
    (hv : d.value = .class (some heritage) body) {found behind : List Char}
    (hfound : found = "export".toList ++ (d.gap.chars ++ ("default".toList ++ (d.behind.chars ++
      ("class".toList ++ (heritage.before.chars ++ "extends".toList))))))
    (hbehind : behind = heritage.behind.chars ++
      (heritage.name.chars ++ (body.chars ++ d.ending.chars))) :
    ∃ m, (exportOf? m = some "extends" ∧ m.whole.start = d.front.chars.length) ∧
      exportDeclaration.scan d.front.chars.reverse (found ++ behind) =
        m :: exportDeclaration.scan (found.reverse ++ d.front.chars.reverse) behind := by
  have hrest : d.rest = d.behind.chars ++ ("class".toList ++ (heritage.before.chars ++
      ("extends".toList ++ behind))) := by
    simp [rest, hv, AnonymousValue.chars, AnonymousValue.word, AnonymousValue.tail, Heritage.chars,
      hbehind]
  have htext : found ++ behind =
      "export".toList ++ (d.gap.chars ++ ("default".toList ++ d.rest)) := by
    simp [hfound, hrest]
  refine exists_scan_eq_cons (by simp [hfound]) ?_ fun m stop hmatch ↦ ?_
  · rw [htext, hrest]
    simp only [matchAt?, exportDeclaration, fits_seq_cons, fits_mark, fits_seq_nil]
    exact isSome_fits_wordEdge (Place.atWordEdge_between d.not_word rfl) (isSome_fits_word
      (isSome_fits_run1 d.gap.ne_nil d.gap.all (isSome_fits_maybeWord d.behind.ne_nil d.behind.all
        (isSome_fits_absent (isSome_fits_absent (isSome_fits_absent (isSome_fits_right
          (isSome_fits_left (isSome_fits_word (isSome_fits_run1 heritage.before.ne_nil
            heritage.before.all (isSome_fits_name (by decide) rfl)))))))))))
  · have hstart := (start_of_matchAt? hmatch).trans List.length_reverse
    rw [htext] at hmatch
    obtain ⟨heritage', body', hclass, hreport, hahead⟩ := d.of_exportDeclaration hmatch
    rw [hclass] at hv
    obtain ⟨rfl, rfl⟩ : heritage' = heritage ∧ body' = body := by simpa using hv
    exact ⟨hahead.trans hbehind.symm, hreport, hstart⟩

/-- **The keyword before a superclass is found** as the name of a declaration, where the default export
begins. -/
theorem exists_findAll_exportDeclaration {heritage : Heritage} {body : EmptyBody}
    (hv : d.value = .class (some heritage) body) :
    ∃ m, exportDeclaration.findAll d.chars = [m] ∧ exportOf? m = some "extends" ∧
      m.whole.start = d.front.chars.length := by
  have h := opensExport_exportDeclaration
  obtain ⟨m, ⟨hreport, hstart⟩, hscan⟩ := d.exists_scan_exportDeclaration hv rfl rfl
  have hbehind : exportDeclaration.Skips (heritage.behind.chars ++ (heritage.name.chars ++
      (body.chars ++ d.ending.chars))) [] := by
    have hskips := (skips_superclass h _ heritage body).append (d.ending.skips h)
    simpa using hskips
  have hfind := h.opens.findAll_eq_singleton (h.skips_blanks d.front.all _) hscan hbehind
  refine ⟨m, ?_, hreport, hstart⟩
  rw [← hfind]
  simp [chars, rest, hv, AnonymousValue.chars, AnonymousValue.word, AnonymousValue.tail,
    Heritage.chars]

/-- No name is listed in the export. -/
theorem flatMap_findAll_exportList : (exportList.findAll d.chars).flatMap listedOf = [] := by
  obtain ⟨text, inside, hvalue, htext, hinside⟩ := d.value.exists_chars_eq
  have hblanks (b : Blanks) : ∀ c ∈ b.chars, c ≠ '\x7b' := b.ne (by decide)
  have hfront : ∀ c ∈ d.front.chars ++ ("export".toList ++ (d.gap.chars ++ ("default".toList ++
      (d.behind.chars ++ text)))), c ≠ '\x7b' := by
    simp only [List.forall_mem_append]
    exact ⟨hblanks _, by decide, hblanks _, by decide, hblanks _, htext⟩
  have hending : exportList.Skips d.ending.chars [] := opens_exportList.skips fun c hc ↦
    beq_eq_false_iff_ne.2 (d.ending.ne (by decide) (by decide) c hc)
  have hreports := (reports_braces hfront hinside (d.ending.chars ++ []) []).append_skips hending
  have hchars : d.chars = d.front.chars ++ ("export".toList ++ (d.gap.chars ++ ("default".toList ++
      (d.behind.chars ++ text)))) ++ '\x7b' :: (inside ++ ['\x7d']) ++ d.ending.chars := by
    simp [chars, rest, hvalue]
  rw [hchars]
  exact hreports.flatMap_findAll opens_exportList

/-- The name under which the patterns find the value. -/
def found : String :=
  if d.value.heritage?.isSome then "extends" else "default"

/-- **The names that are found in the export.** -/
theorem exports_heuristic :
    (heuristic d.source "javascript").exports = NameSet.ofNames [d.found] := by
  have htext : d.source.toList = d.chars := String.toList_ofList
  have hrules : ofLanguage "javascript" = script := rfl
  obtain ⟨m, hdefault, hstart⟩ := d.exists_findAll_defaultExportWords
  rw [heuristic, hrules, outline_script, described, htext, d.flatMap_findAll_exportList,
    hasAnonymousDefault, hdefault, exportsBy, found]
  cases hv : d.value.heritage? with
  | none =>
    rw [d.findAll_exportDeclaration_of_none hv]
    rfl
  | some heritage =>
    obtain ⟨body, hclass⟩ := AnonymousValue.eq_class_of_heritage? hv
    obtain ⟨m', hfind, hreport, hstart'⟩ := d.exists_findAll_exportDeclaration hclass
    -- both matches begin in the same place, so the default export does not count
    rw [hfind, List.map_singleton, ← exportOf?, hreport, hstart']
    simp [hstart]

/-- **In the tree every value without a name is the default export, and by pattern every one but a class
with a superclass**, which is taken for a class called `extends`. -/
theorem exports_defaultExport :
    (∃ o, structural? d.source = some o ∧ o.exports = NameSet.ofNames ["default"]) ∧
      (heuristic d.source "javascript").exports = NameSet.ofNames [d.found] ∧
      ((heuristic d.source "javascript").exports = NameSet.ofNames ["default"] ↔
        d.value.heritage? = none) := by
  refine ⟨⟨_, d.structural?_source, rfl⟩, d.exports_heuristic, ?_⟩
  rw [d.exports_heuristic, NameSet.ofNames_eq_iff, found]
  cases d.value.heritage? with
  | none => simp
  | some heritage => simp

/-- A class without a name that extends another. -/
def extendingClass : DefaultExport where
  front := .none
  gap := .single
  behind := .single
  value := .class (some { before := .single, behind := .single, name := { chars := "Base".toList } })
    { before := Gap.single.toBlanks, inside := .none }
  ending := .blanks .feed

/-- The default export is not found. -/
theorem exports_extendingClass :
    extendingClass.source = "export default class extends Base \x7b\x7d\n" ∧
      (structural? extendingClass.source).map (fun o ↦ o.exports.keys) = some ["default"] ∧
      (heuristic extendingClass.source "javascript").exports.keys = ["extends"] := by
  refine ⟨by decide, ?_, ?_⟩
  · rw [structural?_source]
    decide
  · rw [exports_heuristic]
    decide

end DefaultExport

end Outline

end ChangeContext
