import ChangeContext.Proofs.Outline.PatternParts

/-!
# Exported declarations found by their pattern

The pattern for exported declarations, and the one for default exports, begin with the word for
exports, blanks, and one of a few words.  An identifier can end in the first of these words, but in
the common statements nothing that can come behind an identifier begins with one of the others.  So
the first pattern finds the exported declarations of a source and nothing else, and the second finds
nothing.
-/

set_option autoImplicit false

namespace ChangeContext

namespace Outline

namespace Rules

open Pattern
open Place (between)

/-! ## What exports begin with -/

/-- The words before an exported declaration. -/
def modifierWords : List String :=
  ["default", "declare", "abstract", "async"]

/-- The words that an exported declaration begins with. -/
def declarationWords : List String :=
  ["function", "class", "const", "let", "var", "interface", "type", "enum"]

/-- The words that can come behind the word for exports. -/
def exportWords : List String :=
  modifierWords ++ declarationWords

theorem isWord_of_mem_exportWords : ∀ w ∈ exportWords, IsWord w.toList := by
  decide +kernel

/-- None of the words begins another, so which of them a text begins with is known from the text. -/
theorem eq_of_exportWords {w w' : String} (hw : w ∈ exportWords) (hw' : w' ∈ exportWords)
    {rest rest' : List Char} (h : w.toList ++ rest = w'.toList ++ rest') : w = w' ∧ rest = rest' := by
  have hdiffer : ∀ w ∈ exportWords, ∀ w' ∈ exportWords, w = w' ∨
      ((w.toList.zip w'.toList).any fun p ↦ p.1 != p.2) = true := by decide +kernel
  rcases hdiffer w hw w' hw' with rfl | hzip
  · exact ⟨rfl, List.append_cancel_left h⟩
  · exact absurd h (append_ne_append_of_zip hzip _ _)

/-- Blanks stand ahead, and one of the words behind them. -/
def Offers (words : List String) (cs : List Char) : Prop :=
  ∃ blanks w rest, blanks ≠ [] ∧ (∀ c ∈ blanks, Text.isBlank c = true) ∧ w ∈ words ∧
    cs = blanks ++ (w.toList ++ rest)

section Offers

variable {words : List String} {cs rest : List Char}

theorem Offers.mono {words' : List String} (h : Offers words cs) (hwords : words ⊆ words') :
    Offers words' cs := by
  obtain ⟨blanks, w, rest, hne, hblanks, hw, heq⟩ := h
  exact ⟨blanks, w, rest, hne, hblanks, hwords hw, heq⟩

/-- What is offered begins with a blank. -/
theorem Offers.exists_head_isBlank (h : Offers words cs) :
    ∃ c, cs.head? = some c ∧ Text.isBlank c = true := by
  obtain ⟨blanks, w, rest, hne, hblanks, hw, rfl⟩ := h
  obtain ⟨c, blanks, rfl⟩ := List.exists_cons_of_ne_nil hne
  exact ⟨c, rfl, hblanks c List.mem_cons_self⟩

/-- Text that is none of the words behind a blank offers nothing. -/
theorem not_offers_of_zip (hwords : (words.all fun w ↦ w.toList.head?.any isNameStart) = true)
    (hcs : cs.head?.any Text.isBlank = false)
    (h : (words.all fun w ↦ (w.toList.zip cs).any fun p ↦ p.1 != p.2) = true) (hne : cs ≠ []) :
    ¬ Offers words (' ' :: (cs ++ rest)) := by
  rintro ⟨blanks, w, rest', -, hblanks, hw, heq⟩
  obtain ⟨c, cs, rfl⟩ := List.exists_cons_of_ne_nil hne
  have hstops : Text.Stops Text.isBlank (c :: cs ++ rest) := Text.stops_cons (by simpa using hcs)
  have hbehind := eq_of_blanks hblanks (stops_of_isNameStart (List.all_eq_true.1 hwords w hw)) hstops
    heq.symm
  exact append_ne_append_of_zip (List.all_eq_true.1 h w hw) _ _ hbehind

/-- Blanks with something else behind them than one of the words offer nothing. -/
theorem not_offers_of_prefix {blanks : List Char} (hblanks : ∀ c ∈ blanks, Text.isBlank c = true)
    (hwords : ∀ w ∈ words, IsWord w.toList) (hcs : Text.Stops Text.isBlank cs)
    (h : ∀ w ∈ words, ¬ w.toList <+: cs) : ¬ Offers words (blanks ++ cs) := by
  rintro ⟨blanks', w, rest, -, hblanks', hw, heq⟩
  have hbehind := eq_of_blanks_append hblanks hblanks' hcs
    (stops_of_isNameStart (hwords w hw).head) heq
  exact h w hw (hbehind ▸ List.prefix_append _ _)

/-- A mark behind blanks offers nothing. -/
theorem not_offers_mark {blanks : List Char} (hblanks : ∀ c ∈ blanks, Text.isBlank c = true)
    (hwords : ∀ w ∈ words, IsWord w.toList) {c : Char} (hc : c ∈ textMarks) (rest : List Char) :
    ¬ Offers words (blanks ++ c :: rest) := by
  obtain ⟨hname, hblank⟩ := Bool.or_eq_false_iff.1 (isNameOrBlank_of_mark hc)
  refine not_offers_of_prefix hblanks hwords (Text.stops_cons hblank) fun w hw hprefix ↦ ?_
  obtain ⟨d, tail, heq, hd⟩ := (hwords w hw).exists_eq_cons
  rw [heq] at hprefix
  obtain rfl : d = c := (List.cons_prefix_cons.1 hprefix).1
  rw [isNameRest_of_isNameStart hd] at hname
  exact absurd hname (by decide)

/-- Another word behind blanks offers nothing, if it does not begin with one of the words. -/
theorem not_offers_word {blanks x : List Char} (hblanks : ∀ c ∈ blanks, Text.isBlank c = true)
    (hwords : ∀ w ∈ words, IsWord w.toList) (hx : IsWord x) (hrest : Text.Stops isNameRest rest)
    (h : ∀ w ∈ words, ¬ w.toList <+: x) : ¬ Offers words (blanks ++ (x ++ rest)) := by
  refine not_offers_of_prefix hblanks hwords (stops_of_isNameStart hx.head) fun w hw hprefix ↦ ?_
  obtain ⟨tail, heq⟩ := hprefix
  rcases List.append_eq_append_iff.1 heq with ⟨cs, rfl, -⟩ | ⟨cs, hcs, rfl⟩
  · exact h w hw (List.prefix_append _ _)
  · cases cs with
    | nil => exact h w hw (by simp [hcs])
    | cons c cs =>
      have hc := (hwords w hw).forall_mem isNameRest_of_isIdentifierChar c (by simp [hcs])
      rw [hrest c rfl] at hc
      exact absurd hc (by decide)

/-- A mark right behind offers nothing. -/
theorem not_offers_cons {c : Char} (hc : Text.isBlank c = false) : ¬ Offers words (c :: rest) := by
  rintro ⟨blanks, w, rest', hne, hblanks, -, heq⟩
  obtain ⟨d, blanks, rfl⟩ := List.exists_cons_of_ne_nil hne
  obtain rfl : c = d := (List.cons.inj heq).1
  rw [hblanks c List.mem_cons_self] at hc
  exact absurd hc (by decide)

end Offers

/-! ## What is skipped -/

/-- Where the pattern fits, the word for exports stands ahead, and behind it one of the words. -/
def OpensExport (p : Pattern) (words : List String) : Prop :=
  ∀ before ahead, (p.matchAt? (between before ahead)).isSome = true →
    ∃ rest, ahead = "export".toList ++ rest ∧ Offers words rest

section OpensExport

variable {p : Pattern} {words : List String} {cs rest : List Char}

theorem OpensExport.mono {words' : List String} (h : OpensExport p words)
    (hwords : words ⊆ words') : OpensExport p words' := by
  intro before ahead hsome
  obtain ⟨rest, heq, hoffers⟩ := h before ahead hsome
  exact ⟨rest, heq, hoffers.mono hwords⟩

theorem OpensExport.opens (h : OpensExport p words) : p.Opens fun c ↦ c == 'e' := by
  intro before ahead hsome
  obtain ⟨rest, rfl, -⟩ := h before ahead hsome
  rfl

theorem OpensExport.halts (h : OpensExport p words) : p.Halts isNameRest Text.isBlank := by
  intro before ahead hsome
  obtain ⟨rest, rfl, blanks, w, rest', hne, hblanks, -, rfl⟩ := h before ahead hsome
  obtain ⟨c, blanks, rfl⟩ := List.exists_cons_of_ne_nil hne
  have hc := hblanks c List.mem_cons_self
  rw [find?_append_of_accepts (isNameRest_of_word (by decide)), List.cons_append,
    List.find?_cons_of_pos (by simp [isNameRest_of_isBlank hc])]
  exact hc

/-- Characters without a blank among them are skipped, unless they end in the word for exports and the
pattern fits there. -/
theorem OpensExport.skips_of_forall_ne_blank (h : OpensExport p words)
    (hcs : ∀ c ∈ cs, Text.isBlank c = false) (hrest : Text.Stops isNameRest rest)
    (hnone : "export".toList <:+ cs →
      ∀ before, p.matchAt? (between before ("export".toList ++ rest)) = none) : p.Skips cs rest := by
  refine skips_of_forall_suffix fun front back before heq hne ↦ ?_
  by_contra hsome
  obtain ⟨rest', hahead, hoffers⟩ := h before (back ++ rest) (Option.isSome_iff_ne_none.2 hsome)
  have hback : back = "export".toList := by
    rcases List.append_eq_append_iff.1 hahead with ⟨ds, hword, rfl⟩ | ⟨ds, hword, rfl⟩
    · -- the word reaches past the characters, and so into what does not go on with a name
      cases ds with
      | nil => rw [hword, List.append_nil]
      | cons d ds =>
        have hd := isNameRest_of_word (by decide : "export".toList.all isIdentifierChar = true) d
          (hword ▸ List.mem_append_right _ List.mem_cons_self)
        rw [hrest d rfl] at hd
        exact absurd hd Bool.false_ne_true
    · -- the characters reach past the word, and so into the blank behind it
      cases ds with
      | nil => rw [hword, List.append_nil]
      | cons d ds =>
        obtain ⟨c, hc, hblank⟩ := hoffers.exists_head_isBlank
        obtain rfl : d = c := by simpa using hc
        have hd := hcs d (heq ▸ List.mem_append_right _ (hword ▸ List.mem_append_right _
          List.mem_cons_self))
        rw [hblank] at hd
        exact absurd hd (by decide)
  rw [hback] at heq hsome
  exact hsome (hnone ⟨front, heq.symm⟩ before)

/-- A name is skipped, unless it ends in the word for exports and something is offered behind it. -/
theorem OpensExport.skips_name (h : OpensExport p words) (hcs : ∀ c ∈ cs, Text.isBlank c = false)
    (hrest : Text.Stops isNameRest rest) (hoffers : "export".toList <:+ cs → ¬ Offers words rest) :
    p.Skips cs rest := by
  refine h.skips_of_forall_ne_blank hcs hrest fun hsuffix before ↦ ?_
  by_contra hsome
  obtain ⟨rest', hahead, hoffers'⟩ := h before _ (Option.isSome_iff_ne_none.2 hsome)
  obtain rfl : rest = rest' := List.append_cancel_left hahead
  exact hoffers hsuffix hoffers'

/-- Blanks are skipped. -/
theorem OpensExport.skips_blanks (h : OpensExport p words) (hcs : ∀ c ∈ cs, Text.isBlank c = true)
    (rest : List Char) : p.Skips cs rest := by
  refine h.opens.skips fun c hc ↦ beq_eq_false_iff_ne.2 ?_
  rintro rfl
  exact absurd (hcs 'e' hc) (by decide)

/-- Other words than the one for exports are skipped. -/
theorem OpensExport.skips_other (h : OpensExport p words)
    (hcs : (cs.all isIdentifierChar && !"export".toList.isSuffixOf cs) = true)
    (hrest : Text.Stops isNameRest rest) : p.Skips cs rest := by
  obtain ⟨hchars, hother⟩ := Bool.and_eq_true_iff.1 hcs
  refine h.skips_name (isBlank_of_word hchars) hrest fun hsuffix ↦ ?_
  rw [List.isSuffixOf_iff_suffix.2 hsuffix] at hother
  exact absurd hother (by decide)

/-- Blanks with a mark behind them offer nothing, so that a name before them is skipped. -/
theorem OpensExport.skips_before_mark (h : OpensExport p exportWords)
    (hcs : ∀ c ∈ cs, Text.isBlank c = false) {blanks : List Char}
    (hblanks : ∀ c ∈ blanks, Text.isBlank c = true) {c : Char} (hc : c ∈ textMarks)
    (rest : List Char) : p.Skips cs (blanks ++ c :: rest) :=
  h.skips_name hcs (stops_of_forall_isBlank hblanks (Text.stops_cons (isNameRest_of_mark hc)))
    fun _ ↦ not_offers_mark hblanks isWord_of_mem_exportWords hc rest

end OpensExport

/-! ## Statements without an export -/

section Skips

variable {p : Pattern} {rest : List Char}

/-- What stands behind the identifiers of statements, and behind words that are not looked for. -/
def followers : List String :=
  [" from ", " \x7d", " = ", "(", ", ", ")", " => ", " + ", ";", " \x7b\x7d", " as ", " \x7d;",
    " \x7b ", " null; \x7d"]

/-- What stands behind an identifier is no part of a name, and offers nothing. -/
theorem stops_and_not_offers {t : String} (ht : t ∈ followers) (rest : List Char) :
    Text.Stops isNameRest (t.toList ++ rest) ∧ ¬ Offers exportWords (t.toList ++ rest) := by
  have hall : ∀ t ∈ followers, (t.toList.head?.any fun c ↦ decide (c ∈ textMarks)) = true ∨
      t.toList.head? = some ' ' ∧ t.toList.tail ≠ [] ∧
      t.toList.tail.head?.any Text.isBlank = false ∧
      (exportWords.all fun w ↦ (w.toList.zip t.toList.tail).any fun p ↦ p.1 != p.2) = true := by
    decide +kernel
  rcases hall t ht with hmark | ⟨hhead, hne, hblank, hzip⟩
  · obtain ⟨c, hhead, hc⟩ := (Option.any_eq_true _ _).1 hmark
    obtain ⟨hname, hblank⟩ := Bool.or_eq_false_iff.1 (isNameOrBlank_of_mark (of_decide_eq_true hc))
    obtain ⟨tail, heq⟩ := List.head?_eq_some_iff.1 hhead
    rw [heq]
    exact ⟨Text.stops_cons hname, not_offers_cons hblank⟩
  · obtain ⟨tail, heq⟩ := List.head?_eq_some_iff.1 hhead
    rw [heq] at hne hblank hzip ⊢
    exact ⟨Text.stops_cons (isNameRest_of_isBlank (by decide)),
      not_offers_of_zip (by decide +kernel) hblank hzip hne⟩

variable (h : OpensExport p exportWords)

include h

theorem skips_word {cs : List Char} (hcs : ∀ c ∈ cs, Text.isBlank c = false) {t : String}
    (ht : t ∈ followers) : p.Skips cs (t.toList ++ rest) := by
  obtain ⟨hstops, hoffers⟩ := stops_and_not_offers ht rest
  exact h.skips_name hcs hstops fun _ ↦ hoffers

theorem skips_identifier (x : Identifier) {t : String} (ht : t ∈ followers) :
    p.Skips x.chars (t.toList ++ rest) :=
  skips_word h (x.forall_mem isBlank_of_isIdentifierChar) ht

theorem skips_listChars (xs : List Identifier) : p.Skips (listChars xs) (")".toList ++ rest) := by
  have hmore (more : List Identifier) :
      (∃ t ∈ followers, ∃ rest',
        (more.flatMap fun y ↦ ", ".toList ++ y.chars) ++ (")".toList ++ rest) = t.toList ++ rest') ∧
      p.Skips (more.flatMap fun y ↦ ", ".toList ++ y.chars) (")".toList ++ rest) := by
    induction more with
    | nil => exact ⟨⟨")", by decide, rest, rfl⟩, fun _ ↦ rfl⟩
    | cons y more ih =>
      obtain ⟨⟨t, ht, rest', heq⟩, hskips⟩ := ih
      simp only [List.flatMap_cons, List.append_assoc]
      refine ⟨⟨", ", by decide, _, rfl⟩, .append (h.opens.skips (by decide)) (.append ?_ hskips)⟩
      rw [heq]
      exact skips_identifier h y ht
  cases xs with
  | nil => exact fun _ ↦ rfl
  | cons x more =>
    obtain ⟨⟨t, ht, rest', heq⟩, hskips⟩ := hmore more
    refine .append ?_ hskips
    rw [heq]
    exact skips_identifier h x ht

theorem skips_sum (e : Sum) : p.Skips e.chars (";".toList ++ rest) := by
  have hsummand (s : Summand) {t : String} (ht : t ∈ followers) {rest' : List Char} :
      p.Skips s.chars (t.toList ++ rest') := by
    cases s with
    | name x => exact skips_identifier h x ht
    | numeral n =>
      refine h.opens.skips (n.forall_mem (fun c hc ↦ ?_) (by decide))
      exact beq_eq_false_iff_ne.2 (Text.ne_of_isDigit hc (by decide))
  have hmore (more : List Summand) :
      (∃ t ∈ followers, ∃ rest',
        (more.flatMap fun s ↦ " + ".toList ++ s.chars) ++ (";".toList ++ rest) = t.toList ++ rest') ∧
      p.Skips (more.flatMap fun s ↦ " + ".toList ++ s.chars) (";".toList ++ rest) := by
    induction more with
    | nil => exact ⟨⟨";", by decide, rest, rfl⟩, fun _ ↦ rfl⟩
    | cons s more ih =>
      obtain ⟨⟨t, ht, rest', heq⟩, hskips⟩ := ih
      simp only [List.flatMap_cons, List.append_assoc]
      refine ⟨⟨" + ", by decide, _, rfl⟩, .append (h.opens.skips (by decide)) (.append ?_ hskips)⟩
      rw [heq]
      exact hsummand s ht
  obtain ⟨⟨t, ht, rest', heq⟩, hskips⟩ := hmore e.more
  refine .append ?_ hskips
  rw [heq]
  exact hsummand e.first ht

/-- The parameters and the body of a function declaration are skipped. -/
theorem skips_functionTail (xs : List Identifier) (returns : Bool) :
    p.Skips ("(".toList ++ (listChars xs ++ (")".toList ++ Statement.bodyChars returns))) rest := by
  refine .append (h.opens.skips (by decide)) (.append ?_ (.append (h.opens.skips (by decide)) ?_))
  · rw [List.append_assoc]
    exact skips_listChars h xs
  · cases returns with
    | false => exact h.opens.skips (by decide)
    | true =>
      have hreturn : p.Skips (" \x7b ".toList ++ ("return".toList ++ " null; \x7d".toList)) rest :=
        .append (h.opens.skips (by decide)) (.append
          (skips_word h (isBlank_of_word (by decide)) (by decide)) (h.opens.skips (by decide)))
      exact hreturn

/-- The value of a variable that holds an arrow function is skipped. -/
theorem skips_arrowTail (xs : ArrowParameters) (e : Sum) :
    p.Skips (" = ".toList ++ (xs.chars ++ (" => ".toList ++ (e.chars ++ ";".toList)))) rest := by
  refine .append (h.opens.skips (by decide)) (.append ?_ (.append (h.opens.skips (by decide))
    (.append (skips_sum h e) (h.opens.skips (by decide)))))
  rw [List.append_assoc]
  cases xs with
  | list xs =>
    refine .append (h.opens.skips (by decide)) (.append ?_ (h.opens.skips (by decide)))
    exact skips_listChars h xs
  | single x => exact skips_identifier h x (by decide)

/-- A statement that exports no declaration is skipped. -/
theorem skips_unexported {s : Statement} (hs : s.exported? = none) : p.Skips s.chars rest := by
  have hmodule (m : Module) (last : Char) (hlast : last ∈ "'\"".toList) {rest : List Char} :
      p.Skips (m.chars ++ [last]) rest := by
    have hmark : last ∈ textMarks := (by decide : ∀ c ∈ "'\"".toList, c ∈ textMarks) last hlast
    obtain ⟨hname, hblank⟩ := Bool.or_eq_false_iff.1 (isNameOrBlank_of_mark hmark)
    refine h.halts.skips hname (List.forall_mem_append.2
      ⟨m.forall_mem (fun c hc ↦ ?_) (by decide), by simpa using hblank⟩)
    exact isBlank_of_isIdentifierChar c hc
  have hquote (clause : ImportClause) : clause.quote ∈ "'\"".toList := by
    cases clause with
    | default x => exact (by decide : '\'' ∈ "'\"".toList)
    | named x => exact (by decide : '"' ∈ "'\"".toList)
  cases s with
  | importFrom clause m =>
    have htext : (Statement.importFrom clause m).chars = "import ".toList ++ (clause.chars ++
        (" from ".toList ++ ([clause.quote] ++ ((m.chars ++ [clause.quote]) ++ ";".toList)))) := by
      rw [Statement.chars_importFrom]
      simp
    have hopens : ∀ c ∈ [clause.quote], (c == 'e') = false := by
      simpa using (by decide : ∀ c ∈ "'\"".toList, c ≠ 'e') _ (hquote clause)
    rw [htext]
    refine .append (h.opens.skips (by decide)) (.append ?_ (.append (h.opens.skips (by decide))
      (.append (h.opens.skips hopens) (.append (hmodule m _ (hquote clause))
        (h.opens.skips (by decide))))))
    rw [List.append_assoc]
    cases clause with
    | default x => exact skips_identifier h x (by decide)
    | named x =>
      exact .append (h.opens.skips (by decide)) (.append (skips_identifier h x (by decide))
        (h.opens.skips (by decide)))
  | require x m =>
    have htext : (Statement.require x m).chars = "const ".toList ++ (x.chars ++
        (" = ".toList ++ ("require('".toList ++ ((m.chars ++ ['\'']) ++ ");".toList)))) := by
      rw [Statement.chars_require]
      simp
    have hcall : p.Skips "require('".toList ((m.chars ++ ['\'']) ++ ");".toList ++ rest) :=
      @Halts.skips p "require(".toList _ _ _ h.halts '\'' (isNameRest_of_mark (by decide)) (by decide)
    rw [htext]
    refine .append (h.opens.skips (by decide)) (.append ?_ (.append (h.opens.skips (by decide))
      (.append hcall (.append (hmodule m '\'' (by decide)) (h.opens.skips (by decide))))))
    rw [List.append_assoc]
    exact skips_identifier h x (by decide)
  | function exported f xs returns =>
    have hexported : exported = false := by
      cases exported with
      | false => rfl
      | true => simp [Statement.exported?] at hs
    rw [hexported]
    refine .append (h.opens.skips (by decide)) (.append (h.opens.skips (by decide))
      (.append ?_ (skips_functionTail h xs returns)))
    rw [List.append_assoc]
    exact skips_identifier h f (by decide)
  | arrow exported f xs e =>
    have hexported : exported = false := by
      cases exported with
      | false => rfl
      | true => simp [Statement.exported?] at hs
    rw [hexported]
    refine .append (h.opens.skips (by decide)) (.append (h.opens.skips (by decide))
      (.append ?_ (skips_arrowTail h xs e)))
    rw [List.append_assoc]
    exact skips_identifier h f (by decide)
  | «class» x => simp [Statement.exported?] at hs
  | exportList a b c =>
    have htext : (Statement.exportList a b c).chars = "export".toList ++ (" \x7b ".toList ++
        (a.chars ++ (" as ".toList ++ (b.chars ++ (", ".toList ++ (c.chars ++
          " \x7d;".toList)))))) := by
      rw [Statement.chars_exportList]
      simp
    rw [htext]
    refine .append ?_ (.append (h.opens.skips (by decide)) (.append ?_ (.append
      (h.opens.skips (by decide)) (.append ?_ (.append (h.opens.skips (by decide)) (.append
        (skips_identifier h c (by decide)) (h.opens.skips (by decide))))))))
    · rw [List.append_assoc]
      exact skips_word h (isBlank_of_word (by decide)) (by decide)
    · rw [List.append_assoc]
      exact skips_identifier h a (by decide)
    · rw [List.append_assoc]
      exact skips_identifier h b (by decide)

end Skips

/-! ## Default exports -/

section

variable {before ahead rest : List Char} {m : Match} {stop : Place}

theorem of_defaultExportWords
    (h : defaultExportWords.matchAt? (between before ahead) = some (m, stop)) :
    ∃ blanks rest, ahead = "export".toList ++ (blanks ++ ("default".toList ++ rest)) ∧
      blanks ≠ [] ∧ (∀ c ∈ blanks, Text.isBlank c = true) ∧ stop.ahead = rest := by
  simp only [matchAt?, defaultExportWords, fits_seq_cons, fits_seq_nil] at h
  obtain ⟨_, rfl, h₁⟩ := of_fits_word (of_fits_wordEdge h)
  obtain ⟨blanks, _, rfl, hne, hblanks, h₂⟩ := of_fits_run1 h₁
  obtain ⟨rest, rfl, h₃⟩ := of_fits_word h₂
  obtain ⟨-, rfl⟩ := Prod.mk.inj (Option.some_inj.1 (of_fits_wordEdge h₃))
  exact ⟨blanks, rest, rfl, hne, hblanks, rfl⟩

theorem opensExport_defaultExportWords : OpensExport defaultExportWords ["default"] := by
  intro before ahead hsome
  obtain ⟨⟨m, stop⟩, h⟩ := Option.isSome_iff_exists.1 hsome
  obtain ⟨blanks, rest, rfl, hne, hblanks, -⟩ := of_defaultExportWords h
  exact ⟨_, rfl, blanks, "default", rest, hne, hblanks, List.mem_singleton_self _, rfl⟩

/-- The words that exported declarations begin with in statements. -/
def startWords : List String :=
  ["function", "const", "class"]

/-- How a statement is written that exports a declaration. -/
theorem exists_chars_eq_of_exported {p : Pattern} (h : OpensExport p exportWords) {s : Statement}
    {name : String} (hs : s.exported? = some name) (rest : List Char) :
    ∃ w ∈ startWords, ∃ x : Identifier, ∃ t ∈ followers, ∃ tail, name = x.text ∧
      s.chars = "export".toList ++ ([' '] ++ (w.toList ++ ([' '] ++ (x.chars ++
        (t.toList ++ tail))))) ∧ p.Skips (t.toList ++ tail) rest := by
  cases s with
  | importFrom clause m => simp [Statement.exported?] at hs
  | require x m => simp [Statement.exported?] at hs
  | exportList a b c => simp [Statement.exported?] at hs
  | function exported f xs returns =>
    cases exported with
    | false => simp [Statement.exported?] at hs
    | true =>
      refine ⟨"function", by decide, f, "(", by decide, _, (Option.some_inj.1 hs).symm, ?_,
        skips_functionTail h xs returns⟩
      rw [Statement.chars_function]
      simp [Statement.exportChars]
  | arrow exported f xs e =>
    cases exported with
    | false => simp [Statement.exported?] at hs
    | true =>
      refine ⟨"const", by decide, f, " = ", by decide, _, (Option.some_inj.1 hs).symm, ?_,
        skips_arrowTail h xs e⟩
      rw [Statement.chars_arrow]
      simp [Statement.exportChars]
  | «class» x =>
    refine ⟨"class", by decide, x, " \x7b\x7d", by decide, [], (Option.some_inj.1 hs).symm, ?_,
      h.opens.skips (by decide)⟩
    rw [Statement.chars_class]
    simp

/-- **No statement has a default export.** -/
theorem findAll_defaultExportWords (ss : List Statement) :
    defaultExportWords.findAll (sourceChars ss) = [] := by
  have hopens : OpensExport defaultExportWords exportWords :=
    opensExport_defaultExportWords.mono (by decide)
  have hskips (s : Statement) (rest : List Char) : defaultExportWords.Skips s.chars rest := by
    cases hs : s.exported? with
    | none => exact skips_unexported hopens hs
    | some name =>
      obtain ⟨w, hw, x, t, ht, tail, -, heq, htail⟩ := exists_chars_eq_of_exported hopens hs rest
      have hall : ∀ w ∈ startWords, (∀ c ∈ w.toList, (c == 'e') = false) ∧
          w.toList.head?.any Text.isBlank = false ∧ w.toList ≠ [] ∧
          (["default"].all fun w' ↦ (w'.toList.zip w.toList).any fun p ↦ p.1 != p.2) = true := by
        decide +kernel
      obtain ⟨he, hblank, hne, hzip⟩ := hall w hw
      have hoffers (rest : List Char) : ¬ Offers ["default"] (' ' :: (w.toList ++ rest)) :=
        not_offers_of_zip (by decide) hblank hzip hne
      rw [heq]
      refine .append ?_ (.append (hopens.opens.skips (by decide)) (.append (hopens.opens.skips he)
        (.append (hopens.opens.skips (by decide)) (.append ?_ htail))))
      · simp only [List.append_assoc]
        exact opensExport_defaultExportWords.skips_name (isBlank_of_word (by decide))
          (Text.stops_cons (isNameRest_of_isBlank (by decide))) fun _ ↦ hoffers _
      · rw [List.append_assoc]
        exact skips_identifier hopens x ht
  have hnone (s : Statement) (rest before : List Char) :
      Reports defaultExportWords (fun m ↦ [m]) before s.chars rest [] :=
    reports_of_skips (hskips s rest) _ before
  have hempty : (ss.flatMap fun _ ↦ ([] : List Match)) = [] :=
    List.flatMap_eq_nil_iff.2 fun _ _ ↦ rfl
  have hfind := flatMap_findAll_source hopens.opens (by decide)
    (fun s ss before _ ↦ hnone s ('\n' :: sourceChars ss) before) ss
  simpa [hempty] using hfind

/-! ## Exported declarations -/

/-- What an exported declaration can begin with. -/
def declarationPatterns : List Pattern :=
  [seq [word "function", blanks, optional (char '*')], word "class", word "const", word "let",
    word "var", word "interface", word "type", word "enum"]

/-- A blank, or the mark of a generator. -/
def isGap (c : Char) : Bool :=
  Text.isBlank c || c == '*'

theorem isGap_of_isNameStart {c : Char} (h : isNameStart c = true) : isGap c = false := by
  have hstar : c ≠ '*' := ne_of_isIdentifierChar (by decide) c (by simp [isIdentifierChar, h])
  simp [isGap, isBlank_of_isNameStart h, hstar]

theorem stops_isGap {cs : List Char} (h : cs.head?.any isNameStart = true) :
    Text.Stops isGap (cs ++ rest) := by
  cases cs with
  | nil => simp at h
  | cons c cs => exact Text.stops_cons (isGap_of_isNameStart (by simpa using h))

/-- What stands behind a gap is known from the text. -/
theorem eq_of_gap_append {gap gap' tail text : List Char} (hgap : ∀ c ∈ gap, isGap c = true)
    (hgap' : ∀ c ∈ gap', isGap c = true) (htail : Text.Stops isGap tail)
    (htext : Text.Stops isGap text) (h : gap ++ tail = gap' ++ text) : tail = text := by
  have hdrop := congrArg (List.dropWhile isGap) h
  rwa [Text.dropWhile_append_of_stops hgap htail,
    Text.dropWhile_append_of_stops hgap' htext] at hdrop

theorem of_fits_declarationPatterns {α : Type} {marks : List (Nat × Span)}
    {after : Reached → Option α} {a : α}
    (h : (oneOf declarationPatterns).fits ⟨between before ahead, marks⟩ after = some a) :
    ∃ w ∈ declarationWords, ∃ gap rest before', ahead = w.toList ++ (gap ++ rest) ∧
      (∀ c ∈ gap, isGap c = true) ∧ after ⟨between before' rest, marks⟩ = some a := by
  have hword {w : String} (hw : w ∈ declarationWords)
      (h : (word w).fits ⟨between before ahead, marks⟩ after = some a) :
      ∃ w ∈ declarationWords, ∃ gap rest before', ahead = w.toList ++ (gap ++ rest) ∧
        (∀ c ∈ gap, isGap c = true) ∧ after ⟨between before' rest, marks⟩ = some a := by
    obtain ⟨rest, rfl, hafter⟩ := of_fits_word h
    exact ⟨w, hw, [], rest, _, rfl, List.forall_mem_nil _, hafter⟩
  have hgap {cs : List Char} (hcs : ∀ c ∈ cs, Text.isBlank c = true) : ∀ c ∈ cs, isGap c = true :=
    fun c hc ↦ by simp [isGap, hcs c hc]
  obtain ⟨p, hp, h⟩ := of_fits_oneOf (List.cons_ne_nil _ _) h
  simp only [List.mem_cons, List.not_mem_nil, or_false] at hp
  rcases hp with rfl | rfl | rfl | rfl | rfl | rfl | rfl | rfl
  · simp only [fits_seq_cons, fits_seq_nil] at h
    obtain ⟨_, rfl, h₁⟩ := of_fits_word h
    obtain ⟨blanks, _, rfl, hblanks, h₂⟩ := of_fits_run h₁
    rcases of_fits_optional h₂ with h₃ | h₃
    · obtain ⟨rest, rfl, hafter⟩ := of_fits_char h₃
      refine ⟨"function", by decide, blanks ++ ['*'], rest, _, by simp, ?_, hafter⟩
      exact List.forall_mem_append.2 ⟨hgap hblanks, by decide⟩
    · exact ⟨"function", by decide, blanks, _, _, rfl, hgap hblanks, h₃⟩
  all_goals exact hword (by decide) h

/-- The name that is reported of a match. -/
def exportOf? (m : Match) : Option String :=
  (m.firstGroup? [1, 2]).map Span.text

/-- The words before a declaration, each with the blanks behind it. -/
def modified : List (String × List Char) → List Char → List Char
  | [], cs => cs
  | (w, blanks) :: ms, cs => w.toList ++ (blanks ++ modified ms cs)

/-- The words are of this list, and there are blanks behind each. -/
def AreModifiers (words : List String) (ms : List (String × List Char)) : Prop :=
  ∀ m ∈ ms, m.1 ∈ words ∧ m.2 ≠ [] ∧ ∀ c ∈ m.2, Text.isBlank c = true

theorem of_fits_maybeWords {α : Type} {marks : List (Nat × Span)} {after : Reached → Option α} {a : α}
    {words : List String} {ps : List Pattern}
    (h : (seq (words.map maybeWord ++ ps)).fits ⟨between before ahead, marks⟩ after = some a) :
    ∃ ms rest before', AreModifiers words ms ∧ ahead = modified ms rest ∧
      (seq ps).fits ⟨between before' rest, marks⟩ after = some a := by
  induction words generalizing before ahead with
  | nil => exact ⟨[], ahead, before, List.forall_mem_nil _, rfl, h⟩
  | cons w words ih =>
    have hmore {ms : List (String × List Char)} (hms : AreModifiers words ms) :
        AreModifiers (w :: words) ms :=
      fun m hm ↦ ⟨List.mem_cons_of_mem w (hms m hm).1, (hms m hm).2⟩
    rw [List.map_cons, List.cons_append, fits_seq_cons] at h
    rcases of_fits_maybeWord h with ⟨cs, _, rfl, hne, hcs, hafter⟩ | hafter
    · obtain ⟨ms, rest, before', hms, rfl, hfits⟩ := ih hafter
      exact ⟨(w, cs) :: ms, rest, before',
        List.forall_mem_cons.2 ⟨⟨List.mem_cons_self, hne, hcs⟩, hmore hms⟩, rfl, hfits⟩
    · obtain ⟨ms, rest, before', hms, rfl, hfits⟩ := ih hafter
      exact ⟨ms, rest, before', hmore hms, rfl, hfits⟩

/-- What the pattern for exported declarations goes past: the word for exports, words before the
declaration, the word that the declaration begins with, and its name. -/
structure Exported where
  blanks : List Char
  modifiers : List (String × List Char)
  word : String
  gap : List Char
  name : List Char
  blanks_ne_nil : blanks ≠ []
  isBlank : ∀ c ∈ blanks, Text.isBlank c = true
  areModifiers : AreModifiers modifierWords modifiers
  word_mem : word ∈ declarationWords
  isGap : ∀ c ∈ gap, isGap c = true
  isName : IsName name

/-- The declaration, and what stands behind its name. -/
def Exported.declared (e : Exported) (rest : List Char) : List Char :=
  modified e.modifiers (e.word.toList ++ (e.gap ++ (e.name ++ rest)))

/-- **Where an exported declaration fits**, it goes past one, and the whole of its name is reported. -/
theorem of_exportDeclaration (h : exportDeclaration.matchAt? (between before ahead) = some (m, stop)) :
    ∃ (e : Exported) (rest : List Char), ahead = "export".toList ++ (e.blanks ++ e.declared rest) ∧
      Text.Stops isNameRest rest ∧ exportOf? m = some (String.ofList e.name) ∧ stop.ahead = rest := by
  have hparts : exportDeclaration = seq (wordEdge :: word "export" :: blanks1 ::
    (modifierWords.map maybeWord ++ [oneOf declarationPatterns, blanks1, mark 1 name])) := rfl
  rw [matchAt?, hparts, fits_seq_cons] at h
  have hword := of_fits_wordEdge h
  rw [fits_seq_cons] at hword
  obtain ⟨_, rfl, h₁⟩ := of_fits_word hword
  rw [fits_seq_cons] at h₁
  obtain ⟨blanks, _, rfl, hne, hblanks, h₂⟩ := of_fits_run1 h₁
  obtain ⟨ms, _, _, hms, rfl, h₃⟩ := of_fits_maybeWords h₂
  simp only [fits_seq_cons, fits_mark, fits_seq_nil] at h₃
  obtain ⟨w, hw, gap, _, _, rfl, hgap, h₄⟩ := of_fits_declarationPatterns h₃
  obtain ⟨blanks', _, rfl, -, hblanks', h₅⟩ := of_fits_run1 h₄
  obtain ⟨name, rest, rfl, hhead, hname, hstops, hsome⟩ := of_fits_name_of_total (fun _ ↦ rfl) h₅
  obtain ⟨rfl, rfl⟩ := Prod.mk.inj (Option.some_inj.1 hsome)
  have hgap' : ∀ c ∈ gap ++ blanks', isGap c = true :=
    List.forall_mem_append.2 ⟨hgap, fun c hc ↦ by simp [isGap, hblanks' c hc]⟩
  refine ⟨⟨blanks, ms, w, gap ++ blanks', name, hne, hblanks, hms, hw, hgap', hhead, hname⟩, rest,
    ?_, hstops, ?_, rfl⟩
  · simp [Exported.declared]
  · simp [exportOf?, Match.group?, Match.firstGroup?, Span.text, Place.chars_until_between]

namespace Exported

variable (e : Exported) {text : List Char} {w : String}

/-- What is declared begins with a word. -/
theorem exists_declared_eq (rest : List Char) :
    ∃ w ∈ exportWords, ∃ cs, e.declared rest = w.toList ++ cs := by
  rw [declared]
  cases hms : e.modifiers with
  | nil => exact ⟨e.word, List.mem_append_right _ e.word_mem, _, rfl⟩
  | cons m ms =>
    have hm := (e.areModifiers m (hms ▸ List.mem_cons_self)).1
    exact ⟨m.1, List.mem_append_left _ hm, _, rfl⟩

theorem stops_declared (rest : List Char) : Text.Stops Text.isBlank (e.declared rest) := by
  obtain ⟨w, hw, cs, heq⟩ := e.exists_declared_eq rest
  rw [heq]
  exact stops_of_isNameStart (isWord_of_mem_exportWords w hw).head

/-- Where one of the words of declarations stands, no other word is before the declaration. -/
theorem eq_of_declared (hw : w ∈ declarationWords) (h : e.declared rest = w.toList ++ text) :
    e.word = w ∧ e.gap ++ (e.name ++ rest) = text := by
  have hexport {w : String} (hw : w ∈ declarationWords) : w ∈ exportWords :=
    List.mem_append_right _ hw
  rw [declared] at h
  cases hms : e.modifiers with
  | nil =>
    rw [hms] at h
    exact eq_of_exportWords (hexport e.word_mem) (hexport hw) h
  | cons m ms =>
    have hm := (e.areModifiers m (hms ▸ List.mem_cons_self)).1
    rw [hms] at h
    obtain ⟨rfl, -⟩ := eq_of_exportWords (List.mem_append_left _ hm) (hexport hw) h
    exact absurd hm ((by decide : ∀ w ∈ declarationWords, w ∉ modifierWords) _ hw)

/-- Where a mark stands in the place of the name, nothing is declared. -/
theorem declared_ne {gap : List Char} {c : Char} (hw : w ∈ declarationWords)
    (hgap : ∀ c ∈ gap, Rules.isGap c = true) (hc : (isNameStart c || Rules.isGap c) = false) :
    e.declared rest ≠ w.toList ++ (gap ++ c :: text) := by
  intro h
  obtain ⟨hstart, hmark⟩ := Bool.or_eq_false_iff.1 hc
  obtain ⟨-, hbehind⟩ := e.eq_of_declared hw h
  have hname := eq_of_gap_append e.isGap hgap (stops_isGap e.isName.head) (Text.stops_cons hmark)
    hbehind
  have hhead := e.isName.head
  cases hchars : e.name with
  | nil => simp [hchars] at hhead
  | cons d ds =>
    rw [hchars] at hname hhead
    obtain rfl : d = c := (List.cons.inj hname).1
    rw [List.head?_cons, Option.any_some, hstart] at hhead
    exact absurd hhead Bool.false_ne_true

/-- Where one of the words before declarations stands, what is behind it is declared as well. -/
theorem exists_declared_eq_of_modifier (hw : w ∈ modifierWords) {blanks : List Char}
    (hblanks : ∀ c ∈ blanks, Text.isBlank c = true) (htext : Text.Stops Text.isBlank text)
    (h : e.declared rest = w.toList ++ (blanks ++ text)) :
    ∃ e' : Exported, e'.name = e.name ∧ e'.declared rest = text := by
  have hexport {w : String} (hw : w ∈ modifierWords) : w ∈ exportWords :=
    List.mem_append_left _ hw
  rw [declared] at h
  cases hms : e.modifiers with
  | nil =>
    rw [hms] at h
    obtain ⟨rfl, -⟩ := eq_of_exportWords (List.mem_append_right _ e.word_mem) (hexport hw) h
    exact absurd hw ((by decide : ∀ w ∈ declarationWords, w ∉ modifierWords) _ e.word_mem)
  | cons m ms =>
    obtain ⟨⟨hm, -, hbehind⟩, hmore⟩ := List.forall_mem_cons.1 (hms ▸ e.areModifiers)
    rw [hms] at h
    obtain ⟨-, htail⟩ := eq_of_exportWords (hexport hm) (hexport hw) h
    have hstops := stops_declared { e with modifiers := ms, areModifiers := hmore } rest
    exact ⟨{ e with modifiers := ms, areModifiers := hmore }, rfl,
      eq_of_blanks_append hbehind hblanks hstops htext htail⟩

end Exported

theorem opensExport_exportDeclaration : OpensExport exportDeclaration exportWords := by
  intro before ahead hsome
  obtain ⟨⟨m, stop⟩, h⟩ := Option.isSome_iff_exists.1 hsome
  obtain ⟨e, rest, rfl, -⟩ := of_exportDeclaration h
  obtain ⟨w, hw, cs, heq⟩ := e.exists_declared_eq rest
  exact ⟨_, rfl, e.blanks, w, cs, e.blanks_ne_nil, e.isBlank, hw, by rw [heq]⟩

/-- **An exported declaration is found with its name.** -/
theorem scan_exportDeclaration {w : String} (hw : w ∈ startWords) (x : Identifier)
    (hrest : Text.Stops isNameRest rest) (hedge : before.head?.any Text.isWordChar = false) :
    ∃ m, exportOf? m = some x.text ∧
      exportDeclaration.scan before
          ("export".toList ++ ([' '] ++ (w.toList ++ ([' '] ++ x.chars))) ++ rest) =
        m :: exportDeclaration.scan
          (("export".toList ++ ([' '] ++ (w.toList ++ ([' '] ++ x.chars)))).reverse ++ before) rest := by
  have htext : "export".toList ++ ([' '] ++ (w.toList ++ ([' '] ++ x.chars))) ++ rest =
      "export".toList ++ ([' '] ++ (w.toList ++ ([' '] ++ (x.chars ++ rest)))) := by
    simp
  have hone : ∀ c ∈ [' '], Text.isBlank c = true := by decide
  refine exists_scan_eq_cons (by simp) ?_ ?_
  · rw [htext]
    simp only [matchAt?, exportDeclaration, fits_seq_cons, fits_mark, fits_seq_nil]
    refine isSome_fits_wordEdge ?_ (isSome_fits_word (isSome_fits_run1 (by simp) hone
      (isSome_fits_absent (isSome_fits_absent (isSome_fits_absent (isSome_fits_absent ?_))))))
    · exact Place.atWordEdge_between hedge rfl
    · have hname {before : List Char} {marks : List (Nat × Span)} {place : Place} :
          (blanks1.fits ⟨between before ([' '] ++ (x.chars ++ rest)), marks⟩ fun r ↦
            name.fits r fun r' ↦ some (Match.mk (place.until r'.place)
              ((1, r.place.until r'.place) :: r'.marks), r'.place)).isSome = true :=
        isSome_fits_run1 (by simp) hone (isSome_fits_name (isName_chars x) rfl)
      simp only [startWords, List.mem_cons, List.not_mem_nil, or_false] at hw
      rcases hw with rfl | rfl | rfl
      · exact isSome_fits_left (isSome_fits_word (isSome_fits_run_nil (isSome_fits_absent hname)))
      · exact isSome_fits_right (isSome_fits_right (isSome_fits_left (isSome_fits_word hname)))
      · exact isSome_fits_right (isSome_fits_left (isSome_fits_word hname))
  · intro m stop h
    rw [htext] at h
    obtain ⟨e, rest', heq, hstops, hreport, hahead⟩ := of_exportDeclaration h
    have hword : w ∈ declarationWords :=
      (by decide : ∀ w ∈ startWords, w ∈ declarationWords) w hw
    have hstart : Text.Stops Text.isBlank (w.toList ++ ([' '] ++ (x.chars ++ rest))) :=
      stops_of_isNameStart (isWord_of_mem_exportWords w (List.mem_append_right _ hword)).head
    have hbehind := eq_of_blanks_append e.isBlank hone (e.stops_declared rest') hstart
      (List.append_cancel_left heq).symm
    obtain ⟨-, hgap⟩ := e.eq_of_declared hword hbehind
    have hname := eq_of_gap_append e.isGap (by decide : ∀ c ∈ [' '], isGap c = true)
      (stops_isGap e.isName.head) (stops_isGap x.head) hgap
    obtain ⟨hchars, rfl⟩ := eq_of_name e.isName.all (isName_chars x).all hstops hrest hname
    exact ⟨hahead, by rw [hreport, hchars, Identifier.text]⟩

theorem reports_exportDeclaration (s : Statement) (rest : List Char) {before : List Char}
    (hbefore : BeforeLine before) :
    Reports exportDeclaration (fun m ↦ (exportOf? m).toList) before s.chars rest
      s.exported?.toList := by
  have hopens := opensExport_exportDeclaration
  cases hs : s.exported? with
  | none => exact reports_of_skips (skips_unexported hopens hs) _ _
  | some name =>
    obtain ⟨w, hw, x, t, ht, tail, rfl, heq, htail⟩ := exists_chars_eq_of_exported hopens hs rest
    have htext : s.chars =
        "export".toList ++ ([' '] ++ (w.toList ++ ([' '] ++ x.chars))) ++ (t.toList ++ tail) := by
      simpa using heq
    have hrest : Text.Stops isNameRest (t.toList ++ tail ++ rest) := by
      rw [List.append_assoc]
      exact (stops_and_not_offers ht _).1
    obtain ⟨m, hm, hscan⟩ := scan_exportDeclaration hw x hrest hbefore.not_word
    have hreports : Reports exportDeclaration (fun m ↦ (exportOf? m).toList) _ _ _ _ :=
      reports_of_scan_eq_cons hscan
    rw [hm] at hreports
    rw [htext]
    exact hreports.append_skips htail

/-- **Exported declarations are found in the order of the text.** -/
theorem exportsBy_exportDeclaration (ss : List Statement) :
    (exportsBy (sourceChars ss) exportDeclaration).filterMap (·.2) =
      ss.filterMap Statement.exported? := by
  rw [exportsBy, List.filterMap_map, List.filterMap_eq_flatMap_toList,
    List.filterMap_eq_flatMap_toList]
  exact flatMap_findAll_source opensExport_exportDeclaration.opens (by decide)
    (fun s ss before hbefore ↦ reports_exportDeclaration s _ hbefore) ss

end

end Rules

end Outline

end ChangeContext
