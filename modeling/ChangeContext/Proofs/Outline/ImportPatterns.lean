import ChangeContext.Proofs.Outline.PatternParts
import ChangeContext.Proofs.Text.Trim

/-!
# Imports found by their patterns

A call of `require` is found where it stands and nowhere else.  The pattern for import statements is
less exact: behind the word for imports it goes past anything that could stand in an import clause,
line breaks among it, up to a quotation mark.  So where an identifier ends in that word and a blank
and braces follow, which is where a class is exported, the match can run across the lines behind it.
It can only run across further classes and up to an import statement.  Then it reports the module of
that statement, and the search goes on behind it: the modules are found in the same order either way.
-/

set_option autoImplicit false

namespace ChangeContext

namespace Outline

namespace Rules

open Pattern
open Place (between)
open Text (append_cons_inj)

section

variable {before ahead : List Char} {m : Match} {stop : Place}

/-- The module that is reported of a match. -/
def importOf? (m : Match) : Option String :=
  (m.group? 1).map fun module ↦ String.ofList (Text.trimEndWhile (· == ':') module.chars)

theorem importOf?_of_module {module : Module}
    (h : (m.group? 1).map Span.chars = some module.chars) : importOf? m = some module.text := by
  obtain ⟨span, hspan, hchars⟩ := Option.map_eq_some_iff.1 h
  have hcolon : ∀ c ∈ module.chars, (c == ':') = false :=
    module.forall_mem (beq_of_isIdentifierChar (by decide)) (by decide)
  have htrim : Text.trimEndWhile (· == ':') module.chars = module.chars := by
    simpa using Text.trimEndWhile_append (List.forall_mem_nil _)
      fun c hc ↦ hcolon c (List.mem_of_getLast? hc)
  rw [importOf?, hspan, Option.map_some, hchars, htrim, Module.text]

/-! ## Calls of `require` -/

/-- **Where a call of `require` fits**, a quoted module is all there is in its parentheses. -/
theorem of_requireCall (h : requireCall.matchAt? (between before ahead) = some (m, stop)) :
    ∃ blanks mark cs mark' blanks' rest, ahead = "require".toList ++ '(' :: (blanks ++ mark :: (cs ++
        mark' :: (blanks' ++ ')' :: rest))) ∧ (∀ c ∈ blanks, Text.isBlank c = true) ∧
      isQuote mark = true ∧ (∀ c ∈ cs, isQuote c = false) ∧ isQuote mark' = true ∧
      (∀ c ∈ blanks', Text.isBlank c = true) ∧ (m.group? 1).map Span.chars = some cs ∧
      stop.ahead = rest := by
  simp only [matchAt?, requireCall, fits_seq_cons, fits_seq_nil] at h
  obtain ⟨_, rfl, h₁⟩ := of_fits_word (of_fits_wordEdge h)
  obtain ⟨blanks, _, rfl, hblanks, h₂⟩ := of_fits_run h₁
  obtain ⟨mark, cs, mark', _, span, rfl, hmark, -, hcs, hmark', hspan, h₃⟩ := of_fits_quotedModule h₂
  obtain ⟨blanks', _, rfl, hblanks', h₄⟩ := of_fits_run h₃
  obtain ⟨rest, rfl, hsome⟩ := of_fits_char h₄
  obtain ⟨rfl, rfl⟩ := Prod.mk.inj (Option.some_inj.1 hsome)
  exact ⟨blanks, mark, cs, mark', blanks', rest, rfl, hblanks, hmark, hcs, hmark', hblanks',
    by simp [Match.group?, hspan], rfl⟩

theorem opens_requireCall : requireCall.Opens fun c ↦ c == 'r' := by
  intro before ahead hsome
  obtain ⟨⟨m, stop⟩, h⟩ := Option.isSome_iff_exists.1 hsome
  obtain ⟨blanks, mark, cs, mark', blanks', rest, rfl, -⟩ := of_requireCall h
  rfl

theorem halts_requireCall : requireCall.Halts isNameRest fun c ↦ c == '(' := by
  intro before ahead hsome
  obtain ⟨⟨m, stop⟩, h⟩ := Option.isSome_iff_exists.1 hsome
  obtain ⟨blanks, mark, cs, mark', blanks', rest, rfl, -⟩ := of_requireCall h
  have hparen : isNameRest '(' = false := isNameRest_of_mark (by decide)
  rw [find?_append_of_accepts (isNameRest_of_word (by decide)),
    List.find?_cons_of_pos (by simp [hparen])]
  rfl

theorem isQuote_of_isIdentifierChar (c : Char) (h : isIdentifierChar c = true) :
    isQuote c = false :=
  Bool.or_eq_false_iff.2
    ⟨beq_of_isIdentifierChar (by decide) c h, beq_of_isIdentifierChar (by decide) c h⟩

theorem isBlank_of_isQuote {c : Char} (h : isQuote c = true) : Text.isBlank c = false := by
  rcases Bool.or_eq_true_iff.1 h with h | h
  · obtain rfl : c = '\'' := by simpa using h
    decide
  · obtain rfl : c = '"' := by simpa using h
    decide

/-- **A call of `require` is found with its module.** -/
theorem scan_requireCall (module : Module) (rest : List Char) {before cs : List Char}
    (hedge : before.head?.any Text.isWordChar = false)
    (hcs : cs = "require('".toList ++ (module.chars ++ "')".toList)) :
    ∃ m, importOf? m = some module.text ∧
      requireCall.scan before (cs ++ rest) = m :: requireCall.scan (cs.reverse ++ before) rest := by
  have hquote : ∀ c ∈ module.chars, isQuote c = false :=
    module.forall_mem isQuote_of_isIdentifierChar (by decide)
  have htext : cs ++ rest = "require".toList ++ '(' :: '\'' :: (module.chars ++ '\'' :: ')' :: rest) := by
    simp [hcs]
  refine exists_scan_eq_cons (by simp [hcs]) ?_ ?_
  · rw [htext]
    simp only [matchAt?, requireCall, fits_seq_cons, fits_seq_nil]
    refine isSome_fits_wordEdge ?_ (@isSome_fits_word _ _ _ _ _ "require(" (isSome_fits_run_nil
      (isSome_fits_quotedModule (by decide) module.ne_nil hquote (by decide)
        fun _ ↦ isSome_fits_run_nil (isSome_fits_char rfl))))
    exact Place.atWordEdge_between hedge rfl
  · intro m stop h
    rw [htext] at h
    obtain ⟨blanks, mark, cs', mark', blanks', rest', heq, hblanks, hmark, hcs', hmark', hblanks', hm,
      hahead⟩ := of_requireCall h
    have hcall := (List.cons.inj (List.append_cancel_left heq)).2
    obtain ⟨-, -, hinside⟩ := append_cons_inj Text.isBlank (List.forall_mem_nil _) (by decide) hblanks
      (isBlank_of_isQuote hmark) hcall
    obtain ⟨rfl, -, hbehind⟩ := append_cons_inj (fun c ↦ !isQuote c) (by simpa using hquote)
      (by decide) (by simpa using hcs') (by simpa using hmark') hinside
    obtain ⟨-, -, rfl⟩ := append_cons_inj Text.isBlank (List.forall_mem_nil _) (by decide) hblanks'
      (by decide) hbehind
    exact ⟨hahead, importOf?_of_module hm⟩

/-- The name of a function is skipped, as a parameter is no quoted module. -/
theorem skips_functionName (f : Identifier) (xs : List Identifier) (rest : List Char) :
    requireCall.Skips f.chars ('(' :: (listChars xs ++ ')' :: rest)) := by
  refine skips_of_forall_suffix fun front back before heq hne ↦ ?_
  by_contra hsome
  obtain ⟨⟨m, stop⟩, h⟩ := Option.ne_none_iff_exists'.1 hsome
  obtain ⟨blanks, mark, cs, mark', blanks', rest', hahead, hblanks, hmark, -⟩ := of_requireCall h
  have hback : ∀ c ∈ back, isNameRest c = true := fun c hc ↦
    f.forall_mem isNameRest_of_isIdentifierChar c (heq ▸ List.mem_append_right _ hc)
  have hname : isNameRest '(' = false := isNameRest_of_mark (by decide)
  obtain ⟨-, -, hbehind⟩ := append_cons_inj isNameRest hback hname (isNameRest_of_word (by decide))
    hname hahead
  obtain ⟨c, tail, htail, hc⟩ : ∃ c tail, listChars xs ++ ')' :: rest = c :: tail ∧
      (isIdentifierChar c = true ∨ c = ')') := by
    cases xs with
    | nil => exact ⟨')', rest, rfl, .inr rfl⟩
    | cons x more =>
      obtain ⟨c, tail, hx, hc⟩ := x.exists_eq_cons
      exact ⟨c, _, by rw [listChars, hx]; rfl, .inl (by simp [isIdentifierChar, hc])⟩
  have hblank : Text.isBlank c = false := by
    rcases hc with hc | rfl
    · exact isBlank_of_isIdentifierChar c hc
    · decide
  rw [htail] at hbehind
  obtain ⟨-, rfl, -⟩ := append_cons_inj Text.isBlank (List.forall_mem_nil _) hblank hblanks
    (isBlank_of_isQuote hmark) hbehind
  rcases hc with hc | rfl
  · rw [isQuote_of_isIdentifierChar c hc] at hmark
    exact absurd hmark (by decide)
  · exact absurd hmark (by decide)

/-- The call by which a module is required stands apart from the equals sign and the semicolon. -/
theorem chars_require_call (x : Identifier) (m : Module) :
    (Statement.require x m).chars = ("const ".toList ++ (x.chars ++ [' ']) ++ ['=']) ++
      ([' '] ++ (("require('".toList ++ (m.chars ++ "')".toList)) ++ [';'])) := by
  rw [Statement.chars_require]
  simp

/-- The modules that a statement requires. -/
def required : Statement → List String
  | .require _ m => [m.text]
  | _ => []

theorem reports_requireCall (s : Statement) (rest : List Char) {before : List Char} :
    Reports requireCall (fun m ↦ (importOf? m).toList) before s.chars rest (required s) := by
  have hword := beq_of_isIdentifierChar (by decide : isIdentifierChar '(' = false)
  have hlast : isNameRest s.last = false := (Bool.or_eq_false_iff.1 (isNameOrBlank_last s)).1
  have hopens {cs rest : List Char} (hcs : ∀ c ∈ cs, (c == 'r') = false) :
      requireCall.Skips cs rest := opens_requireCall.skips hcs
  have hhalts {cs rest : List Char} {last : Char} (hlast : isNameRest last = false)
      (hcs : ∀ c ∈ cs ++ [last], (c == '(') = false) : requireCall.Skips (cs ++ [last]) rest :=
    halts_requireCall.skips hlast hcs
  have hblank : isNameRest ' ' = false := isNameRest_of_isBlank (by decide)
  cases s with
  | importFrom clause m =>
    exact reports_of_skips (skips_of_halts halts_requireCall _ hword
      (by simp only [Statement.marks]; decide) hlast) _ _
  | «class» x =>
    exact reports_of_skips (skips_of_halts halts_requireCall _ hword
      (by simp only [Statement.marks]; decide) hlast) _ _
  | exportList a b c =>
    exact reports_of_skips (skips_of_halts halts_requireCall _ hword
      (by simp only [Statement.marks]; decide) hlast) _ _
  | require x m =>
    have hhead : ∀ c ∈ "const ".toList ++ (x.chars ++ [' ']) ++ ['='], (c == '(') = false := by
      simp only [List.forall_mem_append]
      exact ⟨⟨by decide, x.forall_mem hword, by decide⟩, by decide⟩
    obtain ⟨found, hfound, hscan⟩ := @scan_requireCall m ([';'] ++ rest)
      ([' '].reverse ++ (("const ".toList ++ (x.chars ++ [' ']) ++ ['=']).reverse ++ before)) _
      (isWordChar_of_isBlank (c := ' ') (by decide)) rfl
    have hreports : Reports requireCall (fun m ↦ (importOf? m).toList) _ _ _ _ :=
      reports_of_scan_eq_cons hscan
    rw [hfound] at hreports
    rw [chars_require_call]
    exact .skips_append (hhalts (isNameRest_of_mark (by decide)) hhead)
      (.skips_append (hopens (by decide)) (hreports.append_skips (hopens (by decide))))
  | function exported f xs returns =>
    have htext : (Statement.function exported f xs returns).chars =
        ((Statement.exportChars exported ++ "function".toList) ++ [' ']) ++ (f.chars ++ (['('] ++
          ((listChars xs ++ [')']) ++ Statement.bodyChars returns))) := by
      rw [Statement.chars_function]
      simp
    have hbody : requireCall.Skips (Statement.bodyChars returns) rest := by
      cases returns with
      | false => exact hopens (by decide)
      | true =>
        exact @hhalts " \x7b return null; ".toList _ _ (isNameRest_of_mark (by decide)) (by decide)
    rw [htext]
    refine reports_of_skips (.append (hhalts hblank ?_) (.append ?_ (.append (hopens (by decide))
      (.append (hhalts (isNameRest_of_mark (by decide)) ?_) hbody)))) _ _
    · cases exported <;> decide
    · simpa using skips_functionName f xs (Statement.bodyChars returns ++ rest)
    · simp only [List.forall_mem_append]
      exact ⟨forall_mem_listChars hword (by decide) xs, by decide⟩
  | arrow exported f xs e =>
    exact reports_of_skips (skips_arrow opens_requireCall halts_requireCall hword (by decide)
      (isNameRest_of_mark (by decide)) (isNameRest_of_mark (by decide)) (by decide) exported f xs e)
      _ _

/-- **Calls of `require` are found in the order of the text.** -/
theorem importsBy_requireCall (ss : List Statement) :
    importsBy (sourceChars ss) requireCall = ss.flatMap required := by
  rw [importsBy, List.filterMap_eq_flatMap_toList]
  exact flatMap_findAll_source opens_requireCall (by decide)
    (fun s ss before _ ↦ reports_requireCall s _) ss

/-! ## Import statements -/

theorem isImportClauseChar_of_isNameOrBlank {c : Char} (h : isNameOrBlank c = true) :
    isImportClauseChar c = true := by
  rcases Bool.or_eq_true_iff.1 h with h | h <;> simp [isImportClauseChar, h]

theorem isImportClauseChar_of_isIdentifierChar (c : Char) (h : isIdentifierChar c = true) :
    isImportClauseChar c = true :=
  isImportClauseChar_of_isNameOrBlank (isNameOrBlank_of_isIdentifierChar c h)

theorem isImportClauseChar_of_words {cs : List Char}
    (h : (cs.all fun c ↦ isIdentifierChar c || "\x7b\x7d,\n ".toList.contains c) = true) :
    ∀ c ∈ cs, isImportClauseChar c = true := by
  intro c hc
  rcases Bool.or_eq_true_iff.1 (List.all_eq_true.1 h c hc) with hchar | hmark
  · exact isImportClauseChar_of_isIdentifierChar c hchar
  · have hmarks : ∀ c ∈ "\x7b\x7d,\n ".toList,
        (c == '\x7b' || c == '\x7d' || c == ',' || Text.isBlank c) = true := by decide
    have hclause := hmarks c (List.contains_iff_mem.1 hmark)
    simp only [Bool.or_eq_true] at hclause
    simp only [isImportClauseChar, Bool.or_eq_true]
    tauto

/-- Of the marks only those of clauses are in a clause. -/
theorem isImportClauseChar_of_mark {c : Char} (h : c ∈ "'\"=();".toList) :
    isImportClauseChar c = false := by
  have hmarks : ∀ c ∈ "'\"=();".toList, c ∈ textMarks ∧ (c == '*' || c == '\x7b' || c == '\x7d' ||
      c == ',') = false := by decide
  obtain ⟨hmark, hclause⟩ := hmarks c h
  obtain ⟨hname, hblank⟩ := Bool.or_eq_false_iff.1 (isNameOrBlank_of_mark hmark)
  simp only [Bool.or_eq_false_iff] at hclause
  simp [isImportClauseChar, hname, hblank, hclause]

theorem isImportClauseChar_of_isQuote {c : Char} (h : isQuote c = true) :
    isImportClauseChar c = false := by
  rcases Bool.or_eq_true_iff.1 h with h | h
  · obtain rfl : c = '\'' := by simpa using h
    exact isImportClauseChar_of_mark (by decide)
  · obtain rfl : c = '"' := by simpa using h
    exact isImportClauseChar_of_mark (by decide)

/-- **Where an import fits**, a blank is next and then characters of clauses, up to the quotation
mark before the module that is reported. -/
theorem of_importStatement (h : importStatement.matchAt? (between before ahead) = some (m, stop)) :
    ∃ blank cs mark inside mark' rest, ahead = "import".toList ++ (blank :: cs ++ mark :: (inside ++
        mark' :: rest)) ∧ Text.isBlank blank = true ∧ (∀ c ∈ cs, isImportClauseChar c = true) ∧
      isQuote mark = true ∧ (∀ c ∈ inside, isQuote c = false) ∧ isQuote mark' = true ∧
      (m.group? 1).map Span.chars = some inside ∧ stop.ahead = rest := by
  have hblank {cs : List Char} (hcs : ∀ c ∈ cs, Text.isBlank c = true) :
      ∀ c ∈ cs, isImportClauseChar c = true :=
    fun c hc ↦ isImportClauseChar_of_isNameOrBlank (isNameOrBlank_of_isBlank (hcs c hc))
  have hmodule {place : Place} {before' ahead' : List Char}
      (h : quotedModule.fits ⟨between before' ahead', []⟩ (fun r ↦
        some (Match.mk (place.until r.place) r.marks, r.place)) = some (m, stop)) :
      ∃ mark inside mark' rest, ahead' = mark :: (inside ++ mark' :: rest) ∧ isQuote mark = true ∧
        (∀ c ∈ inside, isQuote c = false) ∧ isQuote mark' = true ∧
        (m.group? 1).map Span.chars = some inside ∧ stop.ahead = rest := by
    obtain ⟨mark, inside, mark', rest, span, rfl, hmark, -, hinside, hmark', hspan, hsome⟩ :=
      of_fits_quotedModule h
    obtain ⟨rfl, rfl⟩ := Prod.mk.inj (Option.some_inj.1 hsome)
    exact ⟨mark, inside, mark', rest, rfl, hmark, hinside, hmark',
      by simp [Match.group?, hspan], rfl⟩
  have hclause {place : Place} {before' ahead' : List Char}
      (h : (optional (seq [fewest1 isImportClauseChar, blanks1, word "from", blanks1])).fits
        ⟨between before' ahead', []⟩ (fun r ↦ quotedModule.fits r fun r ↦
          some (Match.mk (place.until r.place) r.marks, r.place)) = some (m, stop)) :
      ∃ cs mark inside mark' rest, ahead' = cs ++ mark :: (inside ++ mark' :: rest) ∧
        (∀ c ∈ cs, isImportClauseChar c = true) ∧ isQuote mark = true ∧
        (∀ c ∈ inside, isQuote c = false) ∧ isQuote mark' = true ∧
        (m.group? 1).map Span.chars = some inside ∧ stop.ahead = rest := by
    rcases of_fits_optional h with h | h
    · simp only [fits_seq_cons, fits_seq_nil] at h
      obtain ⟨cs, _, rfl, hcs, h₁⟩ := of_fits_fewest1 h
      obtain ⟨blanks, _, rfl, -, hblanks, h₂⟩ := of_fits_run1 h₁
      obtain ⟨_, rfl, h₃⟩ := of_fits_word h₂
      obtain ⟨blanks', _, rfl, -, hblanks', h₄⟩ := of_fits_run1 h₃
      obtain ⟨mark, inside, mark', rest, rfl, hbehind⟩ := hmodule h₄
      refine ⟨cs ++ (blanks ++ ("from".toList ++ blanks')), mark, inside, mark', rest, by simp, ?_,
        hbehind⟩
      simp only [List.forall_mem_append]
      exact ⟨hcs, hblank hblanks, isImportClauseChar_of_words (by decide), hblank hblanks'⟩
    · obtain ⟨mark, inside, mark', rest, rfl, hbehind⟩ := hmodule h
      exact ⟨[], mark, inside, mark', rest, rfl, List.forall_mem_nil _, hbehind⟩
  simp only [matchAt?, importStatement, fits_seq_cons, fits_seq_nil] at h
  obtain ⟨_, rfl, h₁⟩ := of_fits_word (of_fits_wordEdge h)
  obtain ⟨blanks, _, rfl, hne, hblanks, h₂⟩ := of_fits_run1 h₁
  obtain ⟨blank, blanks, rfl⟩ := List.exists_cons_of_ne_nil hne
  obtain ⟨hfirst, hblanks⟩ := List.forall_mem_cons.1 hblanks
  rcases of_fits_maybeWord h₂ with ⟨blanks', _, rfl, -, hblanks', h₃⟩ | h₃
  · obtain ⟨cs, mark, inside, mark', rest, rfl, hcs, hbehind⟩ := hclause h₃
    refine ⟨blank, blanks ++ ("type".toList ++ (blanks' ++ cs)), mark, inside, mark', rest, by simp,
      hfirst, ?_, hbehind⟩
    simp only [List.forall_mem_append]
    exact ⟨hblank hblanks, isImportClauseChar_of_words (by decide), hblank hblanks', hcs⟩
  · obtain ⟨cs, mark, inside, mark', rest, rfl, hcs, hbehind⟩ := hclause h₃
    exact ⟨blank, blanks ++ cs, mark, inside, mark', rest, by simp, hfirst,
      List.forall_mem_append.2 ⟨hblank hblanks, hcs⟩, hbehind⟩

theorem opens_importStatement : importStatement.Opens fun c ↦ c == 'i' := by
  intro before ahead hsome
  obtain ⟨⟨m, stop⟩, h⟩ := Option.isSome_iff_exists.1 hsome
  obtain ⟨blank, cs, mark, inside, mark', rest, rfl, -⟩ := of_importStatement h
  rfl

/-- The word for imports has a blank behind it. -/
theorem halts_importStatement : importStatement.Halts isNameRest Text.isBlank := by
  intro before ahead hsome
  obtain ⟨⟨m, stop⟩, h⟩ := Option.isSome_iff_exists.1 hsome
  obtain ⟨blank, cs, mark, inside, mark', rest, rfl, hblank, -⟩ := of_importStatement h
  rw [find?_append_of_accepts (isNameRest_of_word (by decide)), List.cons_append,
    List.find?_cons_of_pos (by simp [isNameRest_of_isBlank hblank])]
  exact hblank

/-- The first mark that does not belong to a clause is a quotation mark. -/
theorem halts_importClause : importStatement.Halts isImportClauseChar isQuote := by
  intro before ahead hsome
  obtain ⟨⟨m, stop⟩, h⟩ := Option.isSome_iff_exists.1 hsome
  obtain ⟨blank, cs, mark, inside, mark', rest, rfl, hblank, hcs, hmark, -⟩ := of_importStatement h
  have hfront : ∀ c ∈ "import".toList ++ blank :: cs, isImportClauseChar c = true := by
    simp only [List.forall_mem_append, List.forall_mem_cons]
    exact ⟨isImportClauseChar_of_words (by decide),
      isImportClauseChar_of_isNameOrBlank (isNameOrBlank_of_isBlank hblank), hcs⟩
  rw [← List.append_assoc, find?_append_of_accepts hfront,
    List.find?_cons_of_pos (by simp [isImportClauseChar_of_isQuote hmark])]
  exact hmark

/-! ## Import statements in a source -/

/-- The modules that a statement imports by an import statement. -/
def imported : Statement → List String
  | .importFrom _ m => [m.text]
  | _ => []

theorem ImportClause.isImportClauseChar (clause : ImportClause) :
    ∀ c ∈ clause.chars, isImportClauseChar c = true :=
  clause.forall_mem isImportClauseChar_of_isIdentifierChar (by decide)

theorem isQuote_quote (clause : ImportClause) : isQuote clause.quote = true := by
  cases clause with
  | default x => exact (by decide : isQuote '\'' = true)
  | named x => exact (by decide : isQuote '"' = true)

/-- The line of a class could be a part of a clause. -/
theorem isImportClauseChar_class (x : Identifier) :
    ∀ c ∈ (Statement.class x).chars ++ ['\n'], isImportClauseChar c = true := by
  rw [Statement.chars_class]
  simp only [List.forall_mem_append]
  exact ⟨⟨isImportClauseChar_of_words (by decide),
    x.forall_mem isImportClauseChar_of_isIdentifierChar, isImportClauseChar_of_words (by decide)⟩,
    isImportClauseChar_of_words (by decide)⟩

/-- A statement that is neither an import nor a class could be a part of a clause up to a mark that
is no quotation mark. -/
theorem exists_chars_eq_clause (s : Statement) :
    (∃ clause m, s = .importFrom clause m) ∨ (∃ x, s = .class x) ∨
      ∃ front mark back, s.chars = front ++ mark :: back ∧
        (∀ c ∈ front, isImportClauseChar c = true) ∧ mark ∈ "=();".toList := by
  have hname (x : Identifier) : ∀ c ∈ x.chars, isImportClauseChar c = true :=
    x.forall_mem isImportClauseChar_of_isIdentifierChar
  have hwords {t : String}
      (h : (t.toList.all fun c ↦ isIdentifierChar c || "\x7b\x7d,\n ".toList.contains c) = true) :
      ∀ c ∈ t.toList, isImportClauseChar c = true := isImportClauseChar_of_words h
  have hexport (exported : Bool) :
      ∀ c ∈ Statement.exportChars exported, isImportClauseChar c = true := by
    cases exported with
    | false => exact List.forall_mem_nil _
    | true => exact hwords (by decide)
  cases s with
  | importFrom clause m => exact .inl ⟨clause, m, rfl⟩
  | «class» x => exact .inr (.inl ⟨x, rfl⟩)
  | require x m =>
    refine .inr (.inr ⟨"const ".toList ++ (x.chars ++ " ".toList), '=',
      " require('".toList ++ (m.chars ++ "');".toList), ?_, ?_, by decide⟩)
    · rw [Statement.chars_require]
      simp
    · simp only [List.forall_mem_append]
      exact ⟨hwords (by decide), hname x, hwords (by decide)⟩
  | function exported f xs returns =>
    refine .inr (.inr ⟨Statement.exportChars exported ++ ("function ".toList ++ f.chars), '(',
      listChars xs ++ (")".toList ++ Statement.bodyChars returns), ?_, ?_, by decide⟩)
    · rw [Statement.chars_function]
      simp
    · simp only [List.forall_mem_append]
      exact ⟨hexport exported, hwords (by decide), hname f⟩
  | arrow exported f xs e =>
    refine .inr (.inr ⟨Statement.exportChars exported ++ ("const ".toList ++ (f.chars ++ " ".toList)),
      '=', ' ' :: (xs.chars ++ (" => ".toList ++ (e.chars ++ ";".toList))), ?_, ?_, by decide⟩)
    · rw [Statement.chars_arrow]
      simp
    · simp only [List.forall_mem_append]
      exact ⟨hexport exported, hwords (by decide), hname f, hwords (by decide)⟩
  | exportList a b c =>
    refine .inr (.inr ⟨"export \x7b ".toList ++ (a.chars ++ (" as ".toList ++ (b.chars ++
      (", ".toList ++ (c.chars ++ " \x7d".toList))))), ';', [], ?_, ?_, by decide⟩)
    · rw [Statement.chars_exportList]
      simp
    · simp only [List.forall_mem_append]
      exact ⟨hwords (by decide), hname a, hwords (by decide), hname b, hwords (by decide), hname c,
        hwords (by decide)⟩

/-- Where a source could go on a clause up to a quoted module, this is the module of its first import
statement. -/
theorem exists_of_sourceChars_eq {ss : List Statement} {front inside rest : List Char}
    {mark mark' : Char} (hfront : ∀ c ∈ front, isImportClauseChar c = true)
    (hmark : isQuote mark = true) (hinside : ∀ c ∈ inside, isQuote c = false)
    (hmark' : isQuote mark' = true)
    (h : sourceChars ss = front ++ mark :: (inside ++ mark' :: rest)) :
    ∃ (module : Module) (ss' : List Statement), inside = module.chars ∧ ss'.length < ss.length ∧
      rest = ";\n".toList ++ sourceChars ss' ∧
        ss.flatMap imported = module.text :: ss'.flatMap imported := by
  have houtside := isImportClauseChar_of_isQuote hmark
  induction ss generalizing front with
  | nil => simp [sourceChars] at h
  | cons s ss ih =>
    have hsource : sourceChars (s :: ss) = (s.chars ++ ['\n']) ++ sourceChars ss := List.flatMap_cons
    rcases exists_chars_eq_clause s with ⟨clause, m, rfl⟩ | ⟨x, rfl⟩ | ⟨front', mark'', back, heq, hs,
      hmark''⟩
    · have htext : sourceChars (.importFrom clause m :: ss) = ("import ".toList ++ (clause.chars ++
          " from ".toList)) ++ clause.quote :: (m.chars ++ clause.quote :: (";\n".toList ++
            sourceChars ss)) := by
        rw [hsource, Statement.chars_importFrom]
        simp
      have hclause : ∀ c ∈ "import ".toList ++ (clause.chars ++ " from ".toList),
          isImportClauseChar c = true := by
        simp only [List.forall_mem_append]
        exact ⟨isImportClauseChar_of_words (by decide), ImportClause.isImportClauseChar clause,
          isImportClauseChar_of_words (by decide)⟩
      have hquote := isQuote_quote clause
      have hmodule : ∀ c ∈ m.chars, isQuote c = false :=
        m.forall_mem isQuote_of_isIdentifierChar (by decide)
      obtain ⟨-, -, hbehind⟩ := append_cons_inj isImportClauseChar hclause
        (isImportClauseChar_of_isQuote hquote) hfront houtside (htext.symm.trans h)
      obtain ⟨hinside', -, hrest⟩ := append_cons_inj (fun c ↦ !isQuote c) (by simpa using hmodule)
        (by simpa using hquote) (by simpa using hinside) (by simpa using hmark') hbehind
      exact ⟨m, ss, hinside'.symm, Nat.lt_succ_self _, hrest.symm, rfl⟩
    · rw [hsource] at h
      obtain ⟨front', rfl, hrest⟩ :=
        exists_append_of_append_eq (isImportClauseChar_class x) houtside h
      obtain ⟨m, ss', hinside', hlength, hrest', himported⟩ :=
        ih (List.forall_mem_append.1 hfront).2 hrest
      exact ⟨m, ss', hinside', Nat.lt_succ_of_lt hlength, hrest', himported⟩
    · rw [hsource, heq, List.append_assoc, List.append_assoc, List.cons_append] at h
      have hstop : mark'' = mark := (append_cons_inj isImportClauseChar hs
        (isImportClauseChar_of_mark ((by decide : ∀ c ∈ "=();".toList, c ∈ "'\"=();".toList) _ hmark''))
        hfront houtside h).2.1
      rw [← hstop, (by decide : ∀ c ∈ "=();".toList, isQuote c = false) _ hmark''] at hmark
      exact absurd hmark (by decide)

/-- **An import statement is found with its module.** -/
theorem scan_importStatement (clause : ImportClause) (module : Module) (rest : List Char)
    {before cs : List Char} (hedge : before.head?.any Text.isWordChar = false)
    (hcs : cs = "import ".toList ++ (clause.chars ++ (" from ".toList ++ clause.quote ::
      (module.chars ++ [clause.quote])))) :
    ∃ m, importOf? m = some module.text ∧ importStatement.scan before (cs ++ rest) =
      m :: importStatement.scan (cs.reverse ++ before) rest := by
  have hquote := isQuote_quote clause
  have hmodule : ∀ c ∈ module.chars, isQuote c = false :=
    module.forall_mem isQuote_of_isIdentifierChar (by decide)
  have hclause := ImportClause.isImportClauseChar clause
  have hone : ∀ c ∈ [' '], Text.isBlank c = true := by decide
  have htext : cs ++ rest = "import".toList ++ ([' '] ++ (clause.chars ++ ([' '] ++ ("from".toList ++
      ([' '] ++ clause.quote :: (module.chars ++ clause.quote :: rest)))))) := by
    simp [hcs]
  refine exists_scan_eq_cons (by simp [hcs]) ?_ ?_
  · have hne : clause.chars ≠ [] := by
      cases clause with
      | default x => exact x.ne_nil
      | named x => simp [ImportClause.chars]
    rw [htext]
    simp only [matchAt?, importStatement, fits_seq_cons, fits_seq_nil]
    refine isSome_fits_wordEdge ?_ (isSome_fits_word (isSome_fits_run1 (by simp) hone
      (isSome_fits_absent (isSome_fits_left ?_))))
    · exact Place.atWordEdge_between hedge rfl
    · simp only [fits_seq_cons, fits_seq_nil]
      exact isSome_fits_fewest1 hne hclause (isSome_fits_run1 (by simp) hone (isSome_fits_word
        (isSome_fits_run1 (by simp) hone (isSome_fits_quotedModule hquote module.ne_nil hmodule
          hquote fun _ ↦ rfl))))
  · intro m stop h
    rw [htext] at h
    obtain ⟨blank, cs', mark, inside, mark', rest', heq, hblank, hcs', hmark, hinside, hmark', hm,
      hahead⟩ := of_importStatement h
    have hfront : ∀ c ∈ [' '] ++ (clause.chars ++ ([' '] ++ ("from".toList ++ [' ']))),
        isImportClauseChar c = true := by
      simp only [List.forall_mem_append]
      exact ⟨isImportClauseChar_of_words (by decide), hclause, isImportClauseChar_of_words (by decide),
        isImportClauseChar_of_words (by decide), isImportClauseChar_of_words (by decide)⟩
    have hfront' : ∀ c ∈ blank :: cs', isImportClauseChar c = true := List.forall_mem_cons.2
      ⟨isImportClauseChar_of_isNameOrBlank (isNameOrBlank_of_isBlank hblank), hcs'⟩
    obtain ⟨-, -, hbehind⟩ := append_cons_inj isImportClauseChar hfront
      (isImportClauseChar_of_isQuote hquote) hfront' (isImportClauseChar_of_isQuote hmark)
      (by simpa using List.append_cancel_left heq)
    obtain ⟨rfl, -, rfl⟩ := append_cons_inj (fun c ↦ !isQuote c) (by simpa using hmodule)
      (by simpa using hquote) (by simpa using hinside) (by simpa using hmark') hbehind
    exact ⟨hahead, importOf?_of_module hm⟩

/-- What an import statement is found in is its own line, except in the line of a class. -/
theorem reports_importStatement (s : Statement) (hs : ∀ x, s ≠ .class x) (rest : List Char)
    {before : List Char} (hbefore : BeforeLine before) :
    Reports importStatement (fun m ↦ (importOf? m).toList) before s.chars rest (imported s) := by
  have hopens {cs rest : List Char} (hcs : ∀ c ∈ cs, (c == 'i') = false) :
      importStatement.Skips cs rest := opens_importStatement.skips hcs
  have hhalts {cs rest : List Char} {last : Char} (hlast : last ∈ "'\"=();".toList)
      (hcs : ∀ c ∈ cs ++ [last], isQuote c = false) : importStatement.Skips (cs ++ [last]) rest :=
    halts_importClause.skips (isImportClauseChar_of_mark hlast) hcs
  have hword := isQuote_of_isIdentifierChar
  have hsemicolon : isImportClauseChar ';' = false := isImportClauseChar_of_mark (by decide)
  cases s with
  | «class» x => exact absurd rfl (hs x)
  | arrow exported f xs e =>
    exact reports_of_skips (skips_of_halts halts_importClause (.arrow exported f xs e) hword
      (by simp only [Statement.marks]; decide) hsemicolon) _ _
  | exportList a b c =>
    exact reports_of_skips (skips_of_halts halts_importClause (.exportList a b c) hword
      (by simp only [Statement.marks]; decide) hsemicolon) _ _
  | importFrom clause m =>
    have htext : (Statement.importFrom clause m).chars = ("import ".toList ++ (clause.chars ++
        (" from ".toList ++ clause.quote :: (m.chars ++ [clause.quote])))) ++ [';'] := by
      rw [Statement.chars_importFrom]
      simp
    obtain ⟨found, hfound, hscan⟩ := scan_importStatement clause m ([';'] ++ rest) hbefore.not_word rfl
    have hreports : Reports importStatement (fun m ↦ (importOf? m).toList) _ _ _ _ :=
      reports_of_scan_eq_cons hscan
    rw [hfound] at hreports
    rw [htext]
    exact hreports.append_skips (hopens (by decide))
  | require x m =>
    rw [chars_require_call]
    refine reports_of_skips (.append (hhalts (by decide) ?_) (.append (hopens (by decide))
      (halts_importStatement.skips (isNameRest_of_mark (by decide)) ?_))) _ _
    · simp only [List.forall_mem_append]
      exact ⟨⟨by decide, x.forall_mem hword, by decide⟩, by decide⟩
    · simp only [List.forall_mem_append]
      exact ⟨⟨by decide, m.forall_mem isBlank_of_isIdentifierChar (by decide), by decide⟩, by decide⟩
  | function exported f xs returns =>
    have hbody : importStatement.Skips (Statement.bodyChars returns) rest := by
      cases returns with
      | false => exact hopens (by decide)
      | true =>
        have hreturn : importStatement.Skips (" \x7b return null".toList ++ [';'] ++ " \x7d".toList)
            rest := .append (hhalts (by decide) (by decide)) (hopens (by decide))
        exact hreturn
    exact reports_of_skips (skips_function halts_importClause hword
      (isImportClauseChar_of_mark (by decide)) (isImportClauseChar_of_mark (by decide)) (by decide)
      exported f xs hbody) _ _

theorem flatMap_scan_importStatement (ss : List Statement) {before : List Char}
    (hbefore : BeforeLine before) :
    (importStatement.scan before (sourceChars ss)).flatMap (fun m ↦ (importOf? m).toList) =
      ss.flatMap imported := by
  have hopens {cs rest : List Char} (hcs : ∀ c ∈ cs, (c == 'i') = false) :
      importStatement.Skips cs rest := opens_importStatement.skips hcs
  induction hn : ss.length using Nat.strong_induction_on generalizing ss before with
  | _ n ih =>
    subst hn
    cases ss with
    | nil =>
      change (importStatement.scan before []).flatMap _ = []
      rw [opens_importStatement.scan_nil]
      rfl
    | cons s ss =>
      have hsource : sourceChars (s :: ss) = s.chars ++ (['\n'] ++ sourceChars ss) := by
        rw [sourceChars, List.flatMap_cons, List.append_assoc]
        rfl
      have hbehind {before' : List Char} :
          (importStatement.scan before' (['\n'] ++ sourceChars ss)).flatMap
            (fun m ↦ (importOf? m).toList) = ss.flatMap imported := by
        rw [hopens (by decide) before']
        exact ih _ (Nat.lt_succ_self _) ss rfl rfl
      by_cases hs : ∃ x, s = .class x
      · obtain ⟨x, rfl⟩ := hs
        rw [hsource]
        refine flatMap_scan_of_forall_suffix hbehind fun front back m stop heq hne h ↦ ?_
        obtain ⟨blank, cs, mark, inside, mark', rest, hahead, hblank, hcs, hmark, hinside, hmark', hm,
          hstop⟩ := of_importStatement h
        -- the match runs to the first module behind the class, which is that of an import statement
        have hback : ∀ c ∈ back ++ ['\n'], isImportClauseChar c = true := by
          have hclass := isImportClauseChar_class x
          rw [heq, List.append_assoc] at hclass
          exact (List.forall_mem_append.1 hclass).2
        have hfront : ∀ c ∈ "import".toList ++ blank :: cs, isImportClauseChar c = true := by
          simp only [List.forall_mem_append, List.forall_mem_cons]
          exact ⟨isImportClauseChar_of_words (by decide),
            isImportClauseChar_of_isNameOrBlank (isNameOrBlank_of_isBlank hblank), hcs⟩
        have htext : (back ++ ['\n']) ++ sourceChars ss =
            ("import".toList ++ blank :: cs) ++ mark :: (inside ++ mark' :: rest) := by
          rw [List.append_assoc, List.append_assoc]
          exact hahead
        obtain ⟨front', hfront', hsource'⟩ :=
          exists_append_of_append_eq hback (isImportClauseChar_of_isQuote hmark) htext
        rw [hfront'] at hfront
        obtain ⟨module, ss', rfl, hlength, rfl, himported⟩ := exists_of_sourceChars_eq
          (List.forall_mem_append.1 hfront).2 hmark hinside hmark' hsource'
        have hpiece : back ++ (['\n'] ++ sourceChars ss) = ("import".toList ++ (blank :: cs ++
            mark :: (module.chars ++ [mark']))) ++ (";\n".toList ++ sourceChars ss') := by
          rw [hahead]
          simp
        have hfeed {before' : List Char} : BeforeLine (";\n".toList.reverse ++ before') := rfl
        rw [hpiece] at h ⊢
        rw [scan_eq_cons (by simp) h hstop, List.flatMap_cons, importOf?_of_module hm,
          hopens (by decide), ih _ (Nat.lt_succ_of_lt hlength) ss' hfeed rfl]
        exact himported.symm
      · have hline := reports_importStatement s (fun x hx ↦ hs ⟨x, hx⟩) (['\n'] ++ sourceChars ss)
          hbefore
        rw [hsource, hline, hbehind, List.flatMap_cons]

/-- **Import statements are found in the order of the text.** -/
theorem importsBy_importStatement (ss : List Statement) :
    importsBy (sourceChars ss) importStatement = ss.flatMap imported := by
  rw [importsBy, List.filterMap_eq_flatMap_toList]
  exact flatMap_scan_importStatement ss rfl

end

end Rules

end Outline

end ChangeContext
