import ChangeContext.Proofs.Outline.PatternParts

/-!
# Function declarations found by their pattern

The pattern for function declarations goes past names and blanks to the first mark, and that is where
it can go wrong: the word it looks for may stand anywhere, in an identifier or in the name of a
module.  In the common statements the first mark behind such a word is never a parenthesis that
opens, unless the word begins a declaration.  So the pattern finds the function declarations of a
source, each with its name and its parameters, and nothing else.
-/

set_option autoImplicit false

namespace ChangeContext

namespace Outline

namespace Rules

open Pattern
open Place (between)
open Text (append_cons_inj)

section

variable {before ahead : List Char} {m : Match} {stop : Place}

/-- What a function pattern reports of a match. -/
def functionOf? (m : Match) : Option (String × List Char) :=
  (m.group? 1).map fun name ↦ (name.text, ((m.firstGroup? [2, 3, 4]).map Span.chars).getD [])

/-- A mark that a function declaration can have behind its first names and blanks. -/
def stopsDeclaration (c : Char) : Bool :=
  "*<(".toList.contains c

theorem stopsDeclaration_of_isIdentifierChar (c : Char) (h : isIdentifierChar c = true) :
    stopsDeclaration c = false :=
  contains_of_isIdentifierChar (by decide) c h

/-- **Where a function declaration fits**, the first mark is a star, or it opens type parameters, or it
opens the parameters that are reported with the name before them. -/
theorem of_functionDeclaration
    (h : functionDeclaration.matchAt? (between before ahead) = some (m, stop)) :
    ∃ cs mark rest, ahead = cs ++ mark :: rest ∧ (∀ c ∈ cs, isNameOrBlank c = true) ∧
      (mark = '*' ∨ mark = '<' ∨ mark = '(' ∧ ∃ blanks name blanks' params rest',
        cs = "function".toList ++ (blanks ++ (name ++ blanks')) ∧
        (∀ c ∈ blanks, Text.isBlank c = true) ∧ name.head?.any isNameStart = true ∧
        (∀ c ∈ name, isNameRest c = true) ∧ (∀ c ∈ blanks', Text.isBlank c = true) ∧
        rest = params ++ ')' :: rest' ∧ (∀ c ∈ params, c ≠ ')') ∧
        functionOf? m = some (String.ofList name, params) ∧ stop.ahead = rest') := by
  simp only [matchAt?, functionDeclaration, fits_seq_cons, fits_mark, fits_seq_nil] at h
  obtain ⟨_, rfl, h₁⟩ := of_fits_word (of_fits_wordEdge h)
  obtain ⟨blanks₁, _, rfl, hblanks₁, h₂⟩ := of_fits_run h₁
  have hfunction : ∀ c ∈ "function".toList, isNameOrBlank c = true :=
    isNameOrBlank_of_words (by decide)
  rcases of_fits_optional h₂ with hstar | h₂
  · obtain ⟨rest, rfl, -⟩ := of_fits_char hstar
    exact ⟨"function".toList ++ blanks₁, '*', rest, by simp,
      List.forall_mem_append.2 ⟨hfunction, isNameOrBlank_of_forall_isBlank hblanks₁⟩, .inl rfl⟩
  · obtain ⟨blanks₂, _, rfl, hblanks₂, h₃⟩ := of_fits_run h₂
    obtain ⟨name, _, rfl, hhead, hname, h₄⟩ := of_fits_name h₃
    obtain ⟨blanks₃, _, rfl, hblanks₃, h₅⟩ := of_fits_run h₄
    have hfront : ∀ c ∈ "function".toList ++ (blanks₁ ++ blanks₂ ++ (name ++ blanks₃)),
        isNameOrBlank c = true := by
      simp only [List.forall_mem_append]
      exact ⟨hfunction, ⟨isNameOrBlank_of_forall_isBlank hblanks₁, isNameOrBlank_of_forall_isBlank hblanks₂⟩,
        fun c hc ↦ isNameOrBlank_of_isNameRest (hname c hc), isNameOrBlank_of_forall_isBlank hblanks₃⟩
    rcases of_fits_optional h₅ with htype | h₆
    · rw [fits_seq_cons] at htype
      obtain ⟨rest, rfl, -⟩ := of_fits_char htype
      exact ⟨_, '<', rest, by simp, hfront, .inr (.inl rfl)⟩
    · obtain ⟨blanks₄, _, rfl, hblanks₄, h₇⟩ := of_fits_run h₆
      obtain ⟨params, rest, span, rfl, hparams, hspan, hsome⟩ := of_fits_parens h₇
      obtain ⟨rfl, rfl⟩ := Prod.mk.inj (Option.some_inj.1 hsome)
      refine ⟨"function".toList ++ (blanks₁ ++ blanks₂ ++ (name ++ (blanks₃ ++ blanks₄))), '(',
        params ++ ')' :: rest, by simp, ?_, .inr (.inr ⟨rfl, blanks₁ ++ blanks₂, name,
          blanks₃ ++ blanks₄, params, rest, rfl, ?_, hhead, hname, ?_, rfl, hparams, ?_, rfl⟩)⟩
      · simp only [List.forall_mem_append] at hfront ⊢
        exact ⟨hfront.1, hfront.2.1, hfront.2.2.1, hfront.2.2.2, isNameOrBlank_of_forall_isBlank hblanks₄⟩
      · exact List.forall_mem_append.2 ⟨hblanks₁, hblanks₂⟩
      · exact List.forall_mem_append.2 ⟨hblanks₃, hblanks₄⟩
      · simp [functionOf?, Match.group?, Match.firstGroup?, List.lookup_cons, Span.text, hspan,
          Place.chars_until_between]

theorem opens_functionDeclaration : functionDeclaration.Opens fun c ↦ c == 'f' := by
  intro before ahead h
  obtain ⟨⟨m, stop⟩, h⟩ := Option.isSome_iff_exists.1 h
  simp only [matchAt?, functionDeclaration, fits_seq_cons] at h
  obtain ⟨rest, rfl, -⟩ := of_fits_word (of_fits_wordEdge h)
  rfl

theorem halts_functionDeclaration : functionDeclaration.Halts isNameOrBlank stopsDeclaration := by
  intro before ahead h
  obtain ⟨⟨m, stop⟩, h⟩ := Option.isSome_iff_exists.1 h
  obtain ⟨cs, mark, rest, rfl, hcs, hmark⟩ := of_functionDeclaration h
  have hstop : isNameOrBlank mark = false ∧ stopsDeclaration mark = true := by
    rcases hmark with rfl | rfl | ⟨rfl, -⟩ <;> exact ⟨isNameOrBlank_of_mark (by decide), by decide⟩
  rw [find?_append_of_accepts hcs, List.find?_cons_of_pos (by simp [hstop.1])]
  exact hstop.2

/-- **A function declaration is found with its name and parameters.** -/
theorem scan_functionDeclaration {f params : List Char} (hf : IsName f)
    (hclose : ∀ c ∈ params, c ≠ ')') (rest : List Char) {before : List Char}
    (hedge : before.head?.any Text.isWordChar = false) :
    ∃ m, functionOf? m = some (String.ofList f, params) ∧
      functionDeclaration.scan before
          ("function ".toList ++ (f ++ '(' :: (params ++ [')'])) ++ rest) =
        m :: functionDeclaration.scan
          (("function ".toList ++ (f ++ '(' :: (params ++ [')']))).reverse ++ before) rest := by
  have htext : "function ".toList ++ (f ++ '(' :: (params ++ [')'])) ++ rest =
      "function".toList ++ ([' '] ++ (f ++ '(' :: (params ++ ')' :: rest))) := by
    simp
  refine exists_scan_eq_cons (by simp) ?_ ?_
  · rw [htext]
    simp only [matchAt?, functionDeclaration, fits_seq_cons, fits_mark, fits_seq_nil]
    refine isSome_fits_wordEdge ?_ (isSome_fits_word (isSome_fits_run (by decide)
      (isSome_fits_absent (isSome_fits_run_nil (isSome_fits_name hf (isSome_fits_run_nil
        (isSome_fits_absent (isSome_fits_run_nil (isSome_fits_parens hclose fun _ ↦ rfl)))))))))
    exact Place.atWordEdge_between hedge rfl
  · intro m stop h
    rw [htext] at h
    obtain ⟨cs, mark, rest', heq, hcs, hmark⟩ := of_functionDeclaration h
    have hfront : ∀ c ∈ "function".toList ++ ' ' :: f, isNameOrBlank c = true := by
      simp only [List.forall_mem_append, List.forall_mem_cons]
      exact ⟨isNameOrBlank_of_words (by decide), isNameOrBlank_of_isBlank (by decide),
        fun c hc ↦ isNameOrBlank_of_isNameRest (hf.all c hc)⟩
    have hstop : isNameOrBlank mark = false := by
      rcases hmark with rfl | rfl | ⟨rfl, -⟩ <;> exact isNameOrBlank_of_mark (by decide)
    have hparen : isNameOrBlank '(' = false := isNameOrBlank_of_mark (by decide)
    obtain ⟨rfl, rfl, rfl⟩ :=
      append_cons_inj isNameOrBlank hfront hparen hcs hstop (by simpa using heq)
    obtain ⟨-, blanks, name, blanks', params', rest'', heq, hblanks, hhead, hname, hblanks', hparams,
      hparamsClose, hreport, hahead⟩ := (hmark.resolve_left (by decide)).resolve_left (by decide)
    obtain rfl : name = f :=
      eq_of_blanks_name hblanks hhead hname hf hblanks' (List.forall_mem_nil _)
        (by simpa using (List.append_cancel_left heq).symm)
    obtain ⟨rfl, -, rfl⟩ := append_cons_inj (· ≠ ')') (by simpa using hclose) (by decide)
      (by simpa using hparamsClose) (by decide) hparams
    exact ⟨hahead, hreport⟩

theorem reports_functionDeclaration (s : Statement) (rest : List Char) {before : List Char}
    (hbefore : BeforeLine before) :
    Reports functionDeclaration (fun m ↦ (functionOf? m).toList) before s.chars rest
      s.function?.toList := by
  have hword := stopsDeclaration_of_isIdentifierChar
  have hwhole {s : Statement} (hmarks : ∀ c ∈ s.marks, stopsDeclaration c = false) :
      Reports functionDeclaration (fun m ↦ (functionOf? m).toList) before s.chars rest [] :=
    reports_of_skips (skips_of_halts halts_functionDeclaration s hword hmarks
      (isNameOrBlank_last s)) _ _
  have hskips {cs rest : List Char} {last : Char} (hlast : isNameOrBlank last = false)
      (hcs : ∀ c ∈ cs ++ [last], stopsDeclaration c = false) :
      functionDeclaration.Skips (cs ++ [last]) rest := halts_functionDeclaration.skips hlast hcs
  have hsemicolon : isNameOrBlank ';' = false := isNameOrBlank_of_mark (by decide)
  have hequals : isNameOrBlank '=' = false := isNameOrBlank_of_mark (by decide)
  have hbrace : isNameOrBlank '\x7d' = false := isNameOrBlank_of_mark (by decide)
  cases s with
  | importFrom clause m => exact hwhole (by simp only [Statement.marks]; decide)
  | «class» x => exact hwhole (by simp only [Statement.marks]; decide)
  | exportList a b c => exact hwhole (by simp only [Statement.marks]; decide)
  | require x m =>
    have htext : (Statement.require x m).chars =
        ("const ".toList ++ (x.chars ++ [' ']) ++ ['=']) ++
          (" require(".toList ++ (('\'' :: (m.chars ++ "')".toList)) ++ [';'])) := by
      rw [Statement.chars_require]
      simp
    rw [htext]
    refine .skips_append (hskips hequals ?_)
      (.skips_append (opens_functionDeclaration.skips (by decide))
        (reports_of_skips (hskips hsemicolon ?_) _ _))
    · simp only [List.forall_mem_append]
      exact ⟨⟨by decide, x.forall_mem hword, by decide⟩, by decide⟩
    · simp only [List.forall_mem_append, List.forall_mem_cons]
      exact ⟨⟨by decide, m.forall_mem hword (by decide), by decide⟩, by decide⟩
  | arrow exported f xs e =>
    exact reports_of_skips (skips_arrow opens_functionDeclaration halts_functionDeclaration hword
      (by decide) hequals hsemicolon (by decide) exported f xs e) _ _
  | function exported f xs returns =>
    have htext : (Statement.function exported f xs returns).chars =
        Statement.exportChars exported ++
          (("function ".toList ++ (f.chars ++ '(' :: (listChars xs ++ [')']))) ++
            Statement.bodyChars returns) := by
      rw [Statement.chars_function]
      simp
    have hclose : ∀ c ∈ listChars xs, c ≠ ')' :=
      forall_mem_listChars (ne_of_isIdentifierChar (by decide)) (by decide) xs
    obtain ⟨m, hm, hscan⟩ := scan_functionDeclaration (isName_chars f) hclose
      (Statement.bodyChars returns ++ rest) (hbefore.not_word_exportChars exported)
    have hbody : functionDeclaration.Skips (Statement.bodyChars returns) rest := by
      cases returns with
      | false => exact @hskips " \x7b".toList _ _ hbrace (by decide)
      | true => exact @hskips " \x7b return null; ".toList _ _ hbrace (by decide)
    have hreports : Reports functionDeclaration (fun m ↦ (functionOf? m).toList) _ _ _ _ :=
      reports_of_scan_eq_cons hscan
    rw [hm] at hreports
    rw [htext]
    refine .skips_append (opens_functionDeclaration.skips ?_) (hreports.append_skips hbody)
    cases exported <;> decide

/-- **Function declarations are found in the order of the text.** -/
theorem functionsBy_functionDeclaration (ss : List Statement) :
    functionsBy (sourceChars ss) functionDeclaration = ss.filterMap Statement.function? := by
  rw [List.filterMap_eq_flatMap_toList, ← flatMap_findAll_source opens_functionDeclaration (by decide)
    fun s ss before hbefore ↦ reports_functionDeclaration s _ hbefore]
  exact List.filterMap_eq_flatMap_toList ..

end

end Rules

end Outline

end ChangeContext
