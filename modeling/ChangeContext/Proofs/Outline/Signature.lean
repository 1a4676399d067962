import ChangeContext.Proofs.Outline.Agreement
import ChangeContext.Proofs.Pattern.Search
import ChangeContext.Proofs.Text.Trim

/-!
# The parameters that the patterns see

A parameter list may hold parentheses of its own: those of a callback's type, or of a call that gives
a default.  For the patterns it ends at the first that closes (`Rules.seen`).  So of a function they
file what stands before that, and they go on searching behind it.

Whatever the parameters are, the function itself is filed, as the first of its name
(`get?_functions_functionText`).  Other functions are filed with it only where the parameters look
like a declaration (`Rules.DeclaresNothing`), and nothing is filed under what the patterns do not take
for a name (`isName_of_get?_functions`).
-/

set_option autoImplicit false

namespace ChangeContext

namespace Outline

theorem mem_of_lookup_eq_some {α β : Type} [BEq α] [LawfulBEq α] {l : List (α × β)} {k : α} {v : β}
    (h : l.lookup k = some v) : (k, v) ∈ l := by
  obtain ⟨front, back, rfl, -⟩ := List.lookup_eq_some_iff.1 h
  exact List.mem_append_right _ List.mem_cons_self

namespace Rules

open Pattern
open Place (between)

variable {f params cs w before ahead text : List Char} {p : Pattern}

/-! ## Names are names -/

/-- What is marked as the name of a function of a script is a name. -/
theorem marked_functions (hp : p ∈ script.functions) : p.marked 1 = [name] := by
  rcases List.mem_pair.1 hp with rfl | rfl <;> rfl

theorem isName_of_reaches {r r' : Reached} (h : name.Reaches r r') :
    IsName (r.place.until r'.place).chars := by
  obtain ⟨between, ⟨c, hc, hfirst, -⟩, cs, hcs, hrest, -⟩ := h
  rw [(hfirst.trans hrest).chars_until]
  exact ⟨by simpa using hc, List.forall_mem_cons.2 ⟨isNameRest_of_isNameStart hc, hcs⟩⟩

/-- **Functions are found under names only.** -/
theorem isName_of_mem_functionsBy {entry : String × List Char} (hp : p ∈ script.functions)
    (h : entry ∈ functionsBy text p) : IsName entry.1.toList := by
  obtain ⟨m, hm, hentry⟩ := List.mem_filterMap.1 h
  obtain ⟨span, hspan, rfl⟩ := Option.map_eq_some_iff.1 hentry
  obtain ⟨place, r, -, hreaches, rfl⟩ := matches_of_mem_findAll hm
  rcases hreaches.of_mem_marks (mem_of_lookup_eq_some hspan) with
    hnone | ⟨q, hq, r₁, r₂, hname, rfl⟩
  · exact absurd hnone List.not_mem_nil
  · rw [marked_functions hp] at hq
    obtain rfl := List.mem_singleton.1 hq
    rw [Span.text, String.toList_ofList]
    exact isName_of_reaches hname

/-! ## Parameters and what stands behind them -/

/-- The parameters as far as the patterns see them, which is up to the first parenthesis that
closes. -/
def seen (params : List Char) : List Char :=
  params.takeWhile (· ≠ ')')

/-- The parameters from the first parenthesis on that closes. -/
def unseen (params : List Char) : List Char :=
  params.dropWhile (· ≠ ')')

/-- What stands behind the parameters of a function that does nothing. -/
def emptyBody : List Char :=
  ") \x7b\x7d".toList

/-- A function that does nothing, with these parameters. -/
def functionChars (f params : List Char) : List Char :=
  "function ".toList ++ f ++ ['('] ++ params ++ emptyBody

/-- A word begins in the text where no other word goes on. -/
def HasWord (w cs : List Char) : Prop :=
  ∃ front back, cs = front ++ back ∧ front.getLast?.any Text.isWordChar = false ∧ w <+: back

/-- A word for a variable, with a blank behind it. -/
def IsVariableWord (w : List Char) : Prop :=
  ∃ keyword ∈ ["const", "let", "var"], ∃ blank, Text.isBlank blank = true ∧
    w = keyword.toList ++ [blank]

/-- Nothing in the parameters of a function looks like the declaration of another: there is no word
for a function where the patterns go on searching, and no word for a variable. -/
structure DeclaresNothing (params : List Char) : Prop where
  noFunction : ¬ HasWord "function".toList (unseen params)
  noVariable : ∀ w, IsVariableWord w → ¬ HasWord w params

theorem ne_close_of_mem_seen {c : Char} (h : c ∈ seen params) : c ≠ ')' := by
  simpa using List.mem_takeWhile_imp h

/-- A closing parenthesis follows what the patterns see. -/
theorem exists_unseen_append_eq (params : List Char) :
    ∃ behind, unseen params ++ emptyBody = ')' :: behind := by
  cases hunseen : unseen params with
  | nil => exact ⟨_, rfl⟩
  | cons c rest =>
    have hhead := List.head?_dropWhile_not (· ≠ ')') params
    rw [show params.dropWhile (· ≠ ')') = c :: rest from hunseen] at hhead
    obtain rfl : c = ')' := by simpa using hhead
    exact ⟨_, rfl⟩

theorem HasWord.subset (h : HasWord w cs) : w ⊆ cs := by
  obtain ⟨front, back, rfl, -, hbegins⟩ := h
  exact fun c hc ↦ List.mem_append_right _ (hbegins.subset hc)

/-- A function that does nothing has no words behind its parameters. -/
theorem HasWord.of_append (h : HasWord w (cs ++ emptyBody)) (hhead : w.head?.any Text.isWordChar = true)
    (hclose : ')' ∉ w) : HasWord w cs := by
  obtain ⟨front, back, heq, hedge, hbegins⟩ := h
  rcases List.append_eq_append_iff.1 heq with ⟨front', -, hbody⟩ | ⟨back', rfl, rfl⟩
  · -- the word would stand in the body
    obtain ⟨c, w, rfl⟩ := List.exists_cons_of_ne_nil (l := w) (by rintro rfl; simp at hhead)
    have hmem : c ∈ emptyBody := by
      rw [hbody]
      exact List.mem_append_right _ (hbegins.subset List.mem_cons_self)
    have hnone : ∀ c ∈ emptyBody, Text.isWordChar c = false := by decide
    rw [List.head?_cons, Option.any_some, hnone c hmem] at hhead
    exact absurd hhead Bool.false_ne_true
  · refine ⟨front, back', rfl, hedge, ?_⟩
    rcases List.prefix_or_prefix_of_prefix hbegins (List.prefix_append _ _) with h | ⟨rest, rfl⟩
    · exact h
    · have hrest : rest <+: ')' :: " \x7b\x7d".toList := (List.prefix_append_right_inj _).1 hbegins
      rcases List.prefix_cons_iff.1 hrest with rfl | ⟨rest', rfl, -⟩
      · simp
      · exact absurd (List.mem_append_right _ List.mem_cons_self) hclose

/-- A word that begins behind a closing parenthesis begins where no other goes on. -/
theorem HasWord.cons (h : HasWord w cs) : HasWord w (')' :: cs) := by
  obtain ⟨front, back, rfl, hedge, hbegins⟩ := h
  refine ⟨')' :: front, back, rfl, ?_, hbegins⟩
  cases front using List.reverseRecOn with
  | nil => exact (Bool.or_eq_false_iff.1 (isNameRest_of_mark (by decide))).1
  | append_singleton front c => simpa [List.getLast?_cons] using hedge

/-- What begins with a word is not found in a text that has no such word. -/
theorem scan_eq_nil_of_words {words : List Char → Prop}
    (hp : ∀ before ahead, (p.matchAt? (between before ahead)).isSome = true →
      before.head?.any Text.isWordChar = false ∧ ∃ w, words w ∧ w <+: ahead)
    (hcs : ∀ w, words w → ¬ HasWord w cs) (before : List Char) : p.scan before cs = [] := by
  refine scan_eq_nil fun front back heq ↦ ?_
  by_contra hsome
  obtain ⟨hedge, w, hw, hbegins⟩ := hp _ _ (Option.isSome_iff_ne_none.2 hsome)
  refine hcs w hw ⟨front, back, heq, ?_, hbegins⟩
  cases front using List.reverseRecOn with
  | nil => rfl
  | append_singleton front c => simpa using hedge

/-! ## The functions that are found -/

theorem not_word_of_atWordEdge (hedge : (between before cs).atWordEdge = true)
    (hhead : cs.head?.any Text.isWordChar = true) : before.head?.any Text.isWordChar = false := by
  change (before.head?.any Text.isWordChar != cs.head?.any Text.isWordChar) = true at hedge
  rw [hhead] at hedge
  simpa using hedge

/-- Where a function declaration fits, the word for a function begins. -/
theorem word_of_functionDeclaration (before ahead : List Char)
    (h : (functionDeclaration.matchAt? (between before ahead)).isSome = true) :
    before.head?.any Text.isWordChar = false ∧ ∃ w, w = "function".toList ∧ w <+: ahead := by
  obtain ⟨found, h⟩ := Option.isSome_iff_exists.1 h
  simp only [matchAt?, functionDeclaration, fits_seq_cons] at h
  obtain ⟨hedge, hword⟩ := Option.ite_none_right_eq_some.1 h
  obtain ⟨rest, rfl, -⟩ := of_fits_word hword
  exact ⟨not_word_of_atWordEdge hedge rfl, _, rfl, List.prefix_append _ _⟩

theorem head_of_keyword {keyword : String} (h : keyword ∈ ["const", "let", "var"])
    (rest : List Char) : (keyword.toList ++ rest).head?.any Text.isWordChar = true := by
  simp only [List.mem_cons, List.not_mem_nil, or_false] at h
  rcases h with rfl | rfl | rfl <;> rfl

theorem IsVariableWord.head (h : IsVariableWord w) : w.head?.any Text.isWordChar = true := by
  obtain ⟨keyword, hkeyword, blank, -, rfl⟩ := h
  exact head_of_keyword hkeyword _

theorem IsVariableWord.notMem (h : IsVariableWord w) : ')' ∉ w := by
  obtain ⟨keyword, hkeyword, blank, hblank, rfl⟩ := h
  have hkeywords : ∀ keyword ∈ ["const", "let", "var"], ')' ∉ keyword.toList := by decide
  intro hclose
  rcases List.mem_append.1 hclose with hmem | hmem
  · exact hkeywords keyword hkeyword hmem
  · obtain rfl := List.mem_singleton.1 hmem
    exact absurd hblank (by decide)

/-- Where a variable that holds a function fits, a word for a variable begins. -/
theorem word_of_functionVariable (before ahead : List Char)
    (h : (functionVariable.matchAt? (between before ahead)).isSome = true) :
    before.head?.any Text.isWordChar = false ∧ ∃ w, IsVariableWord w ∧ w <+: ahead := by
  obtain ⟨found, h⟩ := Option.isSome_iff_exists.1 h
  simp only [matchAt?, functionVariable, fits_seq_cons] at h
  obtain ⟨hedge, h₁⟩ := Option.ite_none_right_eq_some.1 h
  obtain ⟨p, hp, h₂⟩ := of_fits_oneOf (List.cons_ne_nil _ _) h₁
  obtain ⟨keyword, hkeyword, rfl⟩ : ∃ keyword ∈ ["const", "let", "var"], p = word keyword := by
    simpa using hp
  obtain ⟨_, rfl, h₃⟩ := of_fits_word h₂
  obtain ⟨blanks, rest, rfl, hne, hblanks, -⟩ := of_fits_run1 h₃
  obtain ⟨blank, blanks, rfl⟩ := List.exists_cons_of_ne_nil hne
  exact ⟨not_word_of_atWordEdge hedge (head_of_keyword hkeyword _), _,
    ⟨keyword, hkeyword, blank, (List.forall_mem_cons.1 hblanks).1, rfl⟩, ⟨blanks ++ rest, by simp⟩⟩

/-- **The function itself is what is found first**, with the parameters that are seen. -/
theorem exists_functionsBy_functionDeclaration (hf : IsName f) (params : List Char) :
    ∃ others, functionsBy (functionChars f params) functionDeclaration =
        (String.ofList f, seen params) :: others ∧
      (¬ HasWord "function".toList (unseen params) → others = []) := by
  obtain ⟨behind, hbehind⟩ := exists_unseen_append_eq params
  have hparams : params ++ emptyBody = seen params ++ ')' :: behind := by
    rw [← hbehind, ← List.append_assoc, seen, unseen, List.takeWhile_append_dropWhile]
  have htext : functionChars f params =
      "function ".toList ++ (f ++ '(' :: (seen params ++ [')'])) ++ behind := by
    unfold functionChars
    generalize "function ".toList = word
    rw [List.append_assoc, hparams]
    simp
  have hedge : ([] : List Char).head?.any Text.isWordChar = false := rfl
  have hclose : ∀ c ∈ seen params, c ≠ ')' := fun c ↦ ne_close_of_mem_seen
  obtain ⟨m, hm, hscan⟩ := scan_functionDeclaration hf hclose behind hedge
  have hfound := (congrArg (List.filterMap functionOf?) hscan).trans (List.filterMap_cons_some hm)
  rw [← htext] at hfound
  refine ⟨_, hfound, fun hnone ↦ ?_⟩
  rw [scan_eq_nil_of_words word_of_functionDeclaration, List.filterMap_nil]
  rintro w rfl hhas
  have hclosed := hhas.cons
  rw [← hbehind] at hclosed
  exact hnone (hclosed.of_append (by decide) (by decide))

theorem stopsVariable_of_isNameRest {c : Char} (h : isNameRest c = true) :
    stopsVariable c = false := by
  have hstops : ∀ c ∈ ":=".toList, isNameRest c = false := by decide
  by_contra hstop
  rw [hstops c (List.contains_iff_mem.1 (Bool.not_eq_false _ ▸ hstop))] at h
  exact absurd h Bool.false_ne_true

/-- No variable is found where none is declared. -/
theorem functionsBy_functionVariable_eq_nil (hf : IsName f) (h : DeclaresNothing params) :
    functionsBy (functionChars f params) functionVariable = [] := by
  have hstops : ∀ c ∈ "function ".toList ++ f ++ ['('], stopsVariable c = false := by
    simp only [List.forall_mem_append]
    exact ⟨⟨by decide, fun c hc ↦ stopsVariable_of_isNameRest (hf.all c hc)⟩, by decide⟩
  have hskips : functionVariable.Skips ("function ".toList ++ f ++ ['(']) (params ++ emptyBody) :=
    halts_functionVariable.skips (isNameOrBlank_of_mark (by decide)) hstops
  have htext : functionChars f params = "function ".toList ++ f ++ ['('] ++ (params ++ emptyBody) :=
    List.append_assoc ..
  have hscan : functionVariable.findAll (functionChars f params) = [] := by
    rw [findAll_eq_scan, htext, hskips]
    exact scan_eq_nil_of_words word_of_functionVariable
      (fun w hw hhas ↦ h.noVariable w hw (hhas.of_append hw.head hw.notMem)) _
  rw [functionsBy, hscan, List.filterMap_nil]

end Rules

open Rules

/-! ## The functions that are filed -/

theorem Rules.functions_outline (rules : Rules) (source : String) :
    (rules.outline source).functions =
      fileFunctions (rules.functions.flatMap (functionsBy source.toList)) ∅ := by
  simp only [outline, foldl_addFunction, foldl_addImport, foldl_addExport]
  split <;> rfl

theorem insideParens?_of_notMem {cs : List Char} (h : ')' ∉ cs) : insideParens? cs = none := by
  unfold insideParens?
  split
  next rest =>
    exact if_neg fun hlast ↦ h (List.mem_cons_of_mem _ (List.mem_of_getLast? hlast))
  next => rfl

/-- What the patterns see has no parentheses around it to be dropped. -/
theorem stripParens_seen (params : List Char) :
    stripParens (seen params) = Text.trim (seen params) := by
  have hclose : ')' ∉ Text.trim (seen params) :=
    fun hmem ↦ ne_close_of_mem_seen (Text.trimWhile_subset _ _ hmem) rfl
  rw [stripParens, insideParens?_of_notMem hclose]
  exact Text.trimWhile_trimWhile _ _

/-- The parameters of a function that are filed, if these are written. -/
def filedParams (params : String) : String :=
  String.ofList (Text.trim (seen params.toList))

/-- A function that does nothing, with these parameters. -/
def functionText (f params : String) : String :=
  "function " ++ f ++ "(" ++ params ++ ") \x7b\x7d"

theorem toList_functionText (f params : String) :
    (functionText f params).toList = functionChars f.toList params.toList := by
  simp only [functionText, String.toList_append]
  rfl

section Script

variable {f params : String}

/-- **The function is filed** with what is seen of its parameters. -/
theorem get?_functions_functionText (hf : IsName f.toList) (params : String) :
    (script.outline (functionText f params)).functions.get? f = some (filedParams params) := by
  obtain ⟨others, hfound, -⟩ := exists_functionsBy_functionDeclaration hf params.toList
  rw [functions_outline, get?_fileFunctions, toList_functionText, script, List.flatMap_cons, hfound,
    List.cons_append, String.ofList_toList, List.lookup_cons_self, Option.map_some, stripParens_seen,
    filedParams]

/-- **Nothing else is filed** where the parameters declare nothing. -/
theorem functions_functionText (hf : IsName f.toList) (h : DeclaresNothing params.toList) :
    (script.outline (functionText f params)).functions =
      (∅ : NameMap String).insertIfNew f (filedParams params) := by
  obtain ⟨others, hfound, hothers⟩ := exists_functionsBy_functionDeclaration hf params.toList
  rw [functions_outline, toList_functionText, script, List.flatMap_cons, List.flatMap_cons,
    List.flatMap_nil, hfound, hothers h.noFunction, functionsBy_functionVariable_eq_nil hf h,
    List.append_nil, List.append_nil, fileFunctions, List.map_singleton, String.ofList_toList,
    stripParens_seen]
  rfl

theorem eq_of_get?_functions {name filed : String} (hf : IsName f.toList)
    (h : DeclaresNothing params.toList)
    (hget : (script.outline (functionText f params)).functions.get? name = some filed) :
    name = f := by
  by_contra hne
  rw [functions_functionText hf h, NameMap.get?_insertIfNew, if_neg hne, NameMap.get?_empty] at hget
  exact Option.some_ne_none _ hget.symm

/-- **What is filed under anything is filed under a name.** -/
theorem isName_of_get?_functions {source name params : String}
    (h : (script.outline source).functions.get? name = some params) : IsName name.toList := by
  rw [functions_outline, get?_fileFunctions] at h
  obtain ⟨params, hlookup, -⟩ := Option.map_eq_some_iff.1 h
  obtain ⟨p, hp, hentry⟩ := List.mem_flatMap.1 (mem_of_lookup_eq_some hlookup)
  exact isName_of_mem_functionsBy hp hentry

end Script

end Outline

end ChangeContext
