import ChangeContext.Proofs.Outline.PatternParts
import ChangeContext.Proofs.Text.Trim

/-!
# Export lists found by their pattern

An export list is the word for exports with a brace behind it, and everything up to the closing brace
is in the list.  The same can be read where an identifier that ends in that word names a class: the
braces of the class then are a list of nothing, and no name comes of it.

The names of a list are found by what stands behind the last `as` of each item, after the word for
types has been dropped at its front.  Where an item renames something that is itself called `type`,
that word is dropped too, and what is left has no `as` in it with blanks on both sides.
-/

set_option autoImplicit false

namespace ChangeContext

namespace Outline

namespace Rules

open Pattern
open Place (between)
open Text (append_cons_inj)

/-! ## The names of a list -/

section Names

/-- The name under which the pattern finds the first item of an export list. -/
def foundName (a b : Identifier) : String :=
  if a.text = "type" then "as " ++ b.text else b.text

theorem dropTypeWords_of_ne {cs : List Char} (h : ∀ rest, cs ≠ "type".toList ++ ' ' :: rest) :
    dropTypeWords cs = cs := by
  unfold dropTypeWords
  split
  next rest => exact absurd rfl (h rest)
  next => rfl

theorem isPrefixOf?_of_ne {c : Char} (hc : c ≠ ' ') (cs : List Char) :
    " as ".toList.isPrefixOf? (c :: cs) = none := by
  have hfirst : (' ' == c) = false := by simpa using hc.symm
  simp [List.isPrefixOf?, hfirst]

/-- What has no blank in it makes no difference to what comes behind the separator. -/
theorem afterLast?_append {cs rest : List Char} (hcs : ∀ c ∈ cs, c ≠ ' ') :
    afterLast? " as ".toList (cs ++ rest) = afterLast? " as ".toList rest := by
  induction cs with
  | nil => rfl
  | cons c cs ih =>
    obtain ⟨hc, hcs⟩ := List.forall_mem_cons.1 hcs
    rw [List.cons_append, afterLast?, ih hcs, isPrefixOf?_of_ne hc]
    cases afterLast? " as ".toList rest <;> rfl

/-- Without a blank there is no separator. -/
theorem afterLast?_of_forall {cs : List Char} (hcs : ∀ c ∈ cs, c ≠ ' ') :
    afterLast? " as ".toList cs = none := by
  rw [← List.append_nil cs, afterLast?_append hcs]
  rfl

/-- The separator has a blank at either end, so one blank is not enough. -/
theorem afterLast?_blank {cs : List Char} (hcs : ∀ c ∈ cs, c ≠ ' ') :
    afterLast? " as ".toList (' ' :: cs) = none := by
  rw [afterLast?, afterLast?_of_forall hcs]
  by_contra hsome
  obtain ⟨rest, hprefix⟩ := Option.ne_none_iff_exists'.1 hsome
  have heq := List.append_eq_of_isPrefixOf?_eq_some hprefix
  have htail : "as ".toList ++ rest = cs := (List.cons.inj heq).2
  exact hcs ' ' (htail ▸ List.mem_append_left rest (by decide)) rfl

theorem afterLast?_separator {front cs : List Char} (hfront : ∀ c ∈ front, c ≠ ' ')
    (hcs : ∀ c ∈ cs, c ≠ ' ') : afterLast? " as ".toList (front ++ (" as ".toList ++ cs)) = some cs := by
  have htail : afterLast? " as ".toList ("as".toList ++ ' ' :: cs) = none := by
    rw [afterLast?_append (by decide), afterLast?_blank hcs]
  rw [afterLast?_append hfront]
  change afterLast? " as ".toList (' ' :: ("as".toList ++ ' ' :: cs)) = some cs
  rw [afterLast?, htail]
  simp [List.isPrefixOf?]

theorem ne_blank_of_isIdentifierChar (c : Char) (h : isIdentifierChar c = true) : c ≠ ' ' :=
  ne_of_isIdentifierChar (by decide) c h

/-- The ends of what begins and ends with a word are no blanks. -/
theorem trim_words {front cs back x y : List Char} (hx : IsWord x) (hy : IsWord y)
    (hfront : ∀ c ∈ front, Text.isBlank c = true) (hback : ∀ c ∈ back, Text.isBlank c = true)
    (hcs : ∃ rest, cs = x ++ rest) (hcs' : ∃ rest, cs = rest ++ y) :
    Text.trim (front ++ (cs ++ back)) = cs := by
  obtain ⟨rest, rfl⟩ := hcs
  obtain ⟨rest', heq⟩ := hcs'
  refine Text.trimWhile_append hfront hback ?_ (stops_of_isNameStart hx.head) fun c hc ↦ ?_
  · simp [hx.ne_nil]
  · rw [heq, List.getLast?_append_of_ne_nil _ hy.ne_nil] at hc
    exact hy.forall_mem isBlank_of_isIdentifierChar c (List.mem_of_getLast? hc)

/-- The name of an item without a renaming. -/
theorem exportedAs_name (c : Identifier) : exportedAs (' ' :: (c.chars ++ [' '])) = c.chars := by
  have hblank : ∀ d ∈ c.chars, d ≠ ' ' := c.forall_mem ne_blank_of_isIdentifierChar
  have htrim : Text.trim (' ' :: (c.chars ++ [' '])) = c.chars :=
    @trim_words [' '] _ _ _ _ c.isWord c.isWord (by decide) (by decide) ⟨[], by simp⟩ ⟨[], by simp⟩
  have hword : dropTypeWords c.chars = c.chars := by
    refine dropTypeWords_of_ne fun rest heq ↦ hblank ' ' ?_ rfl
    rw [heq]
    simp
  have hself : Text.trim c.chars = c.chars :=
    Text.trimWhile_of_forall (c.forall_mem isBlank_of_isIdentifierChar)
  rw [exportedAs, htrim, hword, hself, afterLast?_of_forall hblank]
  exact hself

/-- The name of an item with a renaming. -/
theorem exportedAs_renaming (a b : Identifier) :
    exportedAs (' ' :: (a.chars ++ (" as ".toList ++ b.chars))) = (foundName a b).toList := by
  have hblank (x : Identifier) : ∀ c ∈ x.chars, c ≠ ' ' := x.forall_mem ne_blank_of_isIdentifierChar
  have htrim {front : List Char} (hfront : ∀ c ∈ front, Text.isBlank c = true) :
      Text.trim (front ++ (a.chars ++ (" as ".toList ++ b.chars))) =
        a.chars ++ (" as ".toList ++ b.chars) := by
    have hends := trim_words a.isWord b.isWord hfront (List.forall_mem_nil _)
      ⟨" as ".toList ++ b.chars, rfl⟩ ⟨a.chars ++ " as ".toList, (List.append_assoc ..).symm⟩
    rwa [List.append_nil] at hends
  have hself : Text.trim b.chars = b.chars :=
    Text.trimWhile_of_forall (b.forall_mem isBlank_of_isIdentifierChar)
  have hitem : Text.trim (' ' :: (a.chars ++ (" as ".toList ++ b.chars))) =
      a.chars ++ (" as ".toList ++ b.chars) := htrim (by decide : ∀ c ∈ [' '], Text.isBlank c = true)
  rw [exportedAs, hitem, foundName]
  by_cases ha : a.text = "type"
  · -- the name before the renaming is dropped, and with it the blank that the separator begins with
    have hchars : a.chars = "type".toList := String.ofList_injective ha
    have hword : dropTypeWords (a.chars ++ (" as ".toList ++ b.chars)) =
        "as".toList ++ ' ' :: b.chars := by
      rw [hchars]
      change dropTypeWords ("as".toList ++ ' ' :: b.chars) = _
      exact dropTypeWords_of_ne fun rest heq ↦
        append_ne_append_of_zip (by decide) (' ' :: b.chars) (' ' :: rest) heq
    have hstay : Text.trim ("as".toList ++ ' ' :: b.chars) = "as".toList ++ ' ' :: b.chars := by
      refine Text.trimWhile_of_stops (Text.stops_cons (c := 'a') (by decide)) fun c hc ↦ ?_
      rw [List.getLast?_append_of_ne_nil _ (List.cons_ne_nil _ _), ← List.singleton_append,
        List.getLast?_append_of_ne_nil _ b.ne_nil] at hc
      exact b.forall_mem isBlank_of_isIdentifierChar c (List.mem_of_getLast? hc)
    have hafter : afterLast? " as ".toList ("as".toList ++ ' ' :: b.chars) = none := by
      rw [afterLast?_append (by decide), afterLast?_blank (hblank b)]
    rw [hword, hstay, hafter, if_pos ha, String.toList_append, b.toList_text]
    exact hstay
  · have hword : dropTypeWords (a.chars ++ (" as ".toList ++ b.chars)) =
        a.chars ++ (" as ".toList ++ b.chars) := by
      refine dropTypeWords_of_ne fun rest heq ↦ ha ?_
      have hname := (append_cons_inj (· ≠ ' ') (by simpa using hblank a) (by decide) (by decide)
        (by decide) heq).1
      rw [Identifier.text, hname, String.ofList_toList]
    have hstay := htrim (List.forall_mem_nil _)
    rw [List.nil_append] at hstay
    rw [hword, hstay, afterLast?_separator (hblank a) (hblank b), if_neg ha, b.toList_text]
    exact hself

/-- **The names of an export list.** -/
theorem listedExports_items (a b c : Identifier) :
    listedExports (' ' :: (a.chars ++ (" as ".toList ++ b.chars)) ++ ',' :: ' ' :: (c.chars ++ [' '])) =
      [foundName a b, c.text] := by
  have hcomma (x : Identifier) : ∀ c ∈ x.chars, c ≠ ',' :=
    x.forall_mem (ne_of_isIdentifierChar (by decide))
  have hfirst : ',' ∉ ' ' :: (a.chars ++ (" as ".toList ++ b.chars)) := by
    have hall : ∀ c ∈ ' ' :: (a.chars ++ (" as ".toList ++ b.chars)), c ≠ ',' := by
      simp only [List.forall_mem_cons, List.forall_mem_append]
      exact ⟨by decide, hcomma a, by decide, hcomma b⟩
    exact fun hmem ↦ hall ',' hmem rfl
  have hsecond : ',' ∉ ' ' :: (c.chars ++ [' ']) := by
    have hall : ∀ d ∈ ' ' :: (c.chars ++ [' ']), d ≠ ',' := by
      simp only [List.forall_mem_cons, List.forall_mem_append]
      exact ⟨by decide, hcomma c, by decide, by simp⟩
    exact fun hmem ↦ hall ',' hmem rfl
  have hfound : (foundName a b).toList ≠ [] := by
    rw [foundName]
    split
    · simp
    · rw [b.toList_text]
      exact b.ne_nil
  rw [listedExports, List.splitOn_append_cons_self, List.splitOn_eq_singleton hfirst,
    List.splitOn_eq_singleton hsecond, List.singleton_append, List.map_cons, List.map_singleton,
    exportedAs_renaming, exportedAs_name]
  simp [hfound, c.ne_nil, Identifier.text]

theorem exportedAs_blanks {cs : List Char} (hcs : ∀ c ∈ cs, Text.isBlank c = true) :
    exportedAs cs = [] := by
  have htrim : Text.trim cs = [] := by
    rw [Text.trim, Text.trimWhile, List.dropWhile_eq_nil_iff.2 hcs]
    rfl
  rw [exportedAs, htrim]
  rfl

/-- Blanks alone list nothing. -/
theorem listedExports_blanks {cs : List Char} (hcs : ∀ c ∈ cs, Text.isBlank c = true) :
    listedExports cs = [] := by
  have hcomma : ',' ∉ cs := fun hmem ↦ absurd (hcs ',' hmem) (by decide)
  rw [listedExports, List.splitOn_eq_singleton hcomma, List.map_singleton, exportedAs_blanks hcs]
  rfl

end Names

/-! ## Finding the lists -/

section

variable {before ahead : List Char} {m : Match} {stop : Place}

/-- What is reported of a match. -/
def listedOf (m : Match) : List String :=
  ((m.group? 1).map (listedExports ·.chars)).getD []

/-- **Where an export list fits**, the first mark opens a brace, and what is reported is listed up to
where it is closed. -/
theorem of_exportList (h : exportList.matchAt? (between before ahead) = some (m, stop)) :
    ∃ cs inside rest, ahead = "export".toList ++ cs ++ '\x7b' :: (inside ++ '\x7d' :: rest) ∧
      (∀ c ∈ "export".toList ++ cs, isNameOrBlank c = true) ∧ (∀ c ∈ inside, c ≠ '\x7d') ∧
      listedOf m = listedExports inside ∧ stop.ahead = rest := by
  simp only [matchAt?, exportList, fits_seq_cons, fits_mark, fits_seq_nil] at h
  obtain ⟨_, rfl, h₁⟩ := of_fits_word (of_fits_wordEdge h)
  obtain ⟨blanks, _, rfl, hblanks, h₂⟩ := of_fits_run h₁
  have hexport : ∀ c ∈ "export".toList, isNameOrBlank c = true := isNameOrBlank_of_words (by decide)
  have hlist {place : Place} {before' ahead' : List Char}
      (h : (char '\x7b').fits ⟨between before' ahead', []⟩ (fun r ↦
        (run (· ≠ '\x7d')).fits r fun r' ↦ (char '\x7d').fits
          ⟨r'.place, (1, r.place.until r'.place) :: r'.marks⟩ fun r ↦
            some (Match.mk (place.until r.place) r.marks, r.place)) = some (m, stop)) :
      ∃ inside rest, ahead' = '\x7b' :: (inside ++ '\x7d' :: rest) ∧ (∀ c ∈ inside, c ≠ '\x7d') ∧
        listedOf m = listedExports inside ∧ stop.ahead = rest := by
    obtain ⟨_, rfl, h₁⟩ := of_fits_char h
    obtain ⟨inside, _, rfl, hinside, h₂⟩ := of_fits_run h₁
    obtain ⟨rest, rfl, hsome⟩ := of_fits_char h₂
    obtain ⟨rfl, rfl⟩ := Prod.mk.inj (Option.some_inj.1 hsome)
    refine ⟨inside, rest, rfl, by simpa using hinside, ?_, rfl⟩
    simp [listedOf, Match.group?, Place.chars_until_between]
  rcases of_fits_optional h₂ with htype | h₃
  · rw [fits_both] at htype
    obtain ⟨_, rfl, h₃⟩ := of_fits_word htype
    obtain ⟨blanks', _, rfl, hblanks', h₄⟩ := of_fits_run h₃
    obtain ⟨inside, rest, rfl, hinside, hreport, hahead⟩ := hlist h₄
    refine ⟨blanks ++ ("type".toList ++ blanks'), inside, rest, by simp, ?_, hinside, hreport, hahead⟩
    simp only [List.forall_mem_append]
    exact ⟨hexport, isNameOrBlank_of_forall_isBlank hblanks, isNameOrBlank_of_words (by decide),
      isNameOrBlank_of_forall_isBlank hblanks'⟩
  · obtain ⟨inside, rest, rfl, hinside, hreport, hahead⟩ := hlist h₃
    exact ⟨blanks, inside, rest, by simp, List.forall_mem_append.2 ⟨hexport,
      isNameOrBlank_of_forall_isBlank hblanks⟩, hinside, hreport, hahead⟩

theorem opens_exportList : exportList.Opens fun c ↦ c == 'e' := by
  intro before ahead hsome
  obtain ⟨⟨m, stop⟩, h⟩ := Option.isSome_iff_exists.1 hsome
  obtain ⟨cs, inside, rest, rfl, -⟩ := of_exportList h
  rfl

theorem halts_exportList : exportList.Halts isNameOrBlank fun c ↦ c == '\x7b' := by
  intro before ahead hsome
  obtain ⟨⟨m, stop⟩, h⟩ := Option.isSome_iff_exists.1 hsome
  obtain ⟨cs, inside, rest, rfl, hcs, -⟩ := of_exportList h
  have hbrace : isNameOrBlank '\x7b' = false := isNameOrBlank_of_mark (by decide)
  rw [find?_append_of_accepts hcs, List.find?_cons_of_pos (by simp [hbrace])]
  rfl

/-- **An export list is found with its names**, whatever stands between the braces. -/
theorem scan_exportList (rest : List Char) (hedge : before.head?.any Text.isWordChar = false)
    {gap inside cs : List Char} (hgap : ∀ c ∈ gap, Text.isBlank c = true)
    (hclose : ∀ c ∈ inside, c ≠ '\x7d')
    (hcs : cs = "export".toList ++ (gap ++ '\x7b' :: (inside ++ ['\x7d']))) :
    ∃ m, listedOf m = listedExports inside ∧
      exportList.scan before (cs ++ rest) = m :: exportList.scan (cs.reverse ++ before) rest := by
  have htext : cs ++ rest = "export".toList ++ (gap ++ '\x7b' :: (inside ++ '\x7d' :: rest)) := by
    simp [hcs]
  refine exists_scan_eq_cons (by simp [hcs]) ?_ ?_
  · rw [htext]
    simp only [matchAt?, exportList, fits_seq_cons, fits_mark, fits_seq_nil]
    refine isSome_fits_wordEdge ?_ (isSome_fits_word (isSome_fits_run hgap
      (isSome_fits_absent (isSome_fits_char (isSome_fits_run (by simpa using hclose)
        (isSome_fits_char rfl))))))
    exact Place.atWordEdge_between hedge rfl
  · intro m stop h
    rw [htext] at h
    obtain ⟨cs', inside', rest', heq, hcs', hinside', hreport, hahead⟩ := of_exportList h
    have hbrace : isNameOrBlank '\x7b' = false := isNameOrBlank_of_mark (by decide)
    have hfront : ∀ c ∈ "export".toList ++ gap, isNameOrBlank c = true :=
      List.forall_mem_append.2 ⟨isNameOrBlank_of_words (by decide),
        isNameOrBlank_of_forall_isBlank hgap⟩
    rw [← List.append_assoc] at heq
    obtain ⟨-, -, hbehind⟩ := append_cons_inj isNameOrBlank hfront hbrace hcs' hbrace heq
    obtain ⟨rfl, -, rfl⟩ := append_cons_inj (· ≠ '\x7d') (by simpa using hclose) (by decide)
      (by simpa using hinside') (by decide) hbehind
    exact ⟨hahead, hreport⟩

/-- Braces with nothing but blanks between them may be taken for a list, but no name comes of it. -/
theorem reports_braces {text inside : List Char} (htext : ∀ c ∈ text, c ≠ '\x7b')
    (hinside : ∀ c ∈ inside, Text.isBlank c = true) (rest before : List Char) :
    Reports exportList listedOf before (text ++ '\x7b' :: (inside ++ ['\x7d'])) rest [] := by
  have hne {mark : Char} (hmark : Text.isBlank mark = false) : ∀ c ∈ inside, c ≠ mark := by
    rintro c hc rfl
    rw [hinside c hc] at hmark
    exact absurd hmark (by decide)
  have hbraces : ∀ c ∈ '\x7b' :: (inside ++ ['\x7d']), c ≠ 'e' :=
    List.forall_mem_cons.2 ⟨by decide, List.forall_mem_append.2 ⟨hne (by decide), by decide⟩⟩
  rw [Reports, List.nil_append]
  refine flatMap_scan_of_forall_suffix rfl fun front back m stop heq hback h ↦ ?_
  obtain ⟨cs, inside', rest', hahead, hcs, hinside', hreport, hstop⟩ := of_exportList h
  rcases List.append_eq_append_iff.1 heq with ⟨cs', -, hsuffix⟩ | ⟨cs', hfront, rfl⟩
  · obtain ⟨c, back, rfl⟩ := List.exists_cons_of_ne_nil hback
    obtain rfl : c = 'e' := (List.cons.inj hahead).1
    exact absurd rfl (hbraces 'e' (hsuffix ▸ List.mem_append_right _ List.mem_cons_self))
  · have hcs' : ∀ c ∈ cs', c ≠ '\x7b' :=
      fun c hc ↦ htext c (hfront ▸ List.mem_append_right _ hc)
    have hword : ∀ c ∈ "export".toList ++ cs, c ≠ '\x7b' := by
      rintro c hc rfl
      have hbrace := hcs '\x7b' hc
      rw [isNameOrBlank_of_mark (by decide)] at hbrace
      exact absurd hbrace (by decide)
    have htail : cs' ++ '\x7b' :: (inside ++ '\x7d' :: rest) =
        "export".toList ++ cs ++ '\x7b' :: (inside' ++ '\x7d' :: rest') := by
      simpa using hahead
    obtain ⟨-, -, hbehind⟩ := append_cons_inj (· ≠ '\x7b') (by simpa using hcs') (by decide)
      (by simpa using hword) (by decide) htail
    obtain ⟨rfl, -, rfl⟩ := append_cons_inj (· ≠ '\x7d') (by simpa using hne (by decide))
      (by decide) (by simpa using hinside') (by decide) hbehind
    rw [scan_eq_cons hback h hstop, List.flatMap_cons, hreport, listedExports_blanks hinside,
      hfront]
    simp

/-- The line of a class has no list in it but its braces, and no name comes of them. -/
theorem reports_class (x : Identifier) (rest before : List Char) :
    Reports exportList listedOf before (Statement.class x).chars rest [] := by
  have hfront : ∀ c ∈ "export class ".toList ++ (x.chars ++ [' ']), c ≠ '\x7b' := by
    simp only [List.forall_mem_append]
    exact ⟨by decide, x.forall_mem (ne_of_isIdentifierChar (by decide)), by decide⟩
  have htext : (Statement.class x).chars =
      ("export class ".toList ++ (x.chars ++ [' '])) ++ '\x7b' :: ([] ++ ['\x7d']) := by
    rw [Statement.chars_class]
    simp
  rw [htext]
  exact reports_braces hfront (List.forall_mem_nil _) rest before

/-- The names that the pattern finds in a statement. -/
def found : Statement → List String
  | .exportList a b c => [foundName a b, c.text]
  | _ => []

theorem reports_exportList (s : Statement) (rest : List Char) {before : List Char}
    (hbefore : BeforeLine before) : Reports exportList listedOf before s.chars rest (found s) := by
  have hword (c : Char) (hc : isIdentifierChar c = true) : (c == '\x7b') = false :=
    beq_of_isIdentifierChar (by decide) c hc
  have hopens {cs rest : List Char} (hcs : ∀ c ∈ cs, (c == 'e') = false) :
      exportList.Skips cs rest := opens_exportList.skips hcs
  have hhalts {cs rest : List Char} {last : Char} (hlast : last ∈ textMarks)
      (hcs : ∀ c ∈ cs ++ [last], (c == '\x7b') = false) : exportList.Skips (cs ++ [last]) rest :=
    halts_exportList.skips (isNameOrBlank_of_mark hlast) hcs
  cases s with
  | require x m =>
    exact reports_of_skips (skips_of_halts halts_exportList _ hword
      (by simp only [Statement.marks]; decide) (isNameOrBlank_last _)) _ _
  | arrow exported f xs e =>
    exact reports_of_skips (skips_of_halts halts_exportList _ hword
      (by simp only [Statement.marks]; decide) (isNameOrBlank_last _)) _ _
  | «class» x => exact reports_class x rest before
  | importFrom clause m =>
    have hmodule : ∀ c ∈ m.chars, (c == '\x7b') = false := m.forall_mem hword (by decide)
    refine reports_of_skips ?_ _ _
    cases clause with
    | default x =>
      have htext : (Statement.importFrom (.default x) m).chars = "import ".toList ++
          ((x.chars ++ (" from '".toList ++ (m.chars ++ ['\'']))) ++ [';']) := by
        rw [Statement.chars_importFrom]
        simp [ImportClause.chars, ImportClause.quote]
      rw [htext]
      refine .append (hopens (by decide)) (hhalts (by decide) ?_)
      simp only [List.forall_mem_append]
      exact ⟨⟨x.forall_mem hword, by decide, hmodule, by decide⟩, by decide⟩
    | named x =>
      have htext : (Statement.importFrom (.named x) m).chars = "import \x7b ".toList ++
          (((x.chars ++ [' ']) ++ ['\x7d']) ++ ((" from \"".toList ++ (m.chars ++ ['"'])) ++
            [';'])) := by
        rw [Statement.chars_importFrom]
        simp [ImportClause.chars, ImportClause.quote]
      rw [htext]
      refine .append (hopens (by decide)) (.append (hhalts (by decide) ?_) (hhalts (by decide) ?_))
      · simp only [List.forall_mem_append]
        exact ⟨⟨x.forall_mem hword, by decide⟩, by decide⟩
      · simp only [List.forall_mem_append]
        exact ⟨⟨by decide, hmodule, by decide⟩, by decide⟩
  | function exported f xs returns =>
    have hbody : exportList.Skips (Statement.bodyChars returns) rest := by
      cases returns with
      | false => exact hopens (by decide)
      | true =>
        have hreturn : exportList.Skips (" \x7b ".toList ++ ("return null; ".toList ++ ['\x7d'])) rest :=
          .append (hopens (by decide)) (hhalts (by decide) (by decide))
        exact hreturn
    exact reports_of_skips (skips_function halts_exportList hword (isNameOrBlank_of_mark (by decide))
      (isNameOrBlank_of_mark (by decide)) (by decide) exported f xs hbody) _ _
  | exportList a b c =>
    have hname (x : Identifier) : ∀ d ∈ x.chars, d ≠ '\x7d' :=
      x.forall_mem (ne_of_isIdentifierChar (by decide))
    have hclose : ∀ d ∈ ' ' :: (a.chars ++ (" as ".toList ++ b.chars)) ++
        ',' :: ' ' :: (c.chars ++ [' ']), d ≠ '\x7d' := by
      simp only [List.forall_mem_append, List.forall_mem_cons]
      exact ⟨⟨by decide, hname a, by decide, hname b⟩, by decide, by decide, hname c, by simp⟩
    obtain ⟨m, hm, hscan⟩ := scan_exportList (';' :: rest) hbefore.not_word
      (by decide : ∀ c ∈ [' '], Text.isBlank c = true) hclose rfl
    have hreports : Reports exportList listedOf _ _ _ _ := reports_of_scan_eq_cons hscan
    rw [hm, listedExports_items] at hreports
    have htext : (Statement.exportList a b c).chars = ("export".toList ++ ([' '] ++ '\x7b' ::
        (' ' :: (a.chars ++ (" as ".toList ++ b.chars)) ++ ',' :: ' ' :: (c.chars ++ [' ']) ++
          ['\x7d']))) ++ [';'] := by
      rw [Statement.chars_exportList]
      simp
    rw [htext]
    exact hreports.append_skips (hopens (by decide))

/-- **Export lists are found in the order of the text.** -/
theorem flatMap_exportList (ss : List Statement) :
    (exportList.findAll (sourceChars ss)).flatMap listedOf = ss.flatMap found :=
  flatMap_findAll_source opens_exportList (by decide)
    (fun s ss before hbefore ↦ reports_exportList s _ hbefore) ss

end

end Rules

end Outline

end ChangeContext
