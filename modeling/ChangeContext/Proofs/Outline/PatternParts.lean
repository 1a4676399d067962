import ChangeContext.Proofs.Outline.Writing
import ChangeContext.Proofs.Pattern.Scan

/-!
# The parts of the patterns for scripts

The patterns by which scripts are outlined are put together from a few parts: names, parentheses,
words that may be there, quoted modules.  For each of them it is said here what stands ahead where it
fits, and that it fits where this does.  The patterns for declarations and exports have in common
that all they go past before the first mark are names and blanks.
-/

set_option autoImplicit false

namespace ChangeContext

namespace Outline

namespace Rules

open Pattern
open Place (between)

/-! ## Kinds of characters -/

/-- A character of a name, or a blank. -/
def isNameOrBlank (c : Char) : Bool :=
  isNameRest c || Text.isBlank c

theorem isNameOrBlank_of_isBlank {c : Char} (h : Text.isBlank c = true) :
    isNameOrBlank c = true := by
  simp [isNameOrBlank, h]

theorem isNameOrBlank_of_isNameRest {c : Char} (h : isNameRest c = true) :
    isNameOrBlank c = true := by
  simp [isNameOrBlank, h]

theorem isNameRest_of_isIdentifierChar (c : Char) (h : isIdentifierChar c = true) :
    isNameRest c = true :=
  forall_isIdentifierChar (P := fun c ↦ isNameRest c = true) (by decide +kernel) h

theorem isNameOrBlank_of_isIdentifierChar (c : Char) (h : isIdentifierChar c = true) :
    isNameOrBlank c = true :=
  isNameOrBlank_of_isNameRest (isNameRest_of_isIdentifierChar c h)

theorem isNameRest_of_word {cs : List Char} (h : cs.all isIdentifierChar = true) :
    ∀ c ∈ cs, isNameRest c = true :=
  fun c hc ↦ isNameRest_of_isIdentifierChar c (List.all_eq_true.1 h c hc)

/-- The words of statements are names with blanks between them. -/
theorem isNameOrBlank_of_words {cs : List Char}
    (h : (cs.all fun c ↦ isIdentifierChar c || c == ' ') = true) :
    ∀ c ∈ cs, isNameOrBlank c = true := by
  intro c hc
  rcases Bool.or_eq_true_iff.1 (List.all_eq_true.1 h c hc) with hchar | hblank
  · exact isNameOrBlank_of_isIdentifierChar c hchar
  · obtain rfl : c = ' ' := by simpa using hblank
    exact isNameOrBlank_of_isBlank (by decide)

/-- The marks that statements and the patterns for them are made of. -/
def textMarks : List Char :=
  "()\x7b\x7d=>*<:;,'\"+./-".toList

/-- The marks belong neither to names nor to blanks. -/
theorem isNameOrBlank_of_mark {c : Char} (h : c ∈ textMarks) : isNameOrBlank c = false :=
  (by decide +kernel : ∀ c ∈ textMarks, isNameOrBlank c = false) c h

theorem isNameRest_of_mark {c : Char} (h : c ∈ textMarks) : isNameRest c = false :=
  (Bool.or_eq_false_iff.1 (isNameOrBlank_of_mark h)).1

theorem isNameRest_of_isNameStart {c : Char} (h : isNameStart c = true) : isNameRest c = true :=
  isNameRest_of_isIdentifierChar c (by simp [isIdentifierChar, h])

/-- The code points of the blanks. -/
def blankPoints : List Nat :=
  [9, 10, 11, 12, 13, 0x20, 0x85, 0xA0, 0x1680, 0x2000, 0x2001, 0x2002, 0x2003, 0x2004, 0x2005,
    0x2006, 0x2007, 0x2008, 0x2009, 0x200A, 0x2028, 0x2029, 0x202F, 0x205F, 0x3000]

/-- No blank belongs to a name. -/
theorem isNameRest_of_isBlank {c : Char} (h : Text.isBlank c = true) : isNameRest c = false := by
  have hpoint : c.toNat ∈ blankPoints := by
    simp only [Text.isBlank, Bool.or_eq_true, Bool.and_eq_true, decide_eq_true_eq, beq_iff_eq] at h
    simp only [blankPoints, List.mem_cons, List.not_mem_nil]
    omega
  have hpoints : ∀ n ∈ blankPoints, isNameRest (Char.ofNat n) = false := by decide +kernel
  simpa using hpoints _ hpoint

theorem isBlank_of_isIdentifierChar (c : Char) (h : isIdentifierChar c = true) :
    Text.isBlank c = false :=
  forall_isIdentifierChar (P := fun c ↦ Text.isBlank c = false) (by decide +kernel) h

theorem isBlank_of_word {cs : List Char} (h : cs.all isIdentifierChar = true) :
    ∀ c ∈ cs, Text.isBlank c = false :=
  fun c hc ↦ isBlank_of_isIdentifierChar c (List.all_eq_true.1 h c hc)

theorem isBlank_of_isNameStart {c : Char} (h : isNameStart c = true) : Text.isBlank c = false :=
  isBlank_of_isIdentifierChar c (by simp [isIdentifierChar, h])

theorem isNameOrBlank_of_forall_isBlank {cs : List Char} (hcs : ∀ c ∈ cs, Text.isBlank c = true) :
    ∀ c ∈ cs, isNameOrBlank c = true :=
  fun c hc ↦ isNameOrBlank_of_isBlank (hcs c hc)

/-- No blank is a word character. -/
theorem isWordChar_of_isBlank {c : Char} (h : Text.isBlank c = true) :
    Text.isWordChar c = false :=
  (Bool.or_eq_false_iff.1 (isNameRest_of_isBlank h)).1

/-- What stands behind blanks is known from the text. -/
theorem eq_of_blanks_append {blanks blanks' tail text : List Char}
    (hblanks : ∀ c ∈ blanks, Text.isBlank c = true) (hblanks' : ∀ c ∈ blanks', Text.isBlank c = true)
    (htail : Text.Stops Text.isBlank tail) (htext : Text.Stops Text.isBlank text)
    (h : blanks ++ tail = blanks' ++ text) : tail = text := by
  have hdrop := congrArg (List.dropWhile Text.isBlank) h
  rwa [Text.dropWhile_append_of_stops hblanks htail,
    Text.dropWhile_append_of_stops hblanks' htext] at hdrop

theorem eq_of_blanks {blanks tail text : List Char} (hblanks : ∀ c ∈ blanks, Text.isBlank c = true)
    (htail : Text.Stops Text.isBlank tail) (htext : Text.Stops Text.isBlank text)
    (h : blanks ++ tail = ' ' :: text) : tail = text :=
  eq_of_blanks_append hblanks (by decide : ∀ c ∈ [' '], Text.isBlank c = true) htail htext h

/-- What begins with a name does not begin with a blank. -/
theorem stops_of_isNameStart {cs rest : List Char} (h : cs.head?.any isNameStart = true) :
    Text.Stops Text.isBlank (cs ++ rest) := by
  cases cs with
  | nil => simp at h
  | cons c cs => exact Text.stops_cons (isBlank_of_isNameStart (by simpa using h))

/-- What the patterns take for a name. -/
structure IsName (cs : List Char) : Prop where
  head : cs.head?.any isNameStart = true
  all : ∀ c ∈ cs, isNameRest c = true

instance (cs : List Char) : Decidable (IsName cs) :=
  decidable_of_iff (cs.head?.any isNameStart = true ∧ ∀ c ∈ cs, isNameRest c = true)
    ⟨fun h ↦ ⟨h.1, h.2⟩, fun h ↦ ⟨h.head, h.all⟩⟩

theorem isName_chars (x : Identifier) : IsName x.chars :=
  ⟨x.head, x.forall_mem isNameRest_of_isIdentifierChar⟩

/-- A name ends where something follows that does not belong to names. -/
theorem eq_of_name {name name' rest rest' : List Char} (hname : ∀ c ∈ name, isNameRest c = true)
    (hname' : ∀ c ∈ name', isNameRest c = true) (hrest : Text.Stops isNameRest rest)
    (hrest' : Text.Stops isNameRest rest') (h : name ++ rest = name' ++ rest') :
    name = name' ∧ rest = rest' := by
  have htake := congrArg (List.takeWhile isNameRest) h
  rw [Text.takeWhile_append_of_stops hname hrest,
    Text.takeWhile_append_of_stops hname' hrest'] at htake
  rw [htake] at h
  exact ⟨htake, List.append_cancel_left h⟩

theorem stops_of_forall_isBlank {cs rest : List Char} (hcs : ∀ c ∈ cs, Text.isBlank c = true)
    (hrest : Text.Stops isNameRest rest) : Text.Stops isNameRest (cs ++ rest) := by
  cases cs with
  | nil => exact hrest
  | cons c cs => exact Text.stops_cons (isNameRest_of_isBlank (hcs c List.mem_cons_self))

/-- A name between blanks is known from the text. -/
theorem eq_of_blanks_name {blanks name name' blanks' blanks'' : List Char}
    (hblanks : ∀ c ∈ blanks, Text.isBlank c = true) (hhead : name.head?.any isNameStart = true)
    (hname : ∀ c ∈ name, isNameRest c = true) (hname' : IsName name')
    (hblanks' : ∀ c ∈ blanks', Text.isBlank c = true)
    (hblanks'' : ∀ c ∈ blanks'', Text.isBlank c = true)
    (h : blanks ++ (name ++ blanks') = ' ' :: (name' ++ blanks'')) : name = name' := by
  have hends {cs : List Char} (hcs : ∀ c ∈ cs, Text.isBlank c = true) :
      Text.Stops isNameRest cs :=
    fun c hc ↦ isNameRest_of_isBlank (hcs c (List.mem_of_mem_head? hc))
  have hbehind :=
    eq_of_blanks hblanks (stops_of_isNameStart hhead) (stops_of_isNameStart hname'.head) h
  exact (eq_of_name hname hname'.all (hends hblanks') (hends hblanks'') hbehind).1

/-! ## Parts of patterns -/

section Parts

variable {α : Type} {p : Pattern} {marks : List (Nat × Span)} {after : Reached → Option α} {a : α}
  {before ahead cs rest : List Char} {group : Nat}

theorem of_fits_name (h : name.fits ⟨between before ahead, marks⟩ after = some a) :
    ∃ cs rest, ahead = cs ++ rest ∧ cs.head?.any isNameStart = true ∧
      (∀ c ∈ cs, isNameRest c = true) ∧
        after ⟨between (cs.reverse ++ before) rest, marks⟩ = some a := by
  rw [name, fits_both] at h
  obtain ⟨c, _, rfl, hc, hrun⟩ := of_fits_one h
  obtain ⟨cs, rest, rfl, hcs, hafter⟩ := of_fits_run hrun
  exact ⟨c :: cs, rest, rfl, by simpa using hc,
    List.forall_mem_cons.2 ⟨isNameRest_of_isNameStart hc, hcs⟩, by simpa using hafter⟩

/-- Where whatever follows succeeds, the name ends where its characters do. -/
theorem of_fits_name_of_total (htotal : ∀ r, (after r).isSome = true)
    (h : name.fits ⟨between before ahead, marks⟩ after = some a) :
    ∃ cs rest, ahead = cs ++ rest ∧ cs.head?.any isNameStart = true ∧
      (∀ c ∈ cs, isNameRest c = true) ∧ Text.Stops isNameRest rest ∧
        after ⟨between (cs.reverse ++ before) rest, marks⟩ = some a := by
  rw [name, fits_both] at h
  obtain ⟨c, _, rfl, hc, hrun⟩ := of_fits_one h
  obtain ⟨cs, rest, rfl, hcs, hstop, hafter⟩ := of_fits_run_of_total htotal hrun
  refine ⟨c :: cs, rest, rfl, by simpa using hc,
    List.forall_mem_cons.2 ⟨isNameRest_of_isNameStart hc, hcs⟩, fun d hd ↦ ?_, by simpa using hafter⟩
  rw [hd] at hstop
  exact hstop

theorem isSome_fits_name (hname : IsName cs)
    (h : (after ⟨between (cs.reverse ++ before) rest, marks⟩).isSome = true) :
    (name.fits ⟨between before (cs ++ rest), marks⟩ after).isSome = true := by
  obtain ⟨hhead, hall⟩ := hname
  cases cs with
  | nil => simp at hhead
  | cons c cs =>
    rw [name, fits_both]
    exact isSome_fits_one (by simpa using hhead)
      (isSome_fits_run (List.forall_mem_cons.1 hall).2 (by simpa using h))

theorem of_fits_parens (h : (parens group).fits ⟨between before ahead, marks⟩ after = some a) :
    ∃ cs rest span, ahead = '(' :: (cs ++ ')' :: rest) ∧ (∀ c ∈ cs, c ≠ ')') ∧ span.chars = cs ∧
      after ⟨between (')' :: (cs.reverse ++ '(' :: before)) rest, (group, span) :: marks⟩ =
        some a := by
  simp only [parens, fits_seq_cons, fits_mark, fits_seq_nil] at h
  obtain ⟨_, rfl, hmark⟩ := of_fits_char h
  obtain ⟨cs, _, rfl, hcs, hclose⟩ := of_fits_run hmark
  obtain ⟨rest, rfl, hafter⟩ := of_fits_char hclose
  exact ⟨cs, rest, _, rfl, by simpa using hcs, Place.chars_until_between, hafter⟩

theorem isSome_fits_parens (hcs : ∀ c ∈ cs, c ≠ ')')
    (h : ∀ span, (after ⟨between (')' :: (cs.reverse ++ '(' :: before)) rest,
      (group, span) :: marks⟩).isSome = true) :
    ((parens group).fits ⟨between before ('(' :: (cs ++ ')' :: rest)), marks⟩ after).isSome =
      true := by
  simp only [parens, fits_seq_cons, fits_mark, fits_seq_nil]
  exact isSome_fits_char (isSome_fits_run (by simpa using hcs) (isSome_fits_char (h _)))

theorem of_fits_maybeWord {s : String}
    (h : (maybeWord s).fits ⟨between before ahead, marks⟩ after = some a) :
    (∃ cs rest, ahead = s.toList ++ (cs ++ rest) ∧ cs ≠ [] ∧ (∀ c ∈ cs, Text.isBlank c = true) ∧
      after ⟨between (cs.reverse ++ (s.toList.reverse ++ before)) rest, marks⟩ = some a) ∨
        after ⟨between before ahead, marks⟩ = some a := by
  rcases of_fits_optional h with h | h
  · rw [fits_both] at h
    obtain ⟨_, rfl, hblanks⟩ := of_fits_word h
    obtain ⟨cs, rest, rfl, hne, hcs, hafter⟩ := of_fits_run1 hblanks
    exact .inl ⟨cs, rest, rfl, hne, hcs, hafter⟩
  · exact .inr h

theorem isSome_fits_maybeWord {s : String} (hne : cs ≠ []) (hcs : ∀ c ∈ cs, Text.isBlank c = true)
    (h : (after ⟨between (cs.reverse ++ (s.toList.reverse ++ before)) rest, marks⟩).isSome = true) :
    ((maybeWord s).fits ⟨between before (s.toList ++ (cs ++ rest)), marks⟩ after).isSome = true := by
  refine isSome_fits_left ?_
  rw [fits_both]
  exact isSome_fits_word (isSome_fits_run1 hne hcs h)

theorem of_fits_quotedModule (h : quotedModule.fits ⟨between before ahead, marks⟩ after = some a) :
    ∃ mark cs mark' rest span, ahead = mark :: (cs ++ mark' :: rest) ∧ isQuote mark = true ∧
      cs ≠ [] ∧ (∀ c ∈ cs, isQuote c = false) ∧ isQuote mark' = true ∧ span.chars = cs ∧
        after ⟨between (mark' :: (cs.reverse ++ mark :: before)) rest, (1, span) :: marks⟩ =
          some a := by
  simp only [quotedModule, fits_seq_cons, fits_mark, fits_seq_nil] at h
  obtain ⟨mark, _, rfl, hmark, hinside⟩ := of_fits_one h
  obtain ⟨cs, _, rfl, hne, hcs, hclose⟩ := of_fits_run1 hinside
  obtain ⟨mark', rest, rfl, hmark', hafter⟩ := of_fits_one hclose
  exact ⟨mark, cs, mark', rest, _, rfl, hmark, hne, by simpa using hcs, hmark',
    Place.chars_until_between, hafter⟩

theorem isSome_fits_quotedModule {mark mark' : Char} (hmark : isQuote mark = true) (hne : cs ≠ [])
    (hcs : ∀ c ∈ cs, isQuote c = false) (hmark' : isQuote mark' = true)
    (h : ∀ span, (after ⟨between (mark' :: (cs.reverse ++ mark :: before)) rest,
      (1, span) :: marks⟩).isSome = true) :
    (quotedModule.fits ⟨between before (mark :: (cs ++ mark' :: rest)), marks⟩ after).isSome =
      true := by
  simp only [quotedModule, fits_seq_cons, fits_mark, fits_seq_nil]
  exact isSome_fits_one hmark
    (isSome_fits_run1 hne (by simpa using hcs) (isSome_fits_one hmark' (h _)))

end Parts

/-! ## Searching the lines of a source -/

section Lines

variable {β : Type} {p : Pattern} {report : Match → List β} {contribution : Statement → List β}
  {accepts stops : Char → Bool} {before cs ds rest : List Char} {out out' : List β}

/-- What the matches in a piece of the text report. -/
def Reports (p : Pattern) (report : Match → List β) (before cs rest : List Char) (out : List β) :
    Prop :=
  (p.scan before (cs ++ rest)).flatMap report =
    out ++ (p.scan (cs.reverse ++ before) rest).flatMap report

theorem Reports.append (h : Reports p report before cs (ds ++ rest) out)
    (h' : Reports p report (cs.reverse ++ before) ds rest out') :
    Reports p report before (cs ++ ds) rest (out ++ out') := by
  rw [Reports] at h h' ⊢
  rw [List.append_assoc, h, h', List.reverse_append, List.append_assoc, List.append_assoc]

theorem reports_of_skips (h : p.Skips cs rest) (report : Match → List β) (before : List Char) :
    Reports p report before cs rest [] := by
  rw [Reports, h before]
  rfl

/-- What is skipped before a piece adds nothing to it. -/
theorem Reports.skips_append (h : p.Skips cs (ds ++ rest))
    (h' : Reports p report (cs.reverse ++ before) ds rest out) :
    Reports p report before (cs ++ ds) rest out :=
  (reports_of_skips h report before).append h'

/-- What is skipped behind a piece adds nothing to it. -/
theorem Reports.append_skips (h : Reports p report before cs (ds ++ rest) out)
    (h' : p.Skips ds rest) : Reports p report before (cs ++ ds) rest out := by
  have happend := h.append (reports_of_skips h' report _)
  rwa [List.append_nil] at happend

theorem reports_of_scan_eq_cons {m : Match}
    (h : p.scan before (cs ++ rest) = m :: p.scan (cs.reverse ++ before) rest) :
    Reports p report before cs rest (report m) := by
  rw [Reports, h, List.flatMap_cons]

/-- What the matches in the whole of a text report. -/
theorem Reports.flatMap_findAll (h : Reports p report [] cs [] out) (hopens : p.Opens accepts) :
    (p.findAll cs).flatMap report = out := by
  rw [Reports, hopens.scan_nil, List.flatMap_nil, List.append_nil, List.append_nil] at h
  exact h

/-- Nothing, or a line feed, stands before a line. -/
def BeforeLine (before : List Char) : Prop :=
  before.head?.all (· == '\n') = true

theorem BeforeLine.not_word (h : BeforeLine before) : before.head?.any Text.isWordChar = false := by
  cases before with
  | nil => rfl
  | cons c before =>
    obtain rfl : c = '\n' := by simpa [BeforeLine] using h
    exact isWordChar_of_isBlank (c := '\n') (by decide)

theorem BeforeLine.not_word_exportChars (h : BeforeLine before) (exported : Bool) :
    ((Statement.exportChars exported).reverse ++ before).head?.any Text.isWordChar = false := by
  cases exported with
  | false => exact h.not_word
  | true => exact isWordChar_of_isBlank (c := ' ') (by decide)

theorem isNameOrBlank_last (s : Statement) : isNameOrBlank s.last = false := by
  have hlast : s.last = ';' ∨ s.last = '\x7d' := by
    cases s <;> simp [Statement.last]
  rcases hlast with hlast | hlast <;> rw [hlast]
  · exact isNameOrBlank_of_mark (by decide)
  · exact isNameOrBlank_of_mark (by decide)

/-- A line without a stop in it is skipped. -/
theorem skips_of_halts (h : p.Halts accepts stops) (s : Statement)
    (hword : ∀ c, isIdentifierChar c = true → stops c = false)
    (hmarks : ∀ c ∈ s.marks, stops c = false) (hlast : accepts s.last = false) :
    p.Skips s.chars rest := by
  have hchars := s.forall_mem_chars hword hmarks
  obtain ⟨front, hfront⟩ := s.exists_chars_eq
  rw [hfront] at hchars ⊢
  exact h.skips hlast hchars

/-- The head of a function declaration is skipped where its parentheses end what the pattern goes
past, and neither is a stop. -/
theorem skips_function (h : p.Halts accepts stops)
    (hword : ∀ c, isIdentifierChar c = true → stops c = false)
    (hopen : accepts '(' = false) (hclose : accepts ')' = false)
    (hmarks : ∀ c ∈ " (,)".toList, stops c = false) (exported : Bool) (f : Identifier)
    (xs : List Identifier) {returns : Bool} (hbody : p.Skips (Statement.bodyChars returns) rest) :
    p.Skips (Statement.function exported f xs returns).chars rest := by
  have htext : (Statement.function exported f xs returns).chars =
      ((Statement.exportChars exported ++ ("function ".toList ++ f.chars)) ++ ['(']) ++
        ((listChars xs ++ [')']) ++ Statement.bodyChars returns) := by
    rw [Statement.chars_function]
    simp
  rw [htext]
  refine .append (h.skips hopen ?_) (.append (h.skips hclose ?_) hbody)
  · simp only [List.forall_mem_append]
    exact ⟨⟨forall_mem_exportChars hword (hmarks ' ' (by decide)) exported,
      forall_mem_toList hword hmarks (by decide +kernel), f.forall_mem hword⟩,
      List.forall_mem_singleton.2 (hmarks '(' (by decide))⟩
  · simp only [List.forall_mem_append]
    refine ⟨forall_mem_listChars hword (fun c hc ↦ hmarks c ?_) xs,
      List.forall_mem_singleton.2 (hmarks ')' (by decide))⟩
    exact (by decide : ∀ c ∈ ", ".toList, c ∈ " (,)".toList) c hc

/-- A variable that holds an arrow function is skipped where the equals sign and the semicolon end
what the pattern goes past.  The parenthesis of its parameters may be a stop: then the pattern does
not begin with it or with the blank in front of it. -/
theorem skips_arrow {begins : Char → Bool} (hopens : p.Opens begins) (h : p.Halts accepts stops)
    (hword : ∀ c, isIdentifierChar c = true → stops c = false)
    (hbegins : ∀ c ∈ " (".toList, begins c = false) (hequals : accepts '=' = false)
    (hsemicolon : accepts ';' = false) (hmarks : ∀ c ∈ " =,)>.+;".toList, stops c = false)
    (exported : Bool) (f : Identifier) (xs : ArrowParameters) (e : Sum) :
    p.Skips (Statement.arrow exported f xs e).chars rest := by
  have hsome {cs : List Char} (hcs : cs ⊆ " =,)>.+;".toList) : ∀ c ∈ cs, stops c = false :=
    fun c hc ↦ hmarks c (hcs hc)
  have htext : (Statement.arrow exported f xs e).chars =
      (Statement.exportChars exported ++ ("const ".toList ++ (f.chars ++ [' '])) ++ ['=']) ++
        ([' '] ++ (xs.chars ++ ((" => ".toList ++ e.chars) ++ [';']))) := by
    rw [Statement.chars_arrow]
    simp
  have hhead : ∀ c ∈ Statement.exportChars exported ++ ("const ".toList ++ (f.chars ++ [' '])) ++
      ['='], stops c = false := by
    simp only [List.forall_mem_append]
    exact ⟨⟨forall_mem_exportChars hword (hmarks ' ' (by decide)) exported,
      forall_mem_toList hword hmarks (by decide +kernel), f.forall_mem hword, hsome (by decide)⟩,
      hsome (by decide)⟩
  have hvalue : ∀ c ∈ (" => ".toList ++ e.chars) ++ [';'], stops c = false := by
    simp only [List.forall_mem_append]
    exact ⟨⟨hsome (by decide), e.forall_mem hword (hsome (by decide))⟩, hsome (by decide)⟩
  have hblank : begins ' ' = false := hbegins ' ' (by decide)
  have hparen : begins '(' = false := hbegins '(' (by decide)
  rw [htext]
  refine .append (h.skips hequals hhead)
    (.append (hopens.skips (List.forall_mem_singleton.2 hblank)) ?_)
  cases xs with
  | list xs =>
    have hlist : (ArrowParameters.list xs).chars ++ ((" => ".toList ++ e.chars) ++ [';']) =
        ['('] ++ (((listChars xs ++ [')']) ++ (" => ".toList ++ e.chars)) ++ [';']) := by
      simp [ArrowParameters.chars]
    rw [hlist]
    refine .append (hopens.skips (List.forall_mem_singleton.2 hparen)) (h.skips hsemicolon ?_)
    rw [List.append_assoc]
    refine List.forall_mem_append.2 ⟨List.forall_mem_append.2 ⟨?_, hsome (by decide)⟩, hvalue⟩
    exact forall_mem_listChars hword (hsome (by decide)) xs
  | single x =>
    rw [← List.append_assoc]
    refine h.skips hsemicolon ?_
    rw [List.append_assoc]
    exact List.forall_mem_append.2 ⟨x.forall_mem hword, hvalue⟩

/-- **The matches in a source report what its statements contribute.** -/
theorem flatMap_findAll_source (hopens : p.Opens accepts) (hfeed : accepts '\n' = false)
    (h : ∀ s ss before, BeforeLine before →
      Reports p report before s.chars ('\n' :: sourceChars ss) (contribution s))
    (ss : List Statement) :
    (p.findAll (sourceChars ss)).flatMap report = ss.flatMap contribution := by
  have hskips {rest : List Char} : p.Skips ['\n'] rest := hopens.skips (by simpa using hfeed)
  have hscan (before : List Char) (hbefore : BeforeLine before) :
      (p.scan before (sourceChars ss)).flatMap report = ss.flatMap contribution := by
    induction ss generalizing before with
    | nil =>
      change (p.scan before []).flatMap report = []
      rw [hopens.scan_nil]
      rfl
    | cons s ss ih =>
      have hline : Reports p report before (s.chars ++ ['\n']) (sourceChars ss) (contribution s) :=
        (h s ss before hbefore).append_skips hskips
      have hsource : sourceChars (s :: ss) = s.chars ++ ['\n'] ++ sourceChars ss := List.flatMap_cons
      rw [hsource, hline, List.flatMap_cons]
      refine congrArg _ (ih _ ?_)
      rw [List.reverse_concat]
      rfl
  rw [Pattern.findAll_eq_scan]
  exact hscan [] rfl

end Lines

end Rules

end Outline

end ChangeContext
