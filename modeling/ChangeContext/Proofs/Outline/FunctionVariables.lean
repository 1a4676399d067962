import ChangeContext.Proofs.Outline.FunctionDeclarations

/-!
# Variables that hold functions found by their pattern

Behind the keyword of a declaration the pattern goes past names and blanks to an equals sign, and
what stands behind that has to be a function: the word for one, parentheses with an arrow behind
them, or a name with an arrow behind it.  `Holds` says what stands there.  Of the common statements
only arrow functions have it; a call of `require` has an equals sign but no function behind it.
-/

set_option autoImplicit false

namespace ChangeContext

namespace Outline

namespace Rules

open Pattern
open Place (between)
open Text (append_cons_inj)

section

variable {before ahead : List Char} {m : Match} {stop : Place}

/-- A mark that can come first behind the name of a variable. -/
def stopsVariable (c : Char) : Bool :=
  ":=".toList.contains c

theorem stopsVariable_of_isIdentifierChar (c : Char) (h : isIdentifierChar c = true) :
    stopsVariable c = false :=
  contains_of_isIdentifierChar (by decide) c h

/-- The ways in which a function can be held by a variable. -/
def heldFunctions : List Pattern :=
  [seq [word "function", blanks, optional (char '*'), blanks, optional name, blanks, parens 2],
    seq [parens 3, blanks, annotation, word "=>"],
    seq [mark 4 name, blanks, word "=>"]]

/-- What stands ahead where a held function fits.  With what stands behind it, and the stretch of its
parameters under their number, goes something that is known of them. -/
inductive Holds (known : List Char → Nat × Span → Prop) : List Char → Prop where
  /-- The word for a function, with names and blanks up to a mark. -/
  | word {cs rest : List Char} {mark : Char} (hcs : ∀ c ∈ cs, isNameOrBlank c = true)
      (hmark : mark = '*' ∨ mark = '(') : Holds known ("function".toList ++ (cs ++ mark :: rest))
  /-- Parentheses with a type behind them. -/
  | typed {cs blanks rest : List Char} (hcs : ∀ c ∈ cs, c ≠ ')')
      (hblanks : ∀ c ∈ blanks, Text.isBlank c = true) :
      Holds known ('(' :: (cs ++ ')' :: (blanks ++ ':' :: rest)))
  /-- Parentheses with an arrow behind them. -/
  | list {cs blanks rest : List Char} {span : Span} (hcs : ∀ c ∈ cs, c ≠ ')')
      (hblanks : ∀ c ∈ blanks, Text.isBlank c = true) (hspan : span.chars = cs)
      (hknown : known rest (3, span)) :
      Holds known ('(' :: (cs ++ ')' :: (blanks ++ ("=>".toList ++ rest))))
  /-- A name with an arrow behind it. -/
  | single {cs blanks rest : List Char} {span : Span} (hhead : cs.head?.any isNameStart = true)
      (hcs : ∀ c ∈ cs, isNameRest c = true) (hblanks : ∀ c ∈ blanks, Text.isBlank c = true)
      (hspan : span.chars = cs) (hknown : known rest (4, span)) :
      Holds known (cs ++ (blanks ++ ("=>".toList ++ rest)))

section Holds

variable {α : Type} {marks : List (Nat × Span)} {after : Reached → Option α} {a : α}

theorem holds_of_fits
    (h : (oneOf heldFunctions).fits ⟨between before ahead, marks⟩ after = some a) :
    Holds (fun rest mark ↦ ∃ before', after ⟨between before' rest, mark :: marks⟩ = some a)
      ahead := by
  obtain ⟨p, hp, h⟩ := of_fits_oneOf (List.cons_ne_nil _ _) h
  rcases List.mem_cons.1 hp with rfl | hp
  · simp only [fits_seq_cons] at h
    obtain ⟨_, rfl, h₁⟩ := of_fits_word h
    obtain ⟨blanks₁, _, rfl, hblanks₁, h₂⟩ := of_fits_run h₁
    rcases of_fits_optional h₂ with hstar | h₃
    · obtain ⟨rest, rfl, -⟩ := of_fits_char hstar
      exact .word (isNameOrBlank_of_forall_isBlank hblanks₁) (.inl rfl)
    · obtain ⟨blanks₂, _, rfl, hblanks₂, h₄⟩ := of_fits_run h₃
      rcases of_fits_optional h₄ with h₅ | h₅
      · obtain ⟨f, _, rfl, -, hf, h₆⟩ := of_fits_name h₅
        obtain ⟨blanks₃, _, rfl, hblanks₃, h₇⟩ := of_fits_run h₆
        obtain ⟨cs, rest, span, rfl, -⟩ := of_fits_parens h₇
        have hfront : ∀ c ∈ blanks₁ ++ (blanks₂ ++ (f ++ blanks₃)), isNameOrBlank c = true := by
          simp only [List.forall_mem_append]
          exact ⟨isNameOrBlank_of_forall_isBlank hblanks₁,
            isNameOrBlank_of_forall_isBlank hblanks₂,
            fun c hc ↦ isNameOrBlank_of_isNameRest (hf c hc),
            isNameOrBlank_of_forall_isBlank hblanks₃⟩
        simpa using Holds.word hfront (.inr rfl)
      · obtain ⟨blanks₃, _, rfl, hblanks₃, h₆⟩ := of_fits_run h₅
        obtain ⟨cs, rest, span, rfl, -⟩ := of_fits_parens h₆
        have hfront : ∀ c ∈ blanks₁ ++ (blanks₂ ++ blanks₃), isNameOrBlank c = true := by
          simp only [List.forall_mem_append]
          exact ⟨isNameOrBlank_of_forall_isBlank hblanks₁,
            isNameOrBlank_of_forall_isBlank hblanks₂, isNameOrBlank_of_forall_isBlank hblanks₃⟩
        simpa using Holds.word hfront (.inr rfl)
  · rcases List.mem_cons.1 hp with rfl | hp
    · simp only [fits_seq_cons, fits_seq_nil] at h
      obtain ⟨cs, _, span, rfl, hcs, hspan, h₁⟩ := of_fits_parens h
      obtain ⟨blanks, _, rfl, hblanks, h₂⟩ := of_fits_run h₁
      rcases of_fits_optional h₂ with hcolon | h₃
      · rw [fits_both] at hcolon
        obtain ⟨rest, rfl, -⟩ := of_fits_char hcolon
        exact .typed hcs hblanks
      · obtain ⟨rest, rfl, hafter⟩ := of_fits_word h₃
        exact .list hcs hblanks hspan ⟨_, hafter⟩
    · obtain rfl := List.mem_singleton.1 hp
      simp only [fits_seq_cons, fits_mark, fits_seq_nil] at h
      obtain ⟨cs, _, rfl, hhead, hcs, h₁⟩ := of_fits_name h
      obtain ⟨blanks, _, rfl, hblanks, h₂⟩ := of_fits_run h₁
      obtain ⟨rest, rfl, hafter⟩ := of_fits_word h₂
      exact .single hhead hcs hblanks Place.chars_until_between ⟨_, hafter⟩

theorem Holds.mono {known known' : List Char → Nat × Span → Prop} {cs : List Char}
    (h : Holds known cs) (hmono : ∀ rest mark, known rest mark → known' rest mark) :
    Holds known' cs := by
  cases h with
  | word hcs hmark => exact .word hcs hmark
  | typed hcs hblanks => exact .typed hcs hblanks
  | list hcs hblanks hspan hknown => exact .list hcs hblanks hspan (hmono _ _ hknown)
  | single hhead hcs hblanks hspan hknown =>
    exact .single hhead hcs hblanks hspan (hmono _ _ hknown)

/-- A held function begins with something other than a blank. -/
theorem Holds.stops {known : List Char → Nat × Span → Prop} {cs : List Char} (h : Holds known cs) :
    Text.Stops Text.isBlank cs := by
  cases h with
  | word hcs hmark => exact Text.stops_cons (by decide)
  | typed hcs hblanks => exact Text.stops_cons (by decide)
  | list hcs hblanks hspan hknown => exact Text.stops_cons (by decide)
  | @single cs blanks rest span hhead hcs hblanks hspan hknown =>
    cases cs with
    | nil => simp at hhead
    | cons c cs => exact Text.stops_cons (isBlank_of_isNameStart (by simpa using hhead))

/-- Behind the name nothing is marked but the parameters of the held function. -/
theorem holds_of_match {place : Place} {span : Span}
    (h : (oneOf heldFunctions).fits ⟨between before ahead, [(1, span)]⟩
      (fun r ↦ some (⟨place.until r.place, r.marks⟩, r.place)) = some (m, stop)) :
    Holds (fun rest mark ↦ m.marks = [mark, (1, span)] ∧ stop.ahead = rest) ahead := by
  refine (holds_of_fits h).mono fun rest mark ⟨before', hsome⟩ ↦ ?_
  obtain ⟨rfl, rfl⟩ := Prod.mk.inj (Option.some_inj.1 hsome)
  exact ⟨rfl, rfl⟩

end Holds

/-- **Where a variable that holds a function fits**, the first mark opens its type, or it is the
equals sign before the function. -/
theorem of_functionVariable
    (h : functionVariable.matchAt? (between before ahead) = some (m, stop)) :
    ∃ cs mark rest, ahead = cs ++ mark :: rest ∧ (∀ c ∈ cs, isNameOrBlank c = true) ∧
      (mark = ':' ∨ mark = '=' ∧ ∃ w blanks name blanks' span blanks'' tail held,
        w ∈ ["const", "let", "var"] ∧ cs = w.toList ++ (blanks ++ (name ++ blanks')) ∧
        (∀ c ∈ blanks, Text.isBlank c = true) ∧ name.head?.any isNameStart = true ∧
        (∀ c ∈ name, isNameRest c = true) ∧ (∀ c ∈ blanks', Text.isBlank c = true) ∧
        span.chars = name ∧ rest = blanks'' ++ tail ∧ (∀ c ∈ blanks'', Text.isBlank c = true) ∧
        (tail = held ∨ ∃ blanks, blanks ≠ [] ∧ (∀ c ∈ blanks, Text.isBlank c = true) ∧
          tail = "async".toList ++ (blanks ++ held)) ∧
        Holds (fun rest mark ↦ m.marks = [mark, (1, span)] ∧ stop.ahead = rest) held) := by
  simp only [matchAt?, functionVariable, fits_seq_cons, fits_mark, fits_seq_nil] at h
  obtain ⟨p, hp, h₁⟩ := of_fits_oneOf (List.cons_ne_nil _ _) (of_fits_wordEdge h)
  obtain ⟨w, hw, rfl⟩ : ∃ w ∈ ["const", "let", "var"], p = word w := by
    simpa using hp
  obtain ⟨_, rfl, h₂⟩ := of_fits_word h₁
  obtain ⟨blanks, _, rfl, hne, hblanks, h₃⟩ := of_fits_run1 h₂
  obtain ⟨name, _, rfl, hhead, hname, h₄⟩ := of_fits_name h₃
  obtain ⟨blanks', _, rfl, hblanks', h₅⟩ := of_fits_run h₄
  have hfront : ∀ c ∈ w.toList ++ (blanks ++ (name ++ blanks')), isNameOrBlank c = true := by
    have hword : ∀ c ∈ w.toList, isNameOrBlank c = true := by
      simp only [List.mem_cons, List.not_mem_nil, or_false] at hw
      rcases hw with rfl | rfl | rfl <;> exact isNameOrBlank_of_words (by decide)
    simp only [List.forall_mem_append]
    exact ⟨hword, isNameOrBlank_of_forall_isBlank hblanks,
      fun c hc ↦ isNameOrBlank_of_isNameRest (hname c hc),
      isNameOrBlank_of_forall_isBlank hblanks'⟩
  refine ⟨w.toList ++ (blanks ++ (name ++ blanks')), ?_⟩
  rcases of_fits_optional h₅ with hcolon | h₆
  · rw [fits_both] at hcolon
    obtain ⟨rest, rfl, -⟩ := of_fits_char hcolon
    exact ⟨':', rest, by simp, hfront, .inl rfl⟩
  · obtain ⟨_, rfl, h₇⟩ := of_fits_char h₆
    obtain ⟨blanks'', tail, rfl, hblanks'', h₈⟩ := of_fits_run h₇
    refine ⟨'=', blanks'' ++ tail, by simp, hfront, .inr ⟨rfl, w, blanks, name, blanks', ?_⟩⟩
    rcases of_fits_maybeWord h₈ with ⟨cs, held, rfl, hcs, hblanksCs, h₉⟩ | h₉
    · exact ⟨_, blanks'', _, held, hw, rfl, hblanks, hhead, hname, hblanks', Place.chars_until_between, rfl,
        hblanks'', .inr ⟨cs, hcs, hblanksCs, rfl⟩, holds_of_match h₉⟩
    · exact ⟨_, blanks'', tail, tail, hw, rfl, hblanks, hhead, hname, hblanks', Place.chars_until_between, rfl,
        hblanks'', .inl rfl, holds_of_match h₉⟩

theorem opens_functionVariable : functionVariable.Opens fun c ↦ "clv".toList.contains c := by
  intro before ahead h
  obtain ⟨⟨m, stop⟩, h⟩ := Option.isSome_iff_exists.1 h
  simp only [matchAt?, functionVariable, fits_seq_cons] at h
  obtain ⟨p, hp, h₁⟩ := of_fits_oneOf (List.cons_ne_nil _ _) (of_fits_wordEdge h)
  simp only [List.mem_cons, List.not_mem_nil, or_false] at hp
  rcases hp with rfl | rfl | rfl <;>
  · obtain ⟨rest, rfl, -⟩ := of_fits_word h₁
    rfl

theorem halts_functionVariable : functionVariable.Halts isNameOrBlank stopsVariable := by
  intro before ahead h
  obtain ⟨⟨m, stop⟩, h⟩ := Option.isSome_iff_exists.1 h
  obtain ⟨cs, mark, rest, rfl, hcs, hmark⟩ := of_functionVariable h
  have hstop : isNameOrBlank mark = false ∧ stopsVariable mark = true := by
    rcases hmark with rfl | ⟨rfl, -⟩ <;> exact ⟨isNameOrBlank_of_mark (by decide), by decide⟩
  rw [find?_append_of_accepts hcs, List.find?_cons_of_pos (by simp [hstop.1])]
  exact hstop.2

section Holds

variable {known : List Char → Nat × Span → Prop} {held rest : List Char}

/-- An arrow with parentheses before it. -/
theorem Holds.of_list (h : Holds known held) (xs : List Identifier)
    (heq : held = '(' :: (listChars xs ++ ')' :: ' ' :: '=' :: '>' :: rest)) :
    ∃ span, span.chars = listChars xs ∧ known rest (3, span) := by
  have hparen : isIdentifierChar ')' = false := by decide
  have hclose : ∀ c ∈ listChars xs, decide (c ≠ ')') = true := by
    simpa using forall_mem_listChars (ne_of_isIdentifierChar hparen) (by decide) xs
  have hone : ∀ c ∈ [' '], Text.isBlank c = true := by decide
  cases h with
  | word hcs hmark => simp at heq
  | typed hcs hblanks =>
    obtain ⟨-, -, hbehind⟩ := append_cons_inj (· ≠ ')') (by simpa using hcs) (by decide) hclose
      (by decide) (List.cons.inj heq).2
    obtain ⟨-, hmark, -⟩ := append_cons_inj Text.isBlank hblanks (by decide) hone (by decide) hbehind
    exact absurd hmark (by decide)
  | list hcs hblanks hspan hknown =>
    obtain ⟨rfl, -, hbehind⟩ := append_cons_inj (· ≠ ')') (by simpa using hcs) (by decide) hclose
      (by decide) (List.cons.inj heq).2
    obtain ⟨-, -, hrest⟩ := append_cons_inj Text.isBlank hblanks (by decide) hone (by decide) hbehind
    obtain rfl := (List.cons.inj hrest).2
    exact ⟨_, hspan, hknown⟩
  | @single cs _ _ _ hhead hcs hblanks hspan hknown =>
    cases cs with
    | nil => simp at hhead
    | cons c cs =>
      obtain rfl : c = '(' := (List.cons.inj heq).1
      exact absurd (show isNameStart '(' = true from hhead) (by decide)

/-- An arrow with one identifier before it. -/
theorem Holds.of_single (h : Holds known held) (x : Identifier)
    (heq : held = x.chars ++ ' ' :: '=' :: '>' :: rest) :
    ∃ span, span.chars = x.chars ∧ known rest (4, span) := by
  obtain ⟨c, cs, hx, hc⟩ := x.exists_eq_cons
  have hone : ∀ c ∈ [' '], Text.isBlank c = true := by decide
  have hparens {front : List Char} (heq : '(' :: front = x.chars ++ ' ' :: '=' :: '>' :: rest) :
      False := by
    rw [hx] at heq
    obtain rfl : '(' = c := (List.cons.inj heq).1
    exact absurd hc (by decide)
  cases h with
  | @word cs rest' mark hcs hmark =>
    have hfunction : ∀ c ∈ "function".toList ++ cs, isNameOrBlank c = true :=
      List.forall_mem_append.2 ⟨isNameOrBlank_of_words (by decide), hcs⟩
    have hx : ∀ c ∈ x.chars ++ [' '], isNameOrBlank c = true :=
      List.forall_mem_append.2 ⟨x.forall_mem isNameOrBlank_of_isIdentifierChar,
        isNameOrBlank_of_words (by decide)⟩
    have houtside : isNameOrBlank mark = false := by
      rcases hmark with rfl | rfl <;> exact isNameOrBlank_of_mark (by decide)
    have hmarks : mark = '=' := (append_cons_inj isNameOrBlank hfunction houtside hx
      (isNameOrBlank_of_mark (by decide)) (by simpa using heq)).2.1
    subst hmarks
    exact absurd hmark (by decide)
  | typed hcs hblanks => exact absurd heq fun heq ↦ hparens heq
  | list hcs hblanks hspan hknown => exact absurd heq fun heq ↦ hparens heq
  | @single cs blanks rest' span hhead hcs hblanks hspan hknown =>
    have hbefore : Text.Stops isNameRest (blanks ++ ("=>".toList ++ rest')) :=
      stops_of_forall_isBlank hblanks (Text.stops_cons (isNameRest_of_mark (c := '=') (by decide)))
    obtain ⟨rfl, hbehind⟩ :=
      eq_of_name hcs (isName_chars x).all hbefore
        (Text.stops_cons (isNameRest_of_isBlank (by decide))) heq
    obtain ⟨-, -, hrest⟩ := append_cons_inj Text.isBlank hblanks (by decide) hone (by decide) hbehind
    obtain rfl := (List.cons.inj hrest).2
    exact ⟨_, hspan, hknown⟩

/-- A held function does not begin with an equals sign. -/
theorem Holds.ne_equals (h : Holds known held) : held.head? ≠ some '=' := by
  cases h with
  | word hcs hmark => simp
  | typed hcs hblanks => simp
  | list hcs hblanks hspan hknown => simp
  | @single cs _ _ _ hhead hcs hblanks hspan hknown =>
    cases cs with
    | nil => simp at hhead
    | cons c cs =>
      intro h
      obtain rfl : c = '=' := Option.some_inj.1 h
      exact absurd (show isNameStart '=' = true from hhead) (by decide)

end Holds

/-- How a variable that holds an arrow function is written, up to its arrow. -/
def arrowChars (f : Identifier) (xs : ArrowParameters) : List Char :=
  "const ".toList ++ (f.chars ++ (" = ".toList ++ (xs.chars ++ " =>".toList)))

theorem arrowChars_eq (f : Identifier) (xs : ArrowParameters) :
    arrowChars f xs =
      "const ".toList ++ (f.chars ++ (" = ".toList ++ (xs.chars ++ " =>".toList))) := rfl

theorem arrowChars_append (f : Identifier) (xs : ArrowParameters) (rest : List Char) :
    arrowChars f xs ++ rest = "const".toList ++ ([' '] ++ (f.chars ++ ([' '] ++ '=' :: ([' '] ++
      (xs.chars ++ ([' '] ++ ("=>".toList ++ rest))))))) := by
  simp [arrowChars_eq]

theorem isSome_heldFunctions {α : Type} {marks : List (Nat × Span)} {after : Reached → Option α}
    (xs : ArrowParameters) {rest : List Char} (h : ∀ r, (after r).isSome = true) :
    ((oneOf heldFunctions).fits
      ⟨between before (xs.chars ++ ([' '] ++ ("=>".toList ++ rest))), marks⟩ after).isSome = true := by
  cases xs with
  | list xs =>
    have hclose : ∀ c ∈ listChars xs, c ≠ ')' :=
      forall_mem_listChars (ne_of_isIdentifierChar (by decide)) (by decide) xs
    have htext : (ArrowParameters.list xs).chars ++ ([' '] ++ ("=>".toList ++ rest)) =
        '(' :: (listChars xs ++ ')' :: ([' '] ++ ("=>".toList ++ rest))) := by
      simp [ArrowParameters.chars]
    rw [htext]
    refine isSome_fits_oneOf (List.mem_cons_of_mem _ List.mem_cons_self) ?_
    simp only [fits_seq_cons, fits_seq_nil]
    exact isSome_fits_parens hclose fun _ ↦ isSome_fits_run (by decide) (isSome_fits_absent
      (isSome_fits_word (h _)))
  | single x =>
    refine isSome_fits_oneOf (List.mem_cons_of_mem _ (List.mem_cons_of_mem _ List.mem_cons_self)) ?_
    simp only [fits_seq_cons, fits_mark, fits_seq_nil]
    exact isSome_fits_name (isName_chars x) (isSome_fits_run (by decide) (isSome_fits_word (h _)))

/-- The held function of an arrow is the arrow. -/
theorem Holds.of_arrow {known : List Char → Nat × Span → Prop} {blanks tail held rest : List Char}
    (xs : ArrowParameters) (hblanks : ∀ c ∈ blanks, Text.isBlank c = true)
    (htail : tail = held ∨ ∃ blanks, blanks ≠ [] ∧ (∀ c ∈ blanks, Text.isBlank c = true) ∧
      tail = "async".toList ++ (blanks ++ held)) (h : Holds known held)
    (heq : blanks ++ tail = ' ' :: (xs.chars ++ ([' '] ++ ("=>".toList ++ rest)))) :
    ∃ group span, (group = 3 ∨ group = 4) ∧ span.chars = xs.inner ∧ known rest (group, span) := by
  have hstops : Text.Stops Text.isBlank tail := by
    rcases htail with rfl | ⟨blanks, -, -, rfl⟩
    · exact h.stops
    · exact Text.stops_cons (c := 'a') (by decide)
  cases xs with
  | list xs =>
    have htext : (ArrowParameters.list xs).chars ++ ([' '] ++ ("=>".toList ++ rest)) =
        '(' :: (listChars xs ++ ')' :: ' ' :: '=' :: '>' :: rest) := by
      simp [ArrowParameters.chars]
    rw [htext] at heq
    have hbehind := eq_of_blanks hblanks hstops (Text.stops_cons (by decide)) heq
    rcases htail with rfl | ⟨blanks, -, -, rfl⟩
    · obtain ⟨span, hspan, hknown⟩ := h.of_list xs hbehind
      exact ⟨3, span, .inl rfl, hspan, hknown⟩
    · simp at hbehind
  | single x =>
    have hbehind : tail = x.chars ++ ' ' :: '=' :: '>' :: rest :=
      eq_of_blanks hblanks hstops (stops_of_isNameStart x.head) heq
    rcases htail with rfl | ⟨blanks, hne, hblanks, rfl⟩
    · obtain ⟨span, hspan, hknown⟩ := h.of_single x hbehind
      exact ⟨4, span, .inr rfl, hspan, hknown⟩
    · -- the identifier would be the word itself, and the arrow would have to be a held function
      obtain ⟨c, blanks, rfl⟩ := List.exists_cons_of_ne_nil hne
      have hblank := List.forall_mem_cons.1 hblanks
      have hasync : ∀ c ∈ "async".toList, isNameRest c = true := isNameRest_of_word (by decide)
      have hmore := (eq_of_name hasync (isName_chars x).all
        (Text.stops_cons (isNameRest_of_isBlank hblank.1))
        (Text.stops_cons (isNameRest_of_isBlank (by decide))) hbehind).2
      have hheld := eq_of_blanks hblanks h.stops (Text.stops_cons (by decide)) hmore
      exact absurd (by rw [hheld]; rfl) h.ne_equals

/-- **A variable that holds an arrow function is found with its name and parameters.** -/
theorem scan_functionVariable (f : Identifier) (xs : ArrowParameters) (rest : List Char)
    {before : List Char} (hedge : before.head?.any Text.isWordChar = false) :
    ∃ m, functionOf? m = some (f.text, xs.inner) ∧
      functionVariable.scan before (arrowChars f xs ++ rest) =
        m :: functionVariable.scan ((arrowChars f xs).reverse ++ before) rest := by
  refine exists_scan_eq_cons (by simp [arrowChars_eq]) ?_ ?_
  · rw [arrowChars_append]
    simp only [matchAt?, functionVariable, fits_seq_cons, fits_mark, fits_seq_nil]
    refine isSome_fits_wordEdge ?_ (isSome_fits_oneOf List.mem_cons_self (isSome_fits_word
      (isSome_fits_run1 (by simp) (by decide) (isSome_fits_name (isName_chars f)
        (isSome_fits_run (by decide) (isSome_fits_absent (isSome_fits_char (isSome_fits_run (by decide)
          (isSome_fits_absent (isSome_heldFunctions xs fun _ ↦ rfl))))))))))
    exact Place.atWordEdge_between hedge rfl
  · intro m stop h
    rw [arrowChars_append] at h
    obtain ⟨cs, mark, rest', heq, hcs, hmark⟩ := of_functionVariable h
    have hfront : ∀ c ∈ "const ".toList ++ (f.chars ++ [' ']), isNameOrBlank c = true := by
      simp only [List.forall_mem_append]
      exact ⟨isNameOrBlank_of_words (by decide), f.forall_mem isNameOrBlank_of_isIdentifierChar,
        isNameOrBlank_of_words (by decide)⟩
    have hstop : isNameOrBlank mark = false := by
      rcases hmark with rfl | ⟨rfl, -⟩ <;> exact isNameOrBlank_of_mark (by decide)
    have hequals : isNameOrBlank '=' = false := isNameOrBlank_of_mark (by decide)
    obtain ⟨rfl, rfl, rfl⟩ :=
      append_cons_inj isNameOrBlank hfront hequals hcs hstop (by simpa using heq)
    obtain ⟨-, w, blanks, name, blanks', span, blanks'', tail, held, hw, hword, hblanks, hhead, hname,
      hblanks', hspan, hrest, hblanks'', htail, hheld⟩ := hmark.resolve_left (by decide)
    obtain rfl : w = "const" := by
      simp only [List.mem_cons, List.not_mem_nil, or_false] at hw
      rcases hw with rfl | rfl | rfl
      · rfl
      · simp at hword
      · simp at hword
    obtain rfl : name = f.chars :=
      eq_of_blanks_name hblanks hhead hname (isName_chars f) hblanks'
        (by decide : ∀ c ∈ [' '], Text.isBlank c = true) (by simpa using hword.symm)
    obtain ⟨group, span', hgroup, hspan', hmarks, hahead⟩ :=
      hheld.of_arrow xs hblanks'' htail hrest.symm
    refine ⟨hahead, ?_⟩
    rcases hgroup with rfl | rfl <;>
      simp [functionOf?, Match.group?, Match.firstGroup?, hmarks, List.lookup_cons, Span.text, hspan,
        hspan', Identifier.text]

/-- A call is no held function. -/
theorem Holds.ne_require {known : List Char → Nat × Span → Prop} {held rest : List Char}
    (h : Holds known held) : held ≠ "require".toList ++ '(' :: rest := by
  intro heq
  cases h with
  | word hcs hmark => simp at heq
  | typed hcs hblanks => simp at heq
  | list hcs hblanks hspan hknown => simp at heq
  | @single cs blanks rest' span hhead hcs hblanks hspan hknown =>
    have hfront : ∀ c ∈ cs ++ blanks, isNameOrBlank c = true := List.forall_mem_append.2
      ⟨fun c hc ↦ isNameOrBlank_of_isNameRest (hcs c hc), isNameOrBlank_of_forall_isBlank hblanks⟩
    have hrequire : ∀ c ∈ "require".toList, isNameOrBlank c = true :=
      isNameOrBlank_of_words (by decide)
    have hbehind : (cs ++ blanks) ++ '=' :: '>' :: rest' = "require".toList ++ '(' :: rest := by
      simpa using heq
    have hmark := (append_cons_inj isNameOrBlank hfront (isNameOrBlank_of_mark (by decide)) hrequire
      (isNameOrBlank_of_mark (by decide)) hbehind).2.1
    exact absurd hmark (by decide)

/-- A variable that holds a required module is skipped. -/
theorem skips_require (x : Identifier) (rest : List Char) :
    functionVariable.Skips ("const ".toList ++ (x.chars ++ [' ']) ++ ['='])
      (' ' :: ("require".toList ++ '(' :: rest)) := by
  have hnames : ∀ c ∈ "const ".toList ++ (x.chars ++ [' ']), isNameOrBlank c = true := by
    simp only [List.forall_mem_append]
    exact ⟨isNameOrBlank_of_words (by decide), x.forall_mem isNameOrBlank_of_isIdentifierChar,
      isNameOrBlank_of_words (by decide)⟩
  refine skips_of_forall_suffix fun front back before heq hne ↦ ?_
  by_contra hsome
  obtain ⟨⟨m, stop⟩, h⟩ := Option.ne_none_iff_exists'.1 hsome
  obtain ⟨cs, mark, rest', hahead, hcs, hmark⟩ := of_functionVariable h
  -- the piece goes on with names and blanks up to the equals sign
  obtain ⟨back, c, rfl⟩ := (List.eq_nil_or_concat' back).resolve_left hne
  obtain ⟨hfront, hlast⟩ := List.append_inj' (heq.trans (List.append_assoc ..).symm) rfl
  obtain rfl : '=' = c := by simpa using hlast
  have hback : ∀ c ∈ back, isNameOrBlank c = true :=
    fun c hc ↦ hnames c (by rw [hfront]; exact List.mem_append_right _ hc)
  have hstop : isNameOrBlank mark = false := by
    rcases hmark with rfl | ⟨rfl, -⟩ <;> exact isNameOrBlank_of_mark (by decide)
  have hequals : isNameOrBlank '=' = false := isNameOrBlank_of_mark (by decide)
  obtain ⟨rfl, rfl, rfl⟩ :=
    append_cons_inj isNameOrBlank hback hequals hcs hstop (by simpa using hahead)
  obtain ⟨-, w, blanks, name, blanks', span, blanks'', tail, held, -, -, -, -, -, -, -, hrest,
    hblanks'', htail, hheld⟩ := hmark.resolve_left (by decide)
  have hstops : Text.Stops Text.isBlank tail := by
    rcases htail with rfl | ⟨blanks, -, -, rfl⟩
    · exact hheld.stops
    · exact Text.stops_cons (c := 'a') (by decide)
  have hbehind := eq_of_blanks hblanks'' hstops (Text.stops_cons (c := 'r') (by decide)) hrest.symm
  rcases htail with rfl | ⟨blanks, -, -, rfl⟩
  · exact hheld.ne_require hbehind
  · simp at hbehind

theorem reports_functionVariable (s : Statement) (rest : List Char) {before : List Char}
    (hbefore : BeforeLine before) :
    Reports functionVariable (fun m ↦ (functionOf? m).toList) before s.chars rest
      s.held?.toList := by
  have hword := stopsVariable_of_isIdentifierChar
  have hwhole {s : Statement} (hmarks : ∀ c ∈ s.marks, stopsVariable c = false) :
      Reports functionVariable (fun m ↦ (functionOf? m).toList) before s.chars rest [] :=
    reports_of_skips (skips_of_halts halts_functionVariable s hword hmarks
      (isNameOrBlank_last s)) _ _
  have hsemicolon : isNameOrBlank ';' = false := isNameOrBlank_of_mark (by decide)
  cases s with
  | importFrom clause m => exact hwhole (by simp only [Statement.marks]; decide)
  | function exported f xs returns => exact hwhole (by simp only [Statement.marks]; decide)
  | «class» x => exact hwhole (by simp only [Statement.marks]; decide)
  | exportList a b c => exact hwhole (by simp only [Statement.marks]; decide)
  | require x m =>
    have htext : (Statement.require x m).chars =
        ("const ".toList ++ (x.chars ++ [' ']) ++ ['=']) ++
          (" require('".toList ++ (m.chars ++ "')".toList) ++ [';']) := by
      rw [Statement.chars_require]
      simp
    have hcall : ∀ c ∈ " require('".toList ++ (m.chars ++ "')".toList) ++ [';'],
        stopsVariable c = false := by
      simp only [List.forall_mem_append]
      exact ⟨⟨by decide, m.forall_mem hword (by decide), by decide⟩, by decide⟩
    rw [htext]
    refine .skips_append ?_ (reports_of_skips (halts_functionVariable.skips hsemicolon hcall) _ _)
    have hskips := skips_require x ('\'' :: (m.chars ++ ("');".toList ++ rest)))
    simpa using hskips
  | arrow exported f xs e =>
    have htext : (Statement.arrow exported f xs e).chars =
        Statement.exportChars exported ++ (arrowChars f xs ++ (' ' :: e.chars ++ [';'])) := by
      rw [Statement.chars_arrow]
      simp [arrowChars_eq]
    have hvalue : ∀ c ∈ ' ' :: e.chars ++ [';'], stopsVariable c = false := by
      simp only [List.forall_mem_append, List.forall_mem_cons]
      exact ⟨⟨by decide, e.forall_mem hword (by decide)⟩, by decide⟩
    obtain ⟨m, hm, hscan⟩ := scan_functionVariable f xs (' ' :: e.chars ++ [';'] ++ rest)
      (hbefore.not_word_exportChars exported)
    have hreports : Reports functionVariable (fun m ↦ (functionOf? m).toList) _ _ _ _ :=
      reports_of_scan_eq_cons hscan
    rw [hm] at hreports
    rw [htext]
    refine .skips_append (opens_functionVariable.skips ?_)
      (hreports.append_skips (halts_functionVariable.skips hsemicolon hvalue))
    cases exported <;> decide

/-- **Variables that hold functions are found in the order of the text.** -/
theorem functionsBy_functionVariable (ss : List Statement) :
    functionsBy (sourceChars ss) functionVariable = ss.filterMap Statement.held? := by
  rw [List.filterMap_eq_flatMap_toList, ← flatMap_findAll_source opens_functionVariable (by decide)
    fun s ss before hbefore ↦ reports_functionVariable s _ hbefore]
  exact List.filterMap_eq_flatMap_toList ..

end

end Rules

end Outline

end ChangeContext
