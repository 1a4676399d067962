import ChangeContext.Proofs.Text.Digits
import ChangeContext.Toml.Reader
import ChangeContext.Toml.Writer

/-!
# Reading written texts

A text is written in one of four ways, and each of them is read back.  What all have in common is
that the text is put down unit by unit (`Unit`): a character as it stands, a line feed, or an escape.
Between the units stand the marks that were not escaped, never more in a row than the reader lets
pass (`Spells`).  The writer spells texts in this sense (`spells_escaped`, `spells_self`), and a
reader that comes behind the opening marks reads what was spelt (`readBasic_of_spells`,
`readLines_of_spells`).
-/

set_option autoImplicit false

namespace ChangeContext

namespace Toml

/-! ## Escapes -/

/-- Behind a backslash these characters stand for `c`, whatever follows them. -/
structure Escapes (e : List Char) (c : Char) : Prop where
  readEscape_eq : ∀ rest, readEscape (e ++ rest) = some (c, rest)
  /-- The backslash is not at the end of a line. -/
  lineEnd?_eq : ∀ rest, lineEnd? (skipBlanks (e ++ rest)) = none

theorem hexValue?_hexDigit {n : Nat} (h : n < 16) : hexValue? (hexDigit n) = some n := by
  interval_cases n <;> decide

/-- The four digits of a character below 256. -/
theorem readHexChar_hexDigits {n : Nat} (h : n < 256) (rest : List Char) :
    readHexChar 4 ('0' :: '0' :: hexDigit (n / 16) :: hexDigit (n % 16) :: rest) =
      some (Char.ofNat n, rest) := by
  have hzero : hexValue? '0' = some 0 := by decide
  have hsum : (0 * 16 + 0) * 16 + n / 16 = n / 16 := by omega
  have hchar : charOf? n = some (Char.ofNat n) := by
    rw [charOf?, if_pos]
    simp only [Bool.or_eq_true, decide_eq_true_eq]
    omega
  simp only [readHexChar, List.take_succ_cons, List.take_zero, List.length_cons, List.length_nil,
    List.drop_succ_cons, List.drop_zero, List.mapM_cons, List.mapM_nil, hzero,
    hexValue?_hexDigit (show n / 16 < 16 by omega), hexValue?_hexDigit (Nat.mod_lt n (by decide)),
    Option.bind_eq_bind, Option.bind_some, Option.pure_def, List.foldl_cons, List.foldl_nil]
  have hn : n / 16 * 16 + n % 16 = n := by omega
  simp [hn, hchar]

/-- A backslash and one more character. -/
theorem escapes_singleton {d c : Char} (h : ∀ rest, readEscape (d :: rest) = some (c, rest))
    (hblank : isBlank d = false) (hend : d ≠ '\n' ∧ d ≠ '\r') : Escapes [d] c where
  readEscape_eq := h
  lineEnd?_eq rest := by
    rw [List.singleton_append, skipBlanks, List.dropWhile_cons_of_neg (by simp [hblank]), lineEnd?]
    · exact fun _ heq ↦ hend.1 (List.cons.inj heq).1
    · exact fun _ heq ↦ hend.2 (List.cons.inj heq).1

/-- A control character by its number. -/
theorem escapes_control {c : Char} (h : c.toNat < 256) :
    Escapes ['u', '0', '0', hexDigit (c.toNat / 16), hexDigit (c.toNat % 16)] c where
  readEscape_eq rest := by
    have hread := readHexChar_hexDigits h rest
    rwa [Char.ofNat_toNat] at hread
  lineEnd?_eq rest := rfl

/-! ## Units -/

/-- These characters are read as the character `c`.  Line feeds are read if `lines` holds, and
backslashes begin escapes if `escapes` does. -/
inductive Unit (mark : Char) (escapes lines : Bool) : List Char → Char → Prop where
  /-- A character that stands for itself. -/
  | plain {c : Char} (htext : isTextChar c = true) (hmark : c ≠ mark)
      (hescape : c = '\\' → escapes = false) : Unit mark escapes lines [c] c
  /-- The end of a line. -/
  | feed (hlines : lines = true) : Unit mark escapes lines ['\n'] '\n'
  /-- An escape. -/
  | escape {e : List Char} {c : Char} (hescapes : escapes = true) (h : Escapes e c) :
      Unit mark escapes lines ('\\' :: e) c

/-- A text written unit by unit, and between the units up to `limit` marks in a row that stand for
themselves; up to `room` of them at the beginning. -/
inductive Spells (mark : Char) (escapes lines : Bool) (limit : Nat) :
    (room : Nat) → List Char → List Char → Prop where
  | nil {room : Nat} : Spells mark escapes lines limit room [] []
  | mark {room : Nat} {body cs : List Char} (h : Spells mark escapes lines limit room body cs) :
      Spells mark escapes lines limit (room + 1) (mark :: body) (mark :: cs)
  | unit {room : Nat} {u body cs : List Char} {c : Char} (hunit : Unit mark escapes lines u c)
      (h : Spells mark escapes lines limit limit body cs) :
      Spells mark escapes lines limit room (u ++ body) (c :: cs)

/-- The characters that texts are put between. -/
def IsMark (mark : Char) : Prop :=
  mark = '"' ∨ mark = '\''

instance (mark : Char) : Decidable (IsMark mark) :=
  inferInstanceAs (Decidable (_ ∨ _))

section Units

variable {mark : Char} {escapes lines : Bool} {limit room bound : Nat}
variable {u body cs text rest : List Char} {c : Char}

theorem IsMark.isTextChar (h : IsMark mark) : isTextChar mark = true := by
  rcases h with rfl | rfl <;> decide

theorem IsMark.ne_backslash (h : IsMark mark) : mark ≠ '\\' := by
  rcases h with rfl | rfl <;> decide

/-- No unit begins with a mark. -/
theorem Unit.stops (h : Unit mark escapes lines u c) (hmark : IsMark mark) :
    u ≠ [] ∧ ∀ rest, Text.Stops (· == mark) (u ++ rest) := by
  have hcons {d : Char} {ds : List Char} (hne : d ≠ mark) :
      d :: ds ≠ [] ∧ ∀ rest, Text.Stops (· == mark) (d :: ds ++ rest) :=
    ⟨List.cons_ne_nil _ _, fun rest ↦ Text.stops_cons (beq_eq_false_iff_ne.2 hne)⟩
  cases h with
  | plain htext hne hescape => exact hcons hne
  | feed hlines => exact hcons (by rcases hmark with rfl | rfl <;> decide)
  | escape hescapes he => exact hcons hmark.ne_backslash.symm

/-- A character of a text does not end a line. -/
theorem lineEnd?_of_isTextChar (h : isTextChar c = true) (rest : List Char) :
    lineEnd? (c :: rest) = none := by
  rw [lineEnd?]
  · intro rest' heq
    rw [(List.cons.inj heq).1] at h
    exact absurd h (by decide)
  · intro rest' heq
    rw [(List.cons.inj heq).1] at h
    exact absurd h (by decide)

/-- The marks at the beginning are few, and either there is nothing else or a unit follows. -/
theorem Spells.exists_marks (h : Spells mark escapes lines limit room body cs)
    (hmark : IsMark mark) : ∃ r ≤ room,
      body = List.replicate r mark ∧ cs = List.replicate r mark ∨
      ∃ body', body = List.replicate r mark ++ body' ∧
        ∀ rest, Text.Stops (· == mark) (body' ++ rest) := by
  induction h with
  | nil => exact ⟨0, Nat.zero_le _, .inl ⟨rfl, rfl⟩⟩
  | mark h ih =>
    obtain ⟨r, hr, ⟨rfl, rfl⟩ | ⟨body', rfl, hstops⟩⟩ := ih
    · exact ⟨r + 1, Nat.succ_le_succ hr, .inl ⟨rfl, rfl⟩⟩
    · exact ⟨r + 1, Nat.succ_le_succ hr, .inr ⟨body', rfl, hstops⟩⟩
  | unit hunit h ih =>
    refine ⟨0, Nat.zero_le _, .inr ⟨_, rfl, ?_⟩⟩
    intro rest
    have hstops := (hunit.stops hmark).2
    rw [List.append_eq, List.append_assoc]
    exact hstops _

/-! ## Texts on several lines -/

theorem markRun_replicate_append {r : Nat} (hr : r ≤ 5) (h : Text.Stops (· == mark) rest) :
    markRun mark (List.replicate r mark ++ rest) = r := by
  have hmarks : ∀ c ∈ List.replicate r mark, (c == mark) = true := by
    intro c hc
    rw [List.eq_of_mem_replicate hc, beq_self_eq_true]
  have hstops : Text.Stops (· == mark) (rest.take (5 - r)) := by
    intro c hc
    rw [List.head?_take] at hc
    split at hc
    next => simp at hc
    next => exact h c hc
  rw [markRun, List.take_append, List.take_of_length_le (by simpa using hr), List.length_replicate,
    Text.takeWhile_append_of_stops hmarks hstops, List.length_replicate]

/-- Three marks close a text, and up to two before them belong to it. -/
theorem readLines_close {r : Nat} (hr : r ≤ 2) (h : Text.Stops (· == mark) rest) :
    readLines mark escapes (bound + 1) text
        (List.replicate r mark ++ ([mark, mark, mark] ++ rest)) =
      some (String.ofList (text.reverse ++ List.replicate r mark), rest) := by
  have hmarks : List.replicate r mark ++ ([mark, mark, mark] ++ rest) =
      List.replicate (r + 3) mark ++ rest := by
    rw [List.replicate_add, List.append_assoc]
    rfl
  rw [hmarks]
  unfold readLines
  simp only [markRun_replicate_append (Nat.add_le_add_right hr 3) h, if_pos (Nat.le_add_left 3 r)]
  simp

/-- A character that stands for itself. -/
theorem readLines_plain (htext : isTextChar c = true) (hescape : c = '\\' → escapes = false)
    (hrun : markRun mark (c :: rest) < 3) :
    readLines mark escapes (bound + 1) text (c :: rest) =
      readLines mark escapes bound (c :: text) rest := by
  have hplain : (decide (c = '\\') && escapes) = false := by
    by_cases hc : c = '\\'
    · simp [hescape hc]
    · simp [hc]
  simp only [readLines, if_neg (Nat.not_le.2 hrun), lineEnd?_of_isTextChar htext, hplain, htext,
    Bool.false_eq_true, if_false, if_true]

theorem readLines_unit (h : Unit mark escapes lines u c) (hmark : IsMark mark) :
    readLines mark escapes (bound + 1) text (u ++ rest) =
      readLines mark escapes bound (c :: text) rest := by
  have hrun : markRun mark (u ++ rest) = 0 := by
    have hzero := markRun_replicate_append (Nat.zero_le 5) ((h.stops hmark).2 rest)
    rwa [List.replicate_zero, List.nil_append] at hzero
  have hopen : ¬ 3 ≤ markRun mark (u ++ rest) := by
    rw [hrun]
    decide
  cases h with
  | plain htext hne hescape => exact readLines_plain htext hescape (Nat.not_le.1 hopen)
  | feed hlines =>
    rw [List.singleton_append] at hopen ⊢
    simp only [readLines, if_neg hopen, lineEnd?]
  | @escape e _ hescapes he =>
    subst hescapes
    rw [List.cons_append] at hopen ⊢
    have hline : lineEnd? ('\\' :: (e ++ rest)) = none := lineEnd?_of_isTextChar (by decide) _
    simp only [readLines, if_neg hopen, hline, he.lineEnd?_eq, he.readEscape_eq, decide_true,
      Bool.and_self, if_true]

/-- **A text between three marks is read back.** -/
theorem readLines_of_spells (h : Spells mark escapes lines 2 room body cs) (hroom : room ≤ 2)
    (hmark : IsMark mark) (hrest : Text.Stops (· == mark) rest) (hbound : body.length < bound) :
    readLines mark escapes bound text (body ++ ([mark, mark, mark] ++ rest)) =
      some (String.ofList (text.reverse ++ cs), rest) := by
  induction h generalizing bound text with
  | nil =>
    obtain ⟨bound, rfl⟩ := Nat.exists_eq_succ_of_ne_zero (Nat.ne_of_gt hbound)
    exact readLines_close (Nat.zero_le 2) hrest
  | @mark room body cs h ih =>
    obtain ⟨bound, rfl⟩ := Nat.exists_eq_succ_of_ne_zero (Nat.ne_zero_of_lt hbound)
    rw [List.length_cons] at hbound
    obtain ⟨r, hr, ⟨hbody, hcs⟩ | ⟨body', hbody, hstops⟩⟩ := (Spells.mark h).exists_marks hmark
    · rw [hbody, hcs]
      exact readLines_close (Nat.le_trans hr hroom) hrest
    · -- the marks do not yet close the text, so the first of them is passed
      have hrun : markRun mark (mark :: (body ++ ([mark, mark, mark] ++ rest))) < 3 := by
        rw [← List.cons_append, hbody, List.append_assoc,
          markRun_replicate_append (by omega) (hstops _)]
        omega
      rw [List.cons_append, readLines_plain hmark.isTextChar (fun h ↦ absurd h hmark.ne_backslash)
        hrun, ih (by omega) (by omega)]
      simp
  | @unit room u body cs c hunit h ih =>
    obtain ⟨bound, rfl⟩ := Nat.exists_eq_succ_of_ne_zero (Nat.ne_zero_of_lt hbound)
    have hlength := List.length_pos_of_ne_nil (hunit.stops hmark).1
    rw [List.length_append] at hbound
    rw [List.append_assoc, readLines_unit hunit hmark, ih (Nat.le_refl 2) (by omega)]
    simp

/-- A text does not begin with a line end that was not in it. -/
theorem Spells.lineEnd?_eq (h : Spells mark escapes lines limit room body cs) (hmark : IsMark mark)
    (hhead : lines = true → cs.head? ≠ some '\n') (rest : List Char) :
    lineEnd? (body ++ mark :: rest) = none := by
  cases h with
  | nil => exact lineEnd?_of_isTextChar hmark.isTextChar _
  | mark h => exact lineEnd?_of_isTextChar hmark.isTextChar _
  | unit hunit h =>
    rw [List.append_assoc]
    cases hunit with
    | plain htext hne hescape => exact lineEnd?_of_isTextChar htext _
    | feed hlines => exact absurd rfl (hhead hlines)
    | escape hescapes he => exact lineEnd?_of_isTextChar (by decide) _

/-! ## Texts on one line -/

/-- **A text between two quotation marks is read back.** -/
theorem readBasic_of_spells (h : Spells '"' true false 0 room body cs) (hroom : room = 0)
    (hbound : body.length < bound) :
    readBasic bound text (body ++ '"' :: rest) =
      some (String.ofList (text.reverse ++ cs), rest) := by
  induction h generalizing bound text with
  | nil =>
    obtain ⟨bound, rfl⟩ := Nat.exists_eq_succ_of_ne_zero (Nat.ne_zero_of_lt hbound)
    rw [List.nil_append, readBasic, List.append_nil]
  | mark h ih => exact absurd hroom (Nat.succ_ne_zero _)
  | @unit room u body cs c hunit h ih =>
    obtain ⟨bound, rfl⟩ := Nat.exists_eq_succ_of_ne_zero (Nat.ne_zero_of_lt hbound)
    have hlength := List.length_pos_of_ne_nil (hunit.stops (.inl rfl)).1
    rw [List.length_append] at hbound
    have hrest := @ih bound (c :: text) rfl (by omega)
    rw [List.reverse_cons, List.append_assoc, List.singleton_append] at hrest
    rw [List.append_assoc, ← hrest]
    cases hunit with
    | plain htext hne hescape =>
      rw [List.singleton_append, readBasic, if_pos htext]
      · exact hne
      · intro heq
        exact absurd (hescape heq) (by decide)
    | feed hlines => exact absurd hlines Bool.false_ne_true
    | escape hescapes he => rw [List.cons_append, readBasic, he.readEscape_eq]

/-- **A text between two apostrophes is read back.** -/
theorem readLiteral_append (h : ∀ c ∈ cs, isTextChar c = true ∧ c ≠ '\'') :
    readLiteral (cs ++ '\'' :: rest) = some (String.ofList cs, rest) := by
  have htake : (cs ++ '\'' :: rest).takeWhile (fun c ↦ c ≠ '\'' && isTextChar c) = cs := by
    refine Text.takeWhile_append_of_stops ?_ (Text.stops_cons (by decide))
    intro c hc
    simp [h c hc]
  rw [readLiteral, htake, List.drop_left]
  rfl

/-! ## How texts are written -/

theorem isTextChar_of_isControl (h : isControl c = false) (hfeed : c ≠ '\n') :
    isTextChar c = true := by
  by_cases htab : c = '\t'
  · rw [htab]
    decide
  · simp only [isControl, bne_iff_ne.2 htab, bne_iff_ne.2 hfeed, Bool.and_true,
      Bool.or_eq_false_iff, decide_eq_false_iff_not, beq_eq_false_iff_ne] at h
    simp only [isTextChar, Bool.or_eq_true, Bool.and_eq_true, decide_eq_true_eq, bne_iff_ne]
    exact .inr ⟨by omega, h.2⟩

theorem toNat_lt_of_isControl (h : isControl c = true) : c.toNat < 256 := by
  simp only [isControl, Bool.or_eq_true, Bool.and_eq_true, decide_eq_true_eq, beq_iff_eq] at h
  omega

/-- A character is written as a unit. -/
theorem unit_escapeChar (hquote : c ≠ '"') (hfeed : c ≠ '\n') :
    Unit '"' true lines (escapeChar c) c := by
  have hshort {d c : Char} (h : ∀ rest, readEscape (d :: rest) = some (c, rest))
      (hblank : isBlank d = false) (hend : d ≠ '\n' ∧ d ≠ '\r') :
      Unit '"' true lines ['\\', d] c := .escape rfl (escapes_singleton h hblank hend)
  rw [escapeChar]
  split
  next h =>
    subst h
    exact hshort (fun _ ↦ rfl) (by decide) (by decide)
  split
  next h =>
    subst h
    exact hshort (fun _ ↦ rfl) (by decide) (by decide)
  split
  next h =>
    subst h
    exact hshort (fun _ ↦ rfl) (by decide) (by decide)
  split
  next h =>
    subst h
    exact hshort (fun _ ↦ rfl) (by decide) (by decide)
  split
  next h =>
    subst h
    exact hshort (fun _ ↦ rfl) (by decide) (by decide)
  split
  next hcontrol => exact .escape rfl (escapes_control (toNat_lt_of_isControl hcontrol))
  next _ _ _ _ hbackslash hcontrol =>
    refine .plain (isTextChar_of_isControl (Bool.eq_false_iff.2 hcontrol) hfeed) hquote ?_
    intro heq
    exact absurd heq hbackslash

/-- **What is written with escapes spells the text.** -/
theorem spells_escaped (allowed run : Nat) (lines : Bool) (cs : List Char) :
    Spells '"' true lines allowed (allowed - run) (escaped allowed lines run cs) cs := by
  fun_induction escaped allowed lines run cs with
  | case1 run => exact .nil
  | case2 run rest hrun ih =>
    have hroom : allowed - run = (allowed - (run + 1)) + 1 := by omega
    rw [hroom]
    exact .mark ih
  | case3 run rest hrun ih =>
    have hunit : Unit '"' true lines ['\\', '"'] '"' :=
      .escape rfl (escapes_singleton (fun _ ↦ rfl) (by decide) (by decide))
    exact .unit hunit ih
  | case4 run rest ih =>
    cases lines with
    | true => exact .unit (.feed rfl) ih
    | false =>
      have hunit : Unit '"' true false ['\\', 'n'] '\n' :=
        .escape rfl (escapes_singleton (fun _ ↦ rfl) (by decide) (by decide))
      exact .unit hunit ih
  | case5 run c rest hquote hfeed ih => exact .unit (unit_escapeChar hquote hfeed) ih

theorem longestRun_pos (mark : Char) (current : Nat) (cs : List Char) :
    current ≤ longestRun mark current cs := by
  induction cs generalizing current with
  | nil => exact Nat.le_refl _
  | cons c cs ih =>
    rw [longestRun]
    split
    next => exact Nat.le_trans (Nat.le_succ _) (ih (current + 1))
    next => exact Nat.le_max_left ..

/-- A text without a mark. -/
theorem not_mem_of_longestRun_eq_zero (h : longestRun mark 0 cs = 0) : mark ∉ cs := by
  induction cs with
  | nil => exact List.not_mem_nil
  | cons c cs ih =>
    rw [longestRun] at h
    split at h
    next =>
      have hpos := longestRun_pos mark (0 + 1) cs
      omega
    next hne =>
      rw [List.mem_cons, not_or]
      exact ⟨fun heq ↦ hne heq.symm, ih (by omega)⟩

/-- **A text without control characters spells itself**, if there are few marks in a row in it. -/
theorem spells_self (current : Nat) (hcontrol : ∀ c ∈ cs, isControl c = false)
    (hrun : longestRun mark current cs ≤ limit) :
    Spells mark false true limit (limit - current) cs cs := by
  induction cs generalizing current with
  | nil => exact .nil
  | cons c cs ih =>
    obtain ⟨hc, hcs⟩ := List.forall_mem_cons.1 hcontrol
    rw [longestRun] at hrun
    split at hrun
    next heq =>
      have hle := longestRun_pos mark (current + 1) cs
      have hroom : limit - current = (limit - (current + 1)) + 1 := by omega
      rw [heq, hroom]
      exact .mark (ih (current + 1) hcs hrun)
    next hne =>
      have hrest := ih 0 hcs (Nat.le_trans (Nat.le_max_right ..) hrun)
      by_cases hfeed : c = '\n'
      · subst hfeed
        exact .unit (.feed rfl) hrest
      · exact .unit (.plain (isTextChar_of_isControl hc hfeed) hne fun _ ↦ rfl) hrest

/-! ## Texts of all kinds -/

/-- What the choice of a style tells about a text. -/
theorem style_cases (t : Traits) :
    Style.for t = .basic ∧ t.lineFeed = false ∨
    Style.for t = .literal ∧ t.control = false ∧ t.apostrophes = 0 ∧ t.lineFeed = false ∨
    Style.for t = .basicLines ∨
    Style.for t = .literalLines ∧ t.control = false ∧ t.apostrophes ≤ 2 := by
  rw [Style.for]
  split
  next h =>
    simp only [Bool.and_eq_true, Bool.not_eq_true'] at h
    exact .inl ⟨rfl, h.2⟩
  split
  next h =>
    simp only [Bool.and_eq_true, Bool.not_eq_true', decide_eq_true_eq] at h
    exact .inr (.inl ⟨rfl, h.1.1, h.1.2, h.2⟩)
  split
  next => exact .inr (.inr (.inl rfl))
  split
  next h =>
    simp only [Bool.and_eq_true, Bool.not_eq_true', decide_eq_true_eq] at h
    exact .inr (.inr (.inr ⟨rfl, h.1, h.2⟩))
  split
  next => exact .inr (.inr (.inl rfl))
  next h => exact .inl ⟨rfl, Bool.eq_false_iff.2 h⟩

/-- No mark follows that would make a text longer. -/
def EndsText (rest : List Char) : Prop :=
  ∀ mark, IsMark mark → Text.Stops (· == mark) rest

/-- Where no marks stand for themselves, there is none at the beginning. -/
theorem Spells.stops (h : Spells mark escapes lines limit 0 body cs) (hmark : IsMark mark) :
    Text.Stops (· == mark) body := by
  obtain ⟨r, hr, hmarks⟩ := h.exists_marks hmark
  obtain rfl := Nat.le_zero.1 hr
  rcases hmarks with ⟨rfl, -⟩ | ⟨body', rfl, hstops⟩
  · exact Text.stops_nil
  · have hnil := hstops []
    rwa [List.append_nil] at hnil

/-- What begins with one mark is a text on one line, unless two more marks follow. -/
theorem readString_basic (hbody : Text.Stops (· == '"') body) (hrest : EndsText rest) :
    readString bound ('"' :: (body ++ '"' :: rest)) = readBasic bound [] (body ++ '"' :: rest) := by
  rw [readString]
  intro rest' heq
  cases body with
  | nil =>
    have hhead : rest.head? = some '"' := by rw [(List.cons.inj heq).2, List.head?_cons]
    exact absurd (hrest '"' (.inl rfl) '"' hhead) (by decide)
  | cons c body =>
    obtain ⟨rfl, -⟩ := List.cons.inj heq
    exact absurd (hbody '"' rfl) (by decide)

theorem readString_literal (hbody : ∀ c ∈ cs, isTextChar c = true ∧ c ≠ '\'')
    (hrest : EndsText rest) :
    readString bound ('\'' :: (cs ++ '\'' :: rest)) = some (String.ofList cs, rest) := by
  rw [readString, readLiteral_append hbody]
  intro rest' heq
  cases cs with
  | nil =>
    have hhead : rest.head? = some '\'' := by rw [(List.cons.inj heq).2, List.head?_cons]
    exact absurd (hrest '\'' (.inr rfl) '\'' hhead) (by decide)
  | cons c cs => exact (hbody c List.mem_cons_self).2 (List.cons.inj heq).1

/-- The line end before a text of several lines is no part of it. -/
theorem skipFirstLineEnd_append (h : Spells mark escapes true limit room body cs)
    (hmark : IsMark mark) (rest : List Char) :
    skipFirstLineEnd ((if cs.contains '\n' then ['\n'] else []) ++ (body ++ mark :: rest)) =
      body ++ mark :: rest := by
  split
  next => rfl
  next hfeed =>
    have hhead : cs.head? ≠ some '\n' := by
      intro hhead
      exact hfeed (List.contains_iff_mem.2 (List.mem_of_mem_head? hhead))
    rw [List.nil_append, skipFirstLineEnd, h.lineEnd?_eq hmark fun _ ↦ hhead, Option.getD_none]

theorem readString_lines (h : Spells mark (mark == '"') true 2 2 body cs) (hmark : IsMark mark)
    (hrest : EndsText rest) (hbound : body.length < bound) :
    readString bound (mark :: mark :: mark ::
        ((if cs.contains '\n' then ['\n'] else []) ++ (body ++ mark :: mark :: mark :: rest))) =
      some (String.ofList cs, rest) := by
  have hstart (inner : List Char) : readString bound (mark :: mark :: mark :: inner) =
      readLines mark (mark == '"') bound [] (skipFirstLineEnd inner) := by
    rcases hmark with rfl | rfl <;> rfl
  rw [hstart, skipFirstLineEnd_append h hmark]
  exact readLines_of_spells h (Nat.le_refl 2) hmark (hrest mark hmark) hbound

/-- **A written text is read back.** -/
theorem readString_stringChars (s : String) (hrest : EndsText rest)
    (hbound : (stringChars s).length ≤ bound) :
    readString bound (stringChars s ++ rest) = some (s, rest) := by
  have hcontrols (h : (Traits.of s.toList).control = false) :
      ∀ c ∈ s.toList, isControl c = false := by
    intro c hc
    exact Bool.eq_false_iff.2 (List.any_eq_false.1 h c hc)
  rcases style_cases (Traits.of s.toList) with
    ⟨hstyle, hfeed⟩ | ⟨hstyle, hcontrol, hrun, hfeed⟩ | hstyle | ⟨hstyle, hcontrol, hrun⟩
  · have hspells := spells_escaped 0 0 false s.toList
    simp only [stringChars, hstyle, List.length_append, List.length_cons, List.length_nil,
      List.cons_append, List.append_assoc, List.nil_append] at hbound ⊢
    rw [readString_basic (hspells.stops (.inl rfl)) hrest,
      readBasic_of_spells hspells rfl (by omega), List.reverse_nil, List.nil_append,
      String.ofList_toList]
  · have hchars : ∀ c ∈ s.toList, isTextChar c = true ∧ c ≠ '\'' := by
      intro c hc
      refine ⟨isTextChar_of_isControl (hcontrols hcontrol c hc) ?_, ?_⟩
      · rintro rfl
        exact Bool.eq_false_iff.1 hfeed (List.contains_iff_mem.2 hc)
      · rintro rfl
        exact not_mem_of_longestRun_eq_zero hrun hc
    simp only [stringChars, hstyle, List.cons_append, List.append_assoc, List.nil_append]
    rw [readString_literal hchars hrest, String.ofList_toList]
  · have hread := readString_lines (spells_escaped 2 0 true s.toList) (.inl rfl) hrest
      (show (escaped 2 true 0 s.toList).length < bound by
        simp only [stringChars, hstyle, List.length_append] at hbound
        have hthree : "\"\"\"".toList.length = 3 := rfl
        omega)
    rw [String.ofList_toList] at hread
    simp only [stringChars, hstyle, List.append_assoc]
    exact hread
  · have hread := readString_lines (spells_self 0 (hcontrols hcontrol) hrun) (.inr rfl) hrest
      (show s.toList.length < bound by
        simp only [stringChars, hstyle, List.length_append] at hbound
        have hthree : "'''".toList.length = 3 := rfl
        omega)
    rw [String.ofList_toList] at hread
    simp only [stringChars, hstyle, List.append_assoc]
    exact hread

end Units

end Toml

end ChangeContext
