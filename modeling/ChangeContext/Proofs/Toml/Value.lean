import ChangeContext.Proofs.Toml.Text

/-!
# Reading written values

Behind a key stands a text, a list of texts, a number or a truth value, and a line feed follows.
Each is read back as the value it stands for (`readValue_chars`).  The reader is given a bound on its
steps, and as every step goes past a character, the length of what is written is enough.

A number could be taken for the beginning of a date or a time; it is not, since a line feed comes
before any hyphen or colon (`readDateTime?_digits`).
-/

set_option autoImplicit false

namespace ChangeContext

namespace Toml

variable {bound depth : Nat} {cs rest : List Char}

/-! ## Numbers -/

/-- Digits with a line feed behind them. -/
structure Digits (cs : List Char) : Prop where
  ne_nil : cs ≠ []
  isDigit : ∀ c ∈ cs, c.isDigit = true

theorem digits_toDigits (n : Nat) : Digits (Nat.toDigits 10 n) where
  ne_nil := Nat.toDigits_ne_nil
  isDigit _ hc := Text.isDigit_of_mem_toDigits hc

/-- Behind a digit comes a digit or the line feed. -/
theorem Digits.getElem?_ne (h : Digits cs) (rest : List Char) {c : Char} (hc : c.isDigit = false)
    (hfeed : c ≠ '\n') {i : Nat} (hi : i ≤ cs.length) : (cs ++ '\n' :: rest)[i]? ≠ some c := by
  intro hget
  rcases Nat.lt_or_eq_of_le hi with hlt | rfl
  · rw [List.getElem?_append_left hlt] at hget
    have hdigit := h.isDigit c (List.mem_of_getElem? hget)
    rw [hc] at hdigit
    exact Bool.false_ne_true hdigit
  · rw [List.getElem?_append_right (Nat.le_refl _), Nat.sub_self, List.getElem?_cons_zero] at hget
    exact hfeed (Option.some_inj.1 hget).symm

/-- No time begins with a number. -/
theorem readTwo_digits (h : Digits cs) (most : Nat) :
    ((readTwo most (cs ++ '\n' :: rest)).filter fun r ↦ r.2.head? == some ':') = none := by
  match cs, h with
  | [], h => exact absurd rfl h.ne_nil
  | [a], h => simp [readTwo]
  | a :: b :: ds, h =>
    have hget : (a :: b :: ds ++ '\n' :: rest)[2]? ≠ some ':' :=
      h.getElem?_ne rest (by decide) (by decide) (Nat.le_add_left 2 ds.length)
    have hhead : ((ds ++ '\n' :: rest).head? == some ':') = false := by
      rw [List.head?_eq_getElem?]
      exact beq_eq_false_iff_ne.2 hget
    simp only [List.cons_append, readTwo]
    split
    next =>
      split
      next => rw [Option.filter_some, hhead, if_neg Bool.false_ne_true]
      next => rfl
    next => rfl

/-- **No date or time begins with a number.** -/
theorem readDateTime?_digits (h : Digits cs) : readDateTime? (cs ++ '\n' :: rest) = none := by
  have hdate : ((cs ++ '\n' :: rest).take 4).all Char.isDigit = true →
      (cs ++ '\n' :: rest)[4]? ≠ some '-' := by
    intro hall
    refine h.getElem?_ne rest (by decide) (by decide) ?_
    -- among less than four digits and what follows them is the line feed
    by_contra hlt
    have hmem : '\n' ∈ (cs ++ '\n' :: rest).take 4 := by
      rw [List.take_append, List.mem_append]
      refine .inr ?_
      obtain ⟨k, hk⟩ := Nat.exists_eq_succ_of_ne_zero (Nat.sub_ne_zero_of_lt (Nat.not_le.1 hlt))
      rw [hk, List.take_succ_cons]
      exact List.mem_cons_self
    exact absurd (List.all_eq_true.1 hall _ hmem) (by decide)
  rw [readDateTime?, if_neg, readTwo_digits h]
  simp only [Bool.and_eq_true, decide_eq_true_eq, not_and]
  exact hdate

theorem readGrouped_cons_cons {isDigit : Char → Bool} {c d : Char} (hc : isDigit c = true)
    (hmark : d ≠ '_') (more : List Char) :
    readGrouped isDigit (c :: d :: more) =
      if isDigit d then (readGrouped isDigit (d :: more)).map fun r ↦ (c :: r.1, r.2)
      else some ([c], d :: more) := by
  rw [readGrouped, if_pos hc]
  · intro e es heq
    exact absurd heq hmark
  · intro heq
    exact absurd heq hmark

theorem readGrouped_digits (h : Digits cs) :
    readGrouped Char.isDigit (cs ++ '\n' :: rest) = some (cs, '\n' :: rest) := by
  induction cs with
  | nil => exact absurd rfl h.ne_nil
  | cons c cs ih =>
    have hc := h.isDigit c List.mem_cons_self
    cases cs with
    | nil =>
      rw [List.singleton_append, readGrouped_cons_cons hc (by decide)]
      rfl
    | cons d ds =>
      have hds : Digits (d :: ds) :=
        ⟨List.cons_ne_nil _ _, fun e he ↦ h.isDigit e (List.mem_cons_of_mem _ he)⟩
      have hd := hds.isDigit d List.mem_cons_self
      have hread := ih hds
      rw [List.cons_append] at hread
      rw [List.cons_append, List.cons_append,
        readGrouped_cons_cons hc (Text.ne_of_isDigit hd (by decide)), if_pos hd, hread]
      rfl

/-- The digits of an integer are read to the last. -/
theorem readWhole_toDigits (n : Nat) :
    readWhole (Nat.toDigits 10 n ++ '\n' :: rest) = some (Nat.toDigits 10 n, '\n' :: rest) := by
  rcases Nat.eq_zero_or_pos n with rfl | hpos
  · rfl
  · rw [readWhole]
    · exact readGrouped_digits (digits_toDigits n)
    · intro rest' heq
      have hhead := Text.head?_toDigits hpos
      rw [← List.head?_append_of_ne_nil _ Nat.toDigits_ne_nil, heq, List.head?_cons] at hhead
      exact hhead rfl

theorem readNumeral_toDigits {n : Nat} (h : integerInRange n = true) :
    readNumeral (Nat.toDigits 10 n ++ '\n' :: rest) = some (integer n, '\n' :: rest) := by
  obtain ⟨c, cs, hcs, hdigit⟩ := Text.toDigits_eq_cons n
  have hsign : readSign (Nat.toDigits 10 n ++ '\n' :: rest) =
      (false, Nat.toDigits 10 n ++ '\n' :: rest) := by
    rw [hcs, List.cons_append, readSign]
    · exact fun _ heq ↦ Text.ne_of_isDigit hdigit (by decide) (List.cons.inj heq).1
    · exact fun _ heq ↦ Text.ne_of_isDigit hdigit (by decide) (List.cons.inj heq).1
  have hvalue : digitsValue (Nat.toDigits 10 n) = n := Text.foldl_toDigits 0 n
  have hfraction : readFraction ('\n' :: rest) = some ([], '\n' :: rest) := rfl
  have hexponent : readExponent ('\n' :: rest) = some (0, '\n' :: rest) := rfl
  simp only [readNumeral, hsign, readWhole_toDigits, hfraction, hexponent,
    Option.bind_eq_bind, Option.bind_some, if_true, hvalue, Bool.false_eq_true, if_false, h]
  rfl

/-- **A number is read back.** -/
theorem readNumber_toDigits {n : Nat} (h : integerInRange n = true) :
    readNumber (Nat.toDigits 10 n ++ '\n' :: rest) = some (integer n, '\n' :: rest) := by
  have hdigits := digits_toDigits n
  have hsign {c d : Char} (hc : c.isDigit = false) (hfeed : c ≠ '\n') :
      ∀ more, Nat.toDigits 10 n ++ '\n' :: rest = c :: d :: more → False := by
    intro more heq
    exact hdigits.getElem?_ne rest hc hfeed (Nat.zero_le _) (heq ▸ rfl)
  have hbase {c d : Char} (hd : d.isDigit = false) (hfeed : d ≠ '\n') :
      ∀ more, Nat.toDigits 10 n ++ '\n' :: rest = c :: d :: more → False := by
    intro more heq
    exact hdigits.getElem?_ne rest hd hfeed (List.length_pos_of_ne_nil hdigits.ne_nil) (heq ▸ rfl)
  rw [readNumber, readDateTime?_digits hdigits]
  · exact readNumeral_toDigits h
  · exact hbase (by decide) (by decide)
  · exact hbase (by decide) (by decide)
  · exact hbase (by decide) (by decide)
  · exact hsign (by decide) (by decide)
  · exact hsign (by decide) (by decide)
  · exact hsign (by decide) (by decide)
  · exact hsign (by decide) (by decide)

/-! ## Blanks -/

/-- A character at which blanks, line ends and comments stop. -/
def IsSolid (c : Char) : Prop :=
  isBlank c = false ∧ c ≠ '#' ∧ c ≠ '\n' ∧ c ≠ '\r'

instance (c : Char) : Decidable (IsSolid c) :=
  inferInstanceAs (Decidable (_ ∧ _))

theorem skipBlanks_cons {c : Char} (h : isBlank c = false) : skipBlanks (c :: cs) = c :: cs := by
  rw [skipBlanks, List.dropWhile_cons_of_neg (Bool.eq_false_iff.1 h)]

theorem skipSpace?_cons {c : Char} (h : IsSolid c) :
    skipSpace? (bound + 1) (c :: cs) = some (c :: cs) := by
  obtain ⟨hblank, hcomment, hfeed, hreturn⟩ := h
  rw [skipSpace?, skipBlanks_cons hblank]
  split
  next heq => exact absurd (List.cons.inj heq).1 hcomment
  next heq => exact absurd (List.cons.inj heq).1 hfeed
  next heq => exact absurd (List.cons.inj heq).1 hreturn
  next => rfl

/-- A line end, and blanks on the new line. -/
theorem skipSpace?_feed {c : Char} (blanks : Nat) (h : IsSolid c) :
    skipSpace? (bound + 2) ('\n' :: (List.replicate blanks ' ' ++ c :: cs)) = some (c :: cs) := by
  have hblanks : ∀ d ∈ List.replicate blanks ' ', isBlank d = true := by
    intro d hd
    rw [List.eq_of_mem_replicate hd]
    rfl
  have hskip : skipBlanks (List.replicate blanks ' ' ++ c :: cs) = skipBlanks (c :: cs) := by
    rw [skipBlanks, skipBlanks, List.dropWhile_append_of_pos hblanks]
  have hcons : skipSpace? (bound + 1) (List.replicate blanks ' ' ++ c :: cs) = some (c :: cs) := by
    rw [← skipSpace?_cons h, skipSpace?, hskip, ← skipSpace?]
  rw [skipSpace?, skipBlanks_cons (by decide)]
  exact hcons

/-! ## Texts and lists of texts -/

/-- A written text begins with a mark. -/
theorem exists_mark_stringChars (s : String) : ∃ mark cs, IsMark mark ∧ stringChars s = mark :: cs := by
  rw [stringChars]
  split
  · exact ⟨_, _, .inl rfl, rfl⟩
  · exact ⟨_, _, .inr rfl, rfl⟩
  · exact ⟨_, _, .inl rfl, rfl⟩
  · exact ⟨_, _, .inr rfl, rfl⟩

theorem readValue_stringChars (s : String) (hrest : EndsText rest)
    (hbound : (stringChars s).length ≤ bound) :
    readValue bound depth (stringChars s ++ rest) = some (string s, rest) := by
  obtain ⟨mark, cs, hmark, hcs⟩ := exists_mark_stringChars s
  have hread := readString_stringChars s hrest hbound
  rw [hcs, List.length_cons] at hbound
  obtain ⟨bound, rfl⟩ := Nat.exists_eq_succ_of_ne_zero (Nat.ne_zero_of_lt hbound)
  rw [hcs, List.cons_append] at hread ⊢
  rcases hmark with rfl | rfl
  · rw [readValue, hread]
    rfl
  · rw [readValue, hread]
    rfl

/-- A character that is no mark ends a text. -/
theorem endsText_cons {c : Char} (h : ¬ IsMark c) : EndsText (c :: rest) := by
  intro mark hmark
  refine Text.stops_cons (beq_eq_false_iff_ne.2 ?_)
  rintro rfl
  exact h hmark

theorem isSolid_of_isMark {mark : Char} (h : IsMark mark) : IsSolid mark := by
  rcases h with rfl | rfl <;> decide

/-- An item of a list is read, and what stands behind it decides how the list goes on. -/
theorem readItems_stringChars (s : String) {before : List Char} (hrest : EndsText rest)
    (hskip : ∀ (mark : Char) (cs : List Char), IsMark mark →
      skipSpace? ((before ++ mark :: cs).length + 1) (before ++ mark :: cs) = some (mark :: cs))
    (hbound : (stringChars s).length ≤ bound) :
    readItems (bound + 1) depth (before ++ (stringChars s ++ rest)) =
      match skipSpace? (rest.length + 1) rest with
      | some (',' :: more) => (readItems bound depth more).map fun r ↦ (string s :: r.1, r.2)
      | some (']' :: more) => some ([string s], more)
      | _ => none := by
  obtain ⟨mark, cs, hmark, hcs⟩ := exists_mark_stringChars s
  have hread : readValue bound depth (stringChars s ++ rest) = some (string s, rest) :=
    readValue_stringChars s hrest hbound
  have hstart := hskip mark (cs ++ rest) hmark
  rw [hcs, List.cons_append] at hread ⊢
  have hclose : mark ≠ ']' := by rcases hmark with rfl | rfl <;> decide
  rw [readItems, hstart]
  split
  next heq => exact absurd heq (Option.some_ne_none _)
  next heq => exact absurd (List.cons.inj (Option.some_inj.1 heq)).1 hclose
  next heq =>
    rw [← Option.some_inj.1 heq]
    generalize readValue bound depth (mark :: (cs ++ rest)) = item at hread
    subst hread
    rfl

/-- The items of a list with a line for each. -/
theorem readItems_lines (ss : List String)
    (hbound : (ss.flatMap fun s ↦ "\n    ".toList ++ stringChars s ++ [',']).length < bound) :
    readItems bound depth
        ((ss.flatMap fun s ↦ "\n    ".toList ++ stringChars s ++ [',']) ++ '\n' :: ']' :: rest) =
      some (ss.map string, rest) := by
  have hindent : "\n    ".toList = '\n' :: List.replicate 4 ' ' := rfl
  induction ss generalizing bound with
  | nil =>
    obtain ⟨bound, rfl⟩ := Nat.exists_eq_succ_of_ne_zero (Nat.ne_zero_of_lt hbound)
    have hskip : skipSpace? (('\n' :: ']' :: rest).length + 1) ('\n' :: ']' :: rest) =
        some (']' :: rest) := skipSpace?_feed 0 (by decide)
    simp only [List.flatMap_nil, List.nil_append, readItems, hskip, List.map_nil]
  | cons s ss ih =>
    obtain ⟨bound, rfl⟩ := Nat.exists_eq_succ_of_ne_zero (Nat.ne_zero_of_lt hbound)
    have hskip (mark : Char) (cs : List Char) (hmark : IsMark mark) :
        skipSpace? (("\n    ".toList ++ mark :: cs).length + 1) ("\n    ".toList ++ mark :: cs) =
          some (mark :: cs) := skipSpace?_feed 4 (isSolid_of_isMark hmark)
    have hcomma (more : List Char) :
        skipSpace? ((',' :: more).length + 1) (',' :: more) = some (',' :: more) :=
      skipSpace?_cons (by decide)
    rw [List.flatMap_cons, List.length_append, List.length_append, List.length_append,
      List.length_singleton] at hbound
    have hends (more : List Char) : EndsText (',' :: more) := endsText_cons (by decide)
    rw [List.flatMap_cons, List.append_assoc, List.append_assoc, List.append_assoc,
      List.singleton_append, readItems_stringChars s (hends _) hskip (by omega), hcomma]
    show (readItems bound depth _).map (fun r ↦ (string s :: r.1, r.2)) = _
    rw [ih (by omega)]
    rfl

/-- **A list of texts is read back.** -/
theorem readValue_stringsChars (ss : List String) (hbound : (stringsChars ss).length < bound)
    (hdepth : 0 < depth) :
    readValue bound depth (stringsChars ss ++ rest) = some (array (ss.map string), rest) := by
  have hopen (bound : Nat) (more : List Char) : readValue (bound + 1) depth ('[' :: more) =
      (readItems bound (depth - 1) more).map fun r ↦ (array r.1, r.2) := by
    rw [readValue, if_neg (Nat.ne_of_gt hdepth)]
  have hclose (more : List Char) :
      skipSpace? ((']' :: more).length + 1) (']' :: more) = some (']' :: more) :=
    skipSpace?_cons (by decide)
  obtain ⟨bound, rfl⟩ : ∃ n, bound = n + 2 := by
    have hlength : 2 ≤ (stringsChars ss).length := by
      rw [stringsChars.eq_def]
      split <;> simp
    exact ⟨bound - 2, by omega⟩
  rw [stringsChars.eq_def] at hbound ⊢
  split at hbound
  next =>
    show readValue (bound + 2) depth ('[' :: ']' :: rest) = _
    rw [hopen, readItems, hclose]
    rfl
  next s =>
    simp only [List.length_append, List.length_cons, List.length_nil] at hbound
    have hskip (mark : Char) (cs : List Char) (hmark : IsMark mark) :
        skipSpace? (([] ++ mark :: cs).length + 1) ([] ++ mark :: cs) = some (mark :: cs) :=
      skipSpace?_cons (isSolid_of_isMark hmark)
    have hread : readItems (bound + 1) (depth - 1) ([] ++ (stringChars s ++ ']' :: rest)) =
        some ([string s], rest) := by
      rw [readItems_stringChars s (endsText_cons (by decide)) hskip (by omega), hclose]
      rfl
    rw [List.cons_append, List.cons_append, List.append_assoc, hopen]
    show (readItems (bound + 1) (depth - 1) ([] ++ (stringChars s ++ ']' :: rest))).map _ = _
    rw [hread]
    rfl
  next =>
    simp only [List.length_append, List.length_cons, List.length_nil] at hbound
    rw [List.cons_append, List.cons_append, List.append_assoc, hopen]
    show (readItems (bound + 1) (depth - 1) (_ ++ '\n' :: ']' :: rest)).map _ = _
    rw [readItems_lines ss (by omega)]
    rfl

/-- What begins with a digit is a number, or a date. -/
theorem readValue_of_isDigit {c : Char} (h : c.isDigit = true) :
    readValue (bound + 1) depth (c :: cs) = readNumber (c :: cs) := by
  have hdigit : (c.isDigit || c == '+' || c == '-') = true := by rw [h, Bool.true_or, Bool.true_or]
  -- none of the characters that begin another kind of value is a digit
  rw [readValue, if_pos hdigit]
  · exact Text.ne_of_isDigit h (by decide)
  · exact Text.ne_of_isDigit h (by decide)
  · exact Text.ne_of_isDigit h (by decide)
  · exact Text.ne_of_isDigit h (by decide)
  · exact Text.ne_of_isDigit h (by decide)
  · exact Text.ne_of_isDigit h (by decide)
  · exact Text.ne_of_isDigit h (by decide)
  · exact Text.ne_of_isDigit h (by decide)

/-! ## Fields -/

/-- The value of a field. -/
def Field.value : Field → Toml
  | .string s => Toml.string s
  | .strings ss => array (ss.map Toml.string)
  | .natural n => integer n
  | .boolean b => Toml.boolean b

/-- **What is written behind a key is read back.** -/
theorem readValue_chars (f : Field) (hwritable : f.writable = true)
    (hbound : f.chars.length < bound) (hdepth : 0 < depth) :
    readValue bound depth (f.chars ++ '\n' :: rest) = some (f.value, '\n' :: rest) := by
  cases f with
  | string s =>
    exact readValue_stringChars s (endsText_cons (by decide)) (Nat.le_of_lt hbound)
  | strings ss => exact readValue_stringsChars ss hbound hdepth
  | natural n =>
    obtain ⟨bound, rfl⟩ := Nat.exists_eq_succ_of_ne_zero (Nat.ne_zero_of_lt hbound)
    obtain ⟨c, cs, hcs, hdigit⟩ := Text.toDigits_eq_cons n
    have hread : readNumber (Nat.toDigits 10 n ++ '\n' :: rest) = some (integer n, '\n' :: rest) :=
      readNumber_toDigits hwritable
    show readValue (bound + 1) depth (Nat.toDigits 10 n ++ '\n' :: rest) = _
    rw [hcs, List.cons_append] at hread ⊢
    rw [readValue_of_isDigit hdigit, hread]
    rfl
  | boolean b =>
    obtain ⟨bound, rfl⟩ := Nat.exists_eq_succ_of_ne_zero (Nat.ne_zero_of_lt hbound)
    cases b <;> rfl

/-- No value begins with a blank. -/
theorem skipBlanks_chars (f : Field) (rest : List Char) :
    skipBlanks (f.chars ++ rest) = f.chars ++ rest := by
  have hstart : ∃ c cs, f.chars = c :: cs ∧ isBlank c = false := by
    cases f with
    | string s =>
      obtain ⟨mark, cs, hmark, hcs⟩ := exists_mark_stringChars s
      exact ⟨mark, cs, hcs, (isSolid_of_isMark hmark).1⟩
    | strings ss =>
      have hopen : ∃ cs, stringsChars ss = '[' :: cs := by
        rw [stringsChars.eq_def]
        split
        · exact ⟨_, rfl⟩
        · exact ⟨_, rfl⟩
        · exact ⟨_, rfl⟩
      obtain ⟨cs, hcs⟩ := hopen
      exact ⟨'[', cs, hcs, by decide⟩
    | natural n =>
      obtain ⟨c, cs, hcs, hdigit⟩ := Text.toDigits_eq_cons n
      refine ⟨c, cs, hcs, ?_⟩
      rw [isBlank, Bool.or_eq_false_iff, beq_eq_false_iff_ne, beq_eq_false_iff_ne]
      exact ⟨Text.ne_of_isDigit hdigit (by decide), Text.ne_of_isDigit hdigit (by decide)⟩
    | boolean b =>
      cases b with
      | true => exact ⟨'t', _, rfl, by decide⟩
      | false => exact ⟨'f', _, rfl, by decide⟩
  obtain ⟨c, cs, hcs, hblank⟩ := hstart
  rw [hcs]
  exact skipBlanks_cons hblank

end Toml

end ChangeContext
