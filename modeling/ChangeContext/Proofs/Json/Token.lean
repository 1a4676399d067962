import ChangeContext.Json.Reader
import ChangeContext.Json.Writer
import ChangeContext.Proofs.Text.Digits

/-!
# Reading written texts and numerals

A written text is read back character by character: whatever the writer puts for a character, the
reader takes as that character (`readUnits_escapeChar`).  A numeral goes on as long as it can, so it
is read back only if nothing follows that would make it longer (`EndsNumeral`).
-/

set_option autoImplicit false

namespace ChangeContext

namespace Json

/-! ## Texts -/

theorem hexValue?_hexDigit {n : Nat} (h : n < 16) : hexValue? (hexDigit n) = some n := by
  interval_cases n <;> decide

/-- The four digits of a control character. -/
theorem hexValue4?_control {n : Nat} (h : n < 32) :
    hexValue4? '0' '0' (hexDigit (n / 16)) (hexDigit (n % 16)) = some n := by
  have hzero : hexValue? '0' = some 0 := by decide
  rw [hexValue4?, hzero, hexValue?_hexDigit (by omega), hexValue?_hexDigit (by omega)]
  simp only [Option.bind_eq_bind, Option.bind_some, Option.pure_def, Option.some_inj]
  omega

/-- **What is written for a character is read as that character.** -/
theorem readUnits_escapeChar (c : Char) (rest : List Char) (units : List Nat) :
    readUnits (escapeChar c ++ rest) units = readUnits rest (c.toNat :: units) := by
  rw [escapeChar]
  split
  next h => subst h; rfl
  split
  next h => subst h; rfl
  split
  next h => subst h; rfl
  split
  next h => subst h; rfl
  split
  next h => subst h; rfl
  split
  next h => subst h; rfl
  split
  next h => subst h; rfl
  split
  next hcontrol =>
    simp only [List.cons_append, List.nil_append, readUnits, hexValue4?_control hcontrol]
  next hquote hbackslash _ _ _ _ _ hcontrol =>
    rw [List.singleton_append, readUnits]
    · rw [if_neg hcontrol]
    · exact hquote
    · exact fun _ _ _ _ _ h ↦ absurd h hbackslash
    · exact fun _ _ h ↦ absurd h hbackslash

theorem readUnits_flatMap (cs rest : List Char) (units : List Nat) :
    readUnits (cs.flatMap escapeChar ++ '"' :: rest) units =
      some (units.reverse ++ cs.map Char.toNat, rest) := by
  induction cs generalizing units with
  | nil => simp [readUnits]
  | cons c cs ih =>
    rw [List.flatMap_cons, List.append_assoc, readUnits_escapeChar, ih]
    simp

/-- Characters are not halves of surrogate pairs. -/
theorem joinUnits?_map_toNat (cs : List Char) : joinUnits? (cs.map Char.toNat) = some cs := by
  induction cs with
  | nil => rfl
  | cons c cs ih =>
    have hvalid : c.toNat < 0xD800 ∨ 0xDFFF < c.toNat ∧ c.toNat < 0x110000 := c.valid
    have hhigh : (decide (0xD800 ≤ c.toNat) && decide (c.toNat < 0xDC00)) = false := by
      rw [Bool.and_eq_false_iff, decide_eq_false_iff_not, decide_eq_false_iff_not]
      omega
    have hlow : (decide (0xDC00 ≤ c.toNat) && decide (c.toNat < 0xE000)) = false := by
      rw [Bool.and_eq_false_iff, decide_eq_false_iff_not, decide_eq_false_iff_not]
      omega
    rw [List.map_cons]
    unfold joinUnits?
    rw [hhigh, hlow, ih]
    simp

theorem quoteText_some (s : String) :
    quoteText (some s) = '"' :: (s.toList.flatMap escapeChar ++ ['"']) := rfl

theorem quoteText_none : quoteText none = ['"', '\\', 'u', 'd', '8', '0', '0', '"'] := by
  decide

theorem readUnits_surrogate (rest : List Char) :
    readUnits ('\\' :: 'u' :: 'd' :: '8' :: '0' :: '0' :: '"' :: rest) [] = some ([0xD800], rest) := by
  have hhex : hexValue4? 'd' '8' '0' '0' = some 0xD800 := by decide
  simp [readUnits, hhex]

/-- **A written text is read back.** -/
theorem readText_of_quoteText {s : Option String} {cs rest : List Char}
    (h : quoteText s ++ rest = '"' :: cs) : readText cs = some (s, rest) := by
  cases s with
  | some s =>
    rw [quoteText_some] at h
    simp only [List.cons_append, List.append_assoc, List.nil_append, List.cons.injEq, true_and] at h
    rw [← h, readText, readUnits_flatMap]
    simp [joinUnits?_map_toNat]
  | none =>
    have hjoin : joinUnits? [0xD800] = none := by simp [joinUnits?]
    rw [quoteText_none] at h
    simp only [List.cons_append, List.nil_append, List.cons.injEq, true_and] at h
    rw [← h, readText, readUnits_surrogate, Option.map_some, hjoin, Option.map_none]

/-! ## Numerals -/

/-- Nothing follows that would belong to a numeral. -/
def EndsNumeral (rest : List Char) : Prop :=
  Text.Stops (fun c ↦ c.isDigit || c == '.' || c == 'e' || c == 'E') rest

namespace EndsNumeral

variable {rest : List Char}

theorem stops_digits (h : EndsNumeral rest) : Text.Stops Char.isDigit rest := by
  intro c hc
  have hstop := h c hc
  simp only [Bool.or_eq_false_iff] at hstop
  exact hstop.1.1.1

theorem readFraction_eq (h : EndsNumeral rest) : readFraction rest = some ([], rest) := by
  cases rest with
  | nil => rfl
  | cons c rest =>
    have hstop := h c rfl
    simp only [Bool.or_eq_false_iff, beq_eq_false_iff_ne] at hstop
    rw [readFraction]
    exact fun _ heq ↦ hstop.1.1.2 (List.cons.inj heq).1

theorem readExponent_eq (h : EndsNumeral rest) : readExponent rest = some (none, rest) := by
  cases rest with
  | nil => rfl
  | cons c rest =>
    have hstop := h c rfl
    simp only [Bool.or_eq_false_iff, beq_eq_false_iff_ne] at hstop
    rw [readExponent]
    · exact fun _ heq ↦ hstop.1.2 (List.cons.inj heq).1
    · exact fun _ heq ↦ hstop.2 (List.cons.inj heq).1

end EndsNumeral

theorem readDigits_natChars (n : Nat) {rest : List Char} (h : Text.Stops Char.isDigit rest) :
    readDigits (natChars n ++ rest) = some (natChars n, rest) := by
  have hdigits : ∀ c ∈ natChars n, c.isDigit = true := fun c ↦ Text.isDigit_of_mem_toDigits
  rw [readDigits, Text.takeWhile_append_of_stops hdigits h, Text.dropWhile_append_of_stops hdigits h]
  simp [natChars]

@[simp] theorem digitsValue_natChars (n : Nat) : digitsValue (natChars n) = n :=
  Text.foldl_toDigits 0 n

/-- No zero too many is written. -/
theorem noLeadingZero_natChars (n : Nat) :
    (decide ((natChars n).length > 1) && (natChars n).head? == some '0') = false := by
  rw [Bool.and_eq_false_iff]
  by_cases hn : 0 < n
  · exact .inr (beq_eq_false_iff_ne.2 (Text.head?_toDigits hn))
  · obtain rfl : n = 0 := by omega
    exact .inl (by decide)

/-- What is read behind the sign of an integer. -/
theorem readUnsigned_natChars (negative : Bool) (n : Nat) {rest : List Char} (h : EndsNumeral rest)
    (hzero : (negative && n == 0) = false) :
    readUnsigned negative (natChars n ++ rest) =
      some (integer (if negative then -(n : Int) else n), rest) := by
  rw [readUnsigned, readDigits_natChars n h.stops_digits]
  simp only [Option.bind_eq_bind, Option.bind_some, noLeadingZero_natChars, Bool.false_eq_true,
    if_false, h.readFraction_eq, h.readExponent_eq, digitsValue_natChars, hzero]
  rfl

/-- A numeral without a sign begins with a digit. -/
theorem natChars_eq_cons (n : Nat) : ∃ c cs, natChars n = c :: cs ∧ c.isDigit = true :=
  Text.toDigits_eq_cons n

theorem readNumeral_natChars (n : Nat) (rest : List Char) :
    readNumeral (natChars n ++ rest) = readUnsigned false (natChars n ++ rest) := by
  obtain ⟨c, cs, hcs, hdigit⟩ := natChars_eq_cons n
  rw [hcs, List.cons_append, readNumeral]
  exact fun _ heq ↦ Text.ne_of_isDigit hdigit (by decide) (List.cons.inj heq).1

theorem readNumeral_intChars (n : Int) {rest : List Char} (h : EndsNumeral rest) :
    readNumeral (intChars n ++ rest) = some (integer n, rest) := by
  cases n with
  | ofNat n =>
    rw [intChars, readNumeral_natChars, readUnsigned_natChars false n h rfl]
    rfl
  | negSucc n =>
    rw [intChars, List.cons_append, readNumeral, readUnsigned_natChars true (n + 1) h rfl]
    rfl

theorem readSignedDigits_intChars (n : Int) {rest : List Char} (h : EndsNumeral rest) :
    readSignedDigits (intChars n ++ rest) = some (n, rest) := by
  cases n with
  | ofNat n =>
    obtain ⟨c, cs, hcs, hdigit⟩ := natChars_eq_cons n
    have hread := readDigits_natChars n h.stops_digits
    rw [intChars]
    rw [hcs, List.cons_append] at hread ⊢
    rw [readSignedDigits, hread, ← hcs, Option.map_some, digitsValue_natChars]
    · rfl
    · exact fun _ heq ↦ Text.ne_of_isDigit hdigit (by decide) (List.cons.inj heq).1
    · exact fun _ heq ↦ Text.ne_of_isDigit hdigit (by decide) (List.cons.inj heq).1
  | negSucc n =>
    rw [intChars, List.cons_append, readSignedDigits, readDigits_natChars (n + 1) h.stops_digits,
      Option.map_some, digitsValue_natChars]
    rfl

theorem readUnsigned_exponent (d : Decimal) {rest : List Char} (h : EndsNumeral rest) :
    readUnsigned d.negative (natChars d.digits ++ 'e' :: (intChars d.exponent ++ rest)) =
      some (decimal d, rest) := by
  have hstop : Text.Stops Char.isDigit ('e' :: (intChars d.exponent ++ rest)) :=
    Text.stops_cons (by decide)
  have hfraction : readFraction ('e' :: (intChars d.exponent ++ rest)) =
      some ([], 'e' :: (intChars d.exponent ++ rest)) := rfl
  have hexponent : readExponent ('e' :: (intChars d.exponent ++ rest)) =
      some (some d.exponent, rest) := by
    rw [readExponent, readSignedDigits_intChars _ h, Option.map_some]
  rw [readUnsigned, readDigits_natChars _ hstop]
  simp only [Option.bind_eq_bind, Option.bind_some, noLeadingZero_natChars, Bool.false_eq_true,
    if_false, hfraction, hexponent]
  simp

theorem readNumeral_decimalChars (d : Decimal) {rest : List Char} (h : EndsNumeral rest) :
    readNumeral (decimalChars d ++ rest) = some (decimal d, rest) := by
  have hread := readUnsigned_exponent d h
  rw [decimalChars]
  cases hsign : d.negative with
  | true =>
    rw [hsign] at hread
    simpa [readNumeral] using hread
  | false =>
    rw [hsign] at hread
    simp only [Bool.false_eq_true, if_false, List.nil_append, List.append_assoc, List.cons_append]
    rw [readNumeral_natChars, hread]

end Json

end ChangeContext
