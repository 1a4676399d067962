import ChangeContext.Proofs.Json.Token

/-!
# Written JSON is read back

Every value is read back from its indented layout, whatever it holds: texts that name no characters
and numerals of any size included (`read?_indented`).  The reader works with a bound on the depth and
length of what it reads; each step of it consumes at least one character, so the length of the
written text is bound enough.

The induction is on the value, together with the items and members that follow the first.  What is
read after the value has to begin with something that ends a numeral, which is all that the layout
ever puts behind one.
-/

set_option autoImplicit false

namespace ChangeContext

namespace Json

/-! ## Blanks -/

theorem skipBlanks_append {blanks : List Char} (h : ∀ c ∈ blanks, isBlank c = true)
    (cs : List Char) : skipBlanks (blanks ++ cs) = skipBlanks cs :=
  List.dropWhile_append_of_pos h

theorem skipBlanks_cons {c : Char} (h : isBlank c = false) (cs : List Char) :
    skipBlanks (c :: cs) = c :: cs := by
  simp [skipBlanks, h]

theorem isBlank_of_mem_newline {depth : Nat} {c : Char} (h : c ∈ newline depth) :
    isBlank c = true := by
  rcases List.mem_cons.1 h with rfl | h
  · rfl
  · rw [List.eq_of_mem_replicate h]
    rfl

@[simp] theorem skipBlanks_newline (depth : Nat) (cs : List Char) :
    skipBlanks (newline depth ++ cs) = skipBlanks cs :=
  skipBlanks_append (fun _ ↦ isBlank_of_mem_newline) cs

theorem endsNumeral_newline (depth : Nat) (cs : List Char) : EndsNumeral (newline depth ++ cs) :=
  Text.stops_cons (by decide)

theorem readValue_newline (bound depth : Nat) (cs : List Char) :
    readValue bound (newline depth ++ cs) = readValue bound cs := by
  cases bound with
  | zero => rfl
  | succ bound => simp only [readValue, skipBlanks_newline]

theorem readItems_newline (bound depth : Nat) (cs : List Char) :
    readItems bound (newline depth ++ cs) = readItems bound cs := by
  cases bound with
  | zero => rfl
  | succ bound => simp only [readItems, readValue_newline]

theorem readMembers_newline (bound depth : Nat) (cs : List Char) :
    readMembers bound (newline depth ++ cs) = readMembers bound cs := by
  cases bound with
  | zero => rfl
  | succ bound => simp only [readMembers, skipBlanks_newline]

/-! ## The layout of single values -/

theorem indentedChars_null (depth : Nat) : null.indentedChars depth = ['n', 'u', 'l', 'l'] := rfl

theorem indentedChars_true (depth : Nat) :
    (bool true).indentedChars depth = ['t', 'r', 'u', 'e'] := rfl

theorem indentedChars_false (depth : Nat) :
    (bool false).indentedChars depth = ['f', 'a', 'l', 's', 'e'] := rfl

theorem quoteText_eq_cons (s : Option String) : ∃ cs, quoteText s = '"' :: cs := by
  cases s with
  | some s => exact ⟨_, quoteText_some s⟩
  | none => exact ⟨_, quoteText_none⟩

/-- The characters that a numeral can begin with. -/
def startsNumeral (c : Char) : Bool :=
  c.isDigit || c == '-'

theorem intChars_eq_cons (n : Int) : ∃ c cs, intChars n = c :: cs ∧ startsNumeral c = true := by
  cases n with
  | ofNat n =>
    obtain ⟨c, cs, hcs, hdigit⟩ := natChars_eq_cons n
    exact ⟨c, cs, hcs, by simp [startsNumeral, hdigit]⟩
  | negSucc n => exact ⟨'-', natChars (n + 1), rfl, rfl⟩

theorem decimalChars_eq_cons (d : Decimal) :
    ∃ c cs, decimalChars d = c :: cs ∧ startsNumeral c = true := by
  obtain ⟨c, cs, hcs, hdigit⟩ := natChars_eq_cons d.digits
  cases hsign : d.negative with
  | true => exact ⟨'-', natChars d.digits ++ 'e' :: intChars d.exponent, by simp [decimalChars, hsign], rfl⟩
  | false =>
    exact ⟨c, cs ++ 'e' :: intChars d.exponent, by simp [decimalChars, hsign, hcs],
      by simp [startsNumeral, hdigit]⟩

theorem ne_of_startsNumeral {c d : Char} (hc : startsNumeral c = true)
    (hd : startsNumeral d = false) : c ≠ d := by
  rintro rfl
  rw [hc] at hd
  exact Bool.noConfusion hd

theorem isBlank_of_startsNumeral {c : Char} (h : startsNumeral c = true) : isBlank c = false := by
  simp only [isBlank, Bool.or_eq_false_iff, beq_eq_false_iff_ne]
  exact ⟨⟨⟨ne_of_startsNumeral h (by decide), ne_of_startsNumeral h (by decide)⟩,
    ne_of_startsNumeral h (by decide)⟩, ne_of_startsNumeral h (by decide)⟩

theorem readValue_of_startsNumeral (bound : Nat) {c : Char} (h : startsNumeral c = true)
    (cs : List Char) : readValue (bound + 1) (c :: cs) = readNumeral (c :: cs) := by
  rw [readValue, skipBlanks_cons (isBlank_of_startsNumeral h)]
  split
  next heq => exact absurd (List.cons.inj heq).1 (ne_of_startsNumeral h (by decide))
  next heq => exact absurd (List.cons.inj heq).1 (ne_of_startsNumeral h (by decide))
  next heq => exact absurd (List.cons.inj heq).1 (ne_of_startsNumeral h (by decide))
  next heq => exact absurd (List.cons.inj heq).1 (ne_of_startsNumeral h (by decide))
  next heq => exact absurd (List.cons.inj heq).1 (ne_of_startsNumeral h (by decide))
  next heq => exact absurd (List.cons.inj heq).1 (ne_of_startsNumeral h (by decide))
  · rfl

theorem readValue_quoteText (bound : Nat) (s : Option String) (rest : List Char) :
    readValue (bound + 1) (quoteText s ++ rest) = some (string s, rest) := by
  obtain ⟨cs, hcs⟩ := quoteText_eq_cons s
  have hread := @readText_of_quoteText s (cs ++ rest) rest (by rw [hcs, List.cons_append])
  rw [hcs, List.cons_append, readValue, skipBlanks_cons (by decide)]
  simp only [hread, Option.map_some]

/-- A value begins with a character that is neither blank nor the end of an array. -/
theorem indentedChars_eq_cons (v : Json) (depth : Nat) :
    ∃ c cs, v.indentedChars depth = c :: cs ∧ isBlank c = false ∧ c ≠ ']' := by
  cases v with
  | null => exact ⟨_, _, indentedChars_null depth, by decide, by decide⟩
  | bool b =>
    cases b with
    | true => exact ⟨_, _, indentedChars_true depth, by decide, by decide⟩
    | false => exact ⟨_, _, indentedChars_false depth, by decide, by decide⟩
  | integer n =>
    obtain ⟨c, cs, hcs, hstart⟩ := intChars_eq_cons n
    exact ⟨c, cs, hcs, isBlank_of_startsNumeral hstart, ne_of_startsNumeral hstart (by decide)⟩
  | decimal d =>
    obtain ⟨c, cs, hcs, hstart⟩ := decimalChars_eq_cons d
    exact ⟨c, cs, hcs, isBlank_of_startsNumeral hstart, ne_of_startsNumeral hstart (by decide)⟩
  | string s =>
    obtain ⟨cs, hcs⟩ := quoteText_eq_cons s
    exact ⟨'"', cs, hcs, by decide, by decide⟩
  | array items =>
    cases items with
    | nil => exact ⟨'[', _, rfl, by decide, by decide⟩
    | cons v rest => exact ⟨'[', _, rfl, by decide, by decide⟩
  | object members =>
    cases members with
    | nil => exact ⟨'\x7b', _, rfl, by decide, by decide⟩
    | cons m rest => exact ⟨'\x7b', _, rfl, by decide, by decide⟩

/-! ## Items and members -/

/-- The value is read back when it stands `depth` levels deep. -/
def ReadsBack (v : Json) (depth : Nat) : Prop :=
  ∀ bound rest, (v.indentedChars depth).length ≤ bound → EndsNumeral rest →
    readValue bound (v.indentedChars depth ++ rest) = some (v, rest)

/-- The last item of an array. -/
theorem readItems_last {v : Json} {depth : Nat} (hv : ReadsBack v (depth + 1)) {bound : Nat}
    (hbound : (v.indentedChars (depth + 1)).length + 1 ≤ bound) (rest : List Char) :
    readItems bound (v.indentedChars (depth + 1) ++ (newline depth ++ ']' :: rest)) =
      some ([v], rest) := by
  obtain ⟨bound, rfl⟩ := Nat.exists_eq_add_of_le' (Nat.le_of_add_left_le hbound)
  rw [readItems, hv bound _ (by omega) (endsNumeral_newline depth _)]
  simp only [skipBlanks_newline, skipBlanks_cons (show isBlank ']' = false by decide)]

/-- An item that others follow. -/
theorem readItems_cons {v w : Json} {depth : Nat} (hv : ReadsBack v (depth + 1)) {bound : Nat}
    (hbound : (v.indentedChars (depth + 1)).length ≤ bound) {items : List Json}
    {rest cs : List Char} (hitems : readItems bound cs = some (w :: items, rest)) :
    readItems (bound + 1) (v.indentedChars (depth + 1) ++ ',' :: (newline (depth + 1) ++ cs)) =
      some (v :: w :: items, rest) := by
  rw [readItems, hv bound _ hbound (Text.stops_cons (by decide))]
  simp only [skipBlanks_cons (show isBlank ',' = false by decide), readItems_newline, hitems,
    Option.map_some]

theorem readValue_space (bound : Nat) (cs : List Char) :
    readValue bound (' ' :: cs) = readValue bound cs := by
  have hskip : skipBlanks (' ' :: cs) = skipBlanks cs := List.dropWhile_cons_of_pos (by decide)
  cases bound with
  | zero => rfl
  | succ bound => simp only [readValue, hskip]

/-- A member, up to what follows it. -/
theorem readMembers_member {k : Option String} {v : Json} {depth : Nat} (hv : ReadsBack v depth)
    {bound : Nat} (hbound : (v.indentedChars depth).length ≤ bound) {rest : List Char}
    (hrest : EndsNumeral rest) :
    readMembers (bound + 1) (quoteText k ++ ':' :: ' ' :: (v.indentedChars depth ++ rest)) =
      match skipBlanks rest with
      | ',' :: rest => (readMembers bound rest).map fun r ↦ ((k, v) :: r.1, r.2)
      | '\x7d' :: rest => some ([(k, v)], rest)
      | _ => none := by
  obtain ⟨cs, hcs⟩ := quoteText_eq_cons k
  have hkey : readText (cs ++ ':' :: ' ' :: (v.indentedChars depth ++ rest)) =
      some (k, ':' :: ' ' :: (v.indentedChars depth ++ rest)) :=
    readText_of_quoteText (by rw [hcs, List.cons_append])
  have hread :=
    readMembers.eq_2 ('"' :: (cs ++ ':' :: ' ' :: (v.indentedChars depth ++ rest))) bound
  simp only [hkey, skipBlanks_cons (show isBlank '"' = false by decide),
    skipBlanks_cons (show isBlank ':' = false by decide), readValue_space,
    hv bound rest hbound hrest] at hread
  rw [hcs, List.cons_append]
  exact hread

/-- The last member of an object. -/
theorem readMembers_last {k : Option String} {v : Json} {depth : Nat}
    (hv : ReadsBack v (depth + 1)) {bound : Nat}
    (hbound : (v.indentedChars (depth + 1)).length + 1 ≤ bound) (rest : List Char) :
    readMembers bound (quoteText k ++ ':' :: ' ' ::
        (v.indentedChars (depth + 1) ++ (newline depth ++ '\x7d' :: rest))) =
      some ([(k, v)], rest) := by
  obtain ⟨bound, rfl⟩ := Nat.exists_eq_add_of_le' (Nat.le_of_add_left_le hbound)
  rw [readMembers_member hv (by omega) (endsNumeral_newline depth _), skipBlanks_newline,
    skipBlanks_cons (by decide)]
  rfl

/-- A member that others follow. -/
theorem readMembers_cons {k : Option String} {v : Json} {depth : Nat}
    (hv : ReadsBack v (depth + 1)) {bound : Nat}
    (hbound : (v.indentedChars (depth + 1)).length ≤ bound)
    {members : List (Option String × Json)} {rest cs : List Char}
    (hmembers : readMembers bound cs = some (members, rest)) :
    readMembers (bound + 1) (quoteText k ++ ':' :: ' ' ::
        (v.indentedChars (depth + 1) ++ ',' :: (newline (depth + 1) ++ cs))) =
      some ((k, v) :: members, rest) := by
  rw [readMembers_member hv hbound (Text.stops_cons (by decide)), skipBlanks_cons (by decide)]
  simp only [readMembers_newline, hmembers, Option.map_some]

/-! ## Values -/

theorem readValue_array {cs tail : List Char} {c : Char} (h : skipBlanks cs = c :: tail)
    (hc : c ≠ ']') (bound : Nat) :
    readValue (bound + 1) ('[' :: cs) = (readItems bound cs).map fun r ↦ (array r.1, r.2) := by
  rw [readValue, skipBlanks_cons (by decide)]
  simp only [h]
  split
  next heq => exact absurd (List.cons.inj heq).1 hc
  · rfl

theorem readValue_object {cs tail : List Char} {c : Char} (h : skipBlanks cs = c :: tail)
    (hc : c ≠ '\x7d') (bound : Nat) :
    readValue (bound + 1) ('\x7b' :: cs) =
      (readMembers bound cs).map fun r ↦ (object r.1, r.2) := by
  rw [readValue, skipBlanks_cons (by decide)]
  simp only [h]
  split
  next heq => exact absurd (List.cons.inj heq).1 hc
  · rfl

mutual

theorem readsBack (v : Json) (depth : Nat) : ReadsBack v depth := by
  intro bound rest hbound hrest
  obtain ⟨c, cs, hcs, -, -⟩ := indentedChars_eq_cons v depth
  obtain ⟨bound, rfl⟩ : ∃ b, bound = b + 1 := by
    rw [hcs, List.length_cons] at hbound
    exact ⟨bound - 1, by omega⟩
  cases v with
  | null => rfl
  | bool b => cases b <;> rfl
  | integer n =>
    obtain ⟨c, cs, hcs, hstart⟩ := intChars_eq_cons n
    have hread := readNumeral_intChars n hrest
    rw [indentedChars]
    rw [hcs] at hread ⊢
    rw [List.cons_append, readValue_of_startsNumeral bound hstart, ← List.cons_append, hread]
  | decimal d =>
    obtain ⟨c, cs, hcs, hstart⟩ := decimalChars_eq_cons d
    have hread := readNumeral_decimalChars d hrest
    rw [indentedChars]
    rw [hcs] at hread ⊢
    rw [List.cons_append, readValue_of_startsNumeral bound hstart, ← List.cons_append, hread]
  | string s => exact readValue_quoteText bound s rest
  | array items =>
    cases items with
    | nil => rfl
    | cons v items =>
      obtain ⟨c, cs, hcs, hblank, hend⟩ := indentedChars_eq_cons v (depth + 1)
      rw [indentedChars] at hbound ⊢
      simp only [List.length_cons, List.length_append, List.length_nil] at hbound
      have hitems := readItems_indented (readsBack v (depth + 1)) items
        (show _ ≤ bound by omega) rest
      simp only [List.cons_append, List.append_assoc, List.nil_append]
      rw [readValue_array (by rw [skipBlanks_newline, hcs, List.cons_append,
        skipBlanks_cons hblank]) hend, readItems_newline, hitems]
      rfl
  | object members =>
    cases members with
    | nil => rfl
    | cons m members =>
      obtain ⟨k, v⟩ := m
      obtain ⟨cs, hcs⟩ := quoteText_eq_cons k
      rw [indentedChars] at hbound ⊢
      simp only [List.length_cons, List.length_append, List.length_nil] at hbound
      have hmembers := readMembers_indented k (readsBack v (depth + 1)) members
        (show _ ≤ bound by omega) rest
      simp only [List.cons_append, List.append_assoc, List.nil_append]
      rw [readValue_object (by rw [skipBlanks_newline, hcs, List.cons_append,
        skipBlanks_cons (by decide)]) (by decide), readMembers_newline, hmembers]
      rfl

theorem readItems_indented {v : Json} {depth : Nat} (hv : ReadsBack v (depth + 1))
    (items : List Json) {bound : Nat}
    (hbound : (v.indentedChars (depth + 1)).length + (indentedItems depth items).length + 1 ≤ bound)
    (rest : List Char) :
    readItems bound (v.indentedChars (depth + 1) ++
      (indentedItems depth items ++ (newline depth ++ ']' :: rest))) = some (v :: items, rest) := by
  cases items with
  | nil => exact readItems_last hv hbound rest
  | cons w items =>
    rw [indentedItems] at hbound ⊢
    simp only [List.length_cons, List.length_append] at hbound
    obtain ⟨bound, rfl⟩ : ∃ b, bound = b + 1 := ⟨bound - 1, by omega⟩
    have hitems := readItems_indented (readsBack w (depth + 1)) items
      (show _ ≤ bound by omega) rest
    simp only [List.cons_append, List.append_assoc]
    exact readItems_cons hv (by omega) hitems

theorem readMembers_indented (k : Option String) {v : Json} {depth : Nat}
    (hv : ReadsBack v (depth + 1)) (members : List (Option String × Json)) {bound : Nat}
    (hbound : (v.indentedChars (depth + 1)).length + (indentedMembers depth members).length + 1 ≤
      bound) (rest : List Char) :
    readMembers bound (quoteText k ++ ':' :: ' ' :: (v.indentedChars (depth + 1) ++
      (indentedMembers depth members ++ (newline depth ++ '\x7d' :: rest)))) =
      some ((k, v) :: members, rest) := by
  cases members with
  | nil => exact readMembers_last hv hbound rest
  | cons m members =>
    obtain ⟨k', w⟩ := m
    rw [indentedMembers] at hbound ⊢
    simp only [List.length_cons, List.length_append] at hbound
    obtain ⟨bound, rfl⟩ : ∃ b, bound = b + 1 := ⟨bound - 1, by omega⟩
    have hmembers := readMembers_indented k' (readsBack w (depth + 1)) members
      (show _ ≤ bound by omega) rest
    simp only [List.cons_append, List.append_assoc]
    exact readMembers_cons hv (by omega) hmembers

end

/-- **Every value is read back from its indented layout.** -/
theorem read?_indented (v : Json) : read? v.indented = some v := by
  have hread := readsBack v 0 ((v.indentedChars 0).length + 1) [] (by omega) Text.stops_nil
  rw [List.append_nil] at hread
  rw [read?, indented, String.toList_ofList]
  simp only [hread]
  rfl

end Json

end ChangeContext
