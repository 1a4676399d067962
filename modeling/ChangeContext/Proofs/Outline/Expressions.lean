import ChangeContext.Proofs.Outline.Walk
import ChangeContext.Proofs.Outline.Writing
import ChangeContext.Proofs.Script.Name

/-!
# Expressions in common statements

The values in common statements are sums of identifiers and numbers, arrow functions with such a sum
behind the arrow, and calls of `require`.  Here it is proved that the grammar reads them, and what
their trees have to say: a sum says nothing, an arrow function has its parameters, and a call of
`require` has its module.  An identifier is read as such wherever it stands, also where it is a word
that has a meaning elsewhere.
-/

set_option autoImplicit false

namespace ChangeContext

namespace Outline

open Script

/-! ## Identifiers -/

theorem scriptNameRest_of_isIdentifierChar (c : Char) (h : isIdentifierChar c = true) :
    Script.isNameRest c = true :=
  forall_isIdentifierChar (P := fun c ↦ Script.isNameRest c = true) (by decide +kernel) h

theorem scriptNameStart_of_isNameStart {c : Char} (h : Rules.isNameStart c = true) :
    Script.isNameStart c = true := by
  have hchar : isIdentifierChar c = true := by simp [isIdentifierChar, h]
  exact forall_isIdentifierChar
    (P := fun c ↦ Rules.isNameStart c = true → Script.isNameStart c = true) (by decide +kernel)
    hchar h

/-- A mark or a blank ends a name. -/
theorem nameEnds_of_mark {c : Char} {rest : List Char} (h : c ∈ "()\x7b\x7d=,;' *".toList) :
    NameEnds (c :: rest) :=
  Text.stops_cons ((by decide +kernel : ∀ c ∈ "()\x7b\x7d=,;' *".toList,
    (Script.isNameRest c || c == '\\') = false) c h)

section Words

variable {c : Cursor} {cs rest : List Char} {n : Nat}

/-- What begins with a word begins with a character that no mark begins with. -/
theorem IsWord.exists_append_eq (h : IsWord cs) (rest : List Char) :
    ∃ d ds, cs ++ rest = d :: ds ∧ isIdentifierChar d = true := by
  obtain ⟨d, ds, rfl, hd⟩ := h.exists_eq_cons
  exact ⟨d, ds ++ rest, rfl, by simp [isIdentifierChar, hd]⟩

theorem IsWord.isName (h : IsWord cs) : Script.IsName cs := by
  obtain ⟨d, ds, rfl, hd⟩ := h.exists_eq_cons
  exact ⟨scriptNameStart_of_isNameStart hd,
    fun c hc ↦ scriptNameRest_of_isIdentifierChar c (List.all_eq_true.1 h.all c hc)⟩

theorem IsWord.solid (h : IsWord cs) (rest : List Char) : Solid (cs ++ rest) :=
  h.isName.solid rest

theorem IsWord.name? (h : IsWord cs) (hc : c.Faces (cs ++ rest) n) (hrest : NameEnds rest) :
    c.name? = some (String.ofList cs, ⟨rest, n + cs.length⟩) :=
  h.isName.name? hc.trimmed_eq hrest

/-- No mark stands where a word does. -/
theorem IsWord.mark?_eq_none (h : IsWord cs) (hc : c.Faces (cs ++ rest) n) {s : String}
    (hs : (s.toList.head?.any fun d ↦ !Script.isNameStart d) = true) : c.mark? s = none :=
  h.isName.mark?_eq_none hc.trimmed_eq hs

theorem IsWord.string?_eq_none (h : IsWord cs) (hc : c.Faces (cs ++ rest) n) : c.string? = none :=
  h.isName.string?_eq_none hc

end Words

section Unreserved

variable {c : Cursor} {cs rest : List Char} {n : Nat} {w : String}

theorem contains_of_unreserved (hw : w ∉ reservedWords) {ws : List String}
    (hws : ws ⊆ reservedWords) : ws.contains w = false := by
  by_contra hmem
  exact hw (hws (List.contains_iff_mem.1 (Bool.not_eq_false _ ▸ hmem)))

/-- No arrow stands where another mark does. -/
theorem atArrow_eq_false {y : Char} (hc : c.Faces (y :: cs) n) (hy : y ≠ '=') :
    c.atArrow = false := by
  rw [Cursor.atArrow, hc.trimmed_eq]
  exact sees_cons_of_ne (by simpa using hy.symm) n

theorem atArrow_of_faces (hc : c.Faces ('=' :: '>' :: cs) n) : c.atArrow = true := by
  rw [Cursor.atArrow, hc.trimmed_eq]
  rfl

/-- An operand does not begin with a sign or a word before it where it begins with an identifier. -/
theorem begins_operand_name (h : Script.IsName cs) (hw : String.ofList cs ∉ reservedWords)
    (hrest : NameEnds rest) (n : Nat) :
    signLength ⟨cs ++ rest, n⟩ = 0 ∧ prefixWord? ⟨cs ++ rest, n⟩ = none ∧
      (Cursor.mk (cs ++ rest) n).keyword? "yield" = none := by
  have hname := h.name? (trimmed_of_solid (h.solid rest) n) hrest
  refine ⟨h.signLength_eq rest n, ?_, Cursor.keyword?_eq_none hname ?_⟩
  · rw [prefixWord?, hname]
    simp only [contains_of_unreserved hw
      (by decide : ["typeof", "void", "delete", "await"] ⊆ reservedWords)]
    rfl
  · exact fun heq ↦ hw (heq ▸ (by decide : "yield" ∈ reservedWords))

/-- Where neither a name nor a parenthesis stands there is nothing that a word before it asks for. -/
theorem asyncOperand_eq (inner : Reader) (hname : c.name? = none) (hparen : c.mark? "(" = none) :
    asyncOperand inner c =
      if c.atArrow then arrow inner ((Tree.leaf .identifier "async").as .parameter) c
      else some ([Tree.leaf .identifier "async"], c) := by
  unfold asyncOperand
  rw [Cursor.keyword?_of_name?_eq_none hname, hparen, hname]
  simp

/-- Where neither a name nor a parenthesis stands, an identifier is the parameter of an arrow function
or it stands for itself. -/
theorem namedPrimary_of_unreserved (inner : Reader) (hw : w ∉ reservedWords) (hname : c.name? = none)
    (hparen : c.mark? "(" = none) :
    namedPrimary inner w c =
      if c.atArrow then arrow inner ((Tree.leaf .identifier w).as .parameter) c
      else some ([Tree.leaf .identifier w], c) := by
  unfold namedPrimary
  split
  next => exact absurd (by decide : "function" ∈ reservedWords) hw
  next => exact absurd (by decide : "class" ∈ reservedWords) hw
  next => exact absurd (by decide : "new" ∈ reservedWords) hw
  next => exact asyncOperand_eq inner hname hparen
  next =>
    rw [contains_of_unreserved hw (by decide : valueWords ⊆ reservedWords),
      if_neg Bool.false_ne_true]

theorem namedPrimary_eq (inner : Reader) (hw : w ∉ reservedWords) (h : c.Ends) :
    namedPrimary inner w c = some ([Tree.leaf .identifier w], c) := by
  rw [namedPrimary_of_unreserved inner hw h.name?_eq_none (h.mark?_eq_none (by decide)),
    h.atArrow_eq_false, if_neg Bool.false_ne_true]

/-- Before an arrow an identifier is a parameter. -/
theorem namedPrimary_arrow (inner : Reader) (hw : w ∉ reservedWords)
    (hc : c.Faces ('=' :: '>' :: cs) n) :
    namedPrimary inner w c = arrow inner ((Tree.leaf .identifier w).as .parameter) c := by
  rw [namedPrimary_of_unreserved inner hw (hc.name?_eq_none (by decide)) (hc.mark?_eq_none (by decide)),
    if_pos (atArrow_of_faces hc)]

/-- An identifier is an operand. -/
theorem reads_operand_name (h : Script.IsName cs) (hw : String.ofList cs ∉ reservedWords)
    (hc : c.trimmed = ⟨cs ++ rest, n⟩) (hrest : NameEnds rest)
    (hends : (Cursor.mk rest (n + cs.length)).Ends) :
    Reads 2 .operand c ([Tree.leaf .identifier (String.ofList cs)], ⟨rest, n + cs.length⟩) := by
  obtain ⟨hsign, hprefix, hyield⟩ := begins_operand_name h hw hrest n
  have hprimary : Reads (0 + 1) .primary ⟨cs ++ rest, n⟩
      ([Tree.leaf .identifier (String.ofList cs)], ⟨rest, n + cs.length⟩) :=
    reads_succ fun m _ ↦ (h.primary_eq _ hrest n).trans (namedPrimary_eq _ hw hends)
  obtain ⟨d, ds, heq, -⟩ := h.exists_append_eq rest
  rw [heq] at hc hsign hprefix hyield hprimary
  exact Script.reads_operand hc hsign hprefix hyield hprimary (hends.reads_attached _ _) hends

end Unreserved

section Identifier

variable {c : Cursor} {rest : List Char} {n : Nat} (x : Identifier)

theorem Identifier.name? (hc : c.Faces (x.chars ++ rest) n) (hrest : NameEnds rest) :
    c.name? = some (x.text, ⟨rest, n + x.chars.length⟩) :=
  x.isWord.name? hc hrest

theorem Identifier.text_ne {w : String} (hw : w ∈ reservedWords) : x.text ≠ w := by
  rintro rfl
  exact x.unreserved hw

/-- What stands behind an identifier in a sum or a list. -/
def Behind (cs : List Char) : Prop :=
  (∃ y tail, cs = y :: tail ∧ y ∈ "),;".toList) ∨ ∃ tail, cs = ' ' :: '+' :: ' ' :: tail

theorem Behind.nameEnds (h : Behind rest) : NameEnds rest := by
  rcases h with ⟨y, tail, rfl, hy⟩ | ⟨tail, rfl⟩
  · exact nameEnds_of_mark ((by decide : ∀ y ∈ "),;".toList, y ∈ "()\x7b\x7d=,;' *".toList) y hy)
  · exact nameEnds_of_mark (by decide)

theorem Behind.ends (h : Behind rest) (n : Nat) : (Cursor.mk rest n).Ends := by
  rcases h with ⟨y, tail, rfl, hy⟩ | ⟨tail, rfl⟩
  · exact (closes_of_mark hy tail n).ends
  · exact ends_of_plus (faces_blank (Text.stops_cons (by decide)) n).trimmed_eq

theorem Identifier.reads_operand (hc : c.Faces (x.chars ++ rest) n) (h : Behind rest) :
    Reads 2 .operand c ([Tree.leaf .identifier x.text], ⟨rest, n + x.chars.length⟩) :=
  reads_operand_name x.isWord.isName x.unreserved hc.trimmed_eq h.nameEnds (h.ends _)

end Identifier

/-! ## Sums -/

section Sum

variable {c : Cursor} {rest : List Char} {n : Nat}

theorem Numeral.exists_chars_append_eq (k : Numeral) (rest : List Char) :
    ∃ d cs, k.chars ++ rest = d :: cs ∧ d.isDigit = true := by
  obtain ⟨d, whole, hwhole⟩ := List.exists_cons_of_ne_nil k.ne_nil
  have hall := k.all
  rw [Numeral.chars, hwhole]
  rw [hwhole] at hall
  exact ⟨d, _, rfl, List.all_eq_true.1 hall d (by simp)⟩

theorem solid_of_isDigit {d : Char} (h : d.isDigit = true) (cs : List Char) : Solid (d :: cs) :=
  Text.stops_cons (forall_isIdentifierChar
    (P := fun c ↦ (Script.isBlank c || c == '/') = false) (by decide +kernel)
    (isIdentifierChar_of_isDigit h))

theorem Numeral.skipNumber_eq (k : Numeral) (h : Behind rest) (n : Nat) :
    ∃ n', (Cursor.mk (k.chars ++ rest) n).skipNumber = ⟨rest, n'⟩ := by
  obtain ⟨y, tail, rfl, hy⟩ : ∃ y tail, rest = y :: tail ∧ y ∈ " ;,)".toList := by
    rcases h with ⟨y, tail, rfl, hy⟩ | ⟨tail, rfl⟩
    · exact ⟨y, tail, rfl, (by decide : ∀ y ∈ "),;".toList, y ∈ " ;,)".toList) y hy⟩
    · exact ⟨' ', _, rfl, by decide⟩
  have hall : ∀ c ∈ k.whole ++ k.fraction, c.isDigit = true := List.all_eq_true.1 k.all
  obtain ⟨hwhole, hfraction⟩ := List.forall_mem_append.1 hall
  by_cases hempty : k.fraction = []
  · rw [Numeral.chars, if_pos hempty, List.append_nil]
    exact ⟨_, skipNumber_whole k.ne_nil hwhole hy⟩
  · rw [Numeral.chars, if_neg hempty, List.append_assoc, List.cons_append]
    exact ⟨_, skipNumber_fraction k.ne_nil hwhole hfraction hy⟩

/-- A number is an operand. -/
theorem Numeral.reads_operand (k : Numeral) (hc : c.Faces (k.chars ++ rest) n) (h : Behind rest) :
    ∃ n', Reads 2 .operand c ([Tree.leaf .other ""], ⟨rest, n'⟩) := by
  obtain ⟨n', hskip⟩ := k.skipNumber_eq h n
  obtain ⟨d, cs, heq, hd⟩ := k.exists_chars_append_eq rest
  rw [heq] at hc hskip
  have hself : (Cursor.mk (d :: cs) n).Faces (d :: cs) n := faces_of_solid (solid_of_isDigit hd cs) n
  have hname := hself.name?_of_isDigit hd
  have hne (mark : Char) (hmark : mark.isDigit = false) : d ≠ mark := Text.ne_of_isDigit hd hmark
  have hsign : signLength ⟨d :: cs, n⟩ = 0 := by
    have hplus : d ≠ '+' := hne _ (by decide)
    have hminus : d ≠ '-' := hne _ (by decide)
    have hnot : d ≠ '!' := hne _ (by decide)
    have htilde : d ≠ '~' := hne _ (by decide)
    rw [signLength, sees_cons_of_ne (by simpa using hplus.symm),
      sees_cons_of_ne (by simpa using hminus.symm)]
    simp [Cursor.seesChar, hplus, hminus, hnot, htilde]
  have hprefix : prefixWord? ⟨d :: cs, n⟩ = none := by rw [prefixWord?, hname]
  have hprimary : Reads (0 + 1) .primary ⟨d :: cs, n⟩ ([Tree.leaf .other ""], ⟨rest, n'⟩) := by
    refine reads_succ fun m _ ↦ ?_
    change primary (read m) _ = _
    have hmarks : ("([\x7b\x60/<@#".toList.contains d) = false := by
      by_contra hmem
      have hmem := List.contains_iff_mem.1 (Bool.not_eq_false _ ▸ hmem)
      exact hne d ((by decide : ∀ c ∈ "([\x7b\x60/<@#".toList, c.isDigit = false) d hmem) rfl
    unfold primary
    simp only [hself.trimmed_eq]
    split <;> simp_all
  exact ⟨n', Script.reads_operand hc.trimmed_eq hsign hprefix
    (Cursor.keyword?_of_name?_eq_none hname _) hprimary ((h.ends n').reads_attached _ _) (h.ends n')⟩

/-- The tree contributes nothing, and it has no role. -/
def Quiet (t : Tree) : Prop :=
  t.role = none ∧ Silent [t]

theorem Summand.reads_operand (s : Summand) (hc : c.Faces (s.chars ++ rest) n) (h : Behind rest) :
    ∃ t n', Reads 2 .operand c ([t], ⟨rest, n'⟩) ∧ Quiet t := by
  cases s with
  | name x => exact ⟨_, _, x.reads_operand hc h, rfl, silent_leaf rfl _⟩
  | numeral k =>
    obtain ⟨n', hreads⟩ := k.reads_operand hc h
    exact ⟨_, n', hreads, rfl, silent_leaf rfl _⟩

theorem Summand.solid (s : Summand) (rest : List Char) : Solid (s.chars ++ rest) := by
  cases s with
  | name x => exact x.isWord.solid rest
  | numeral k =>
    obtain ⟨d, cs, heq, hd⟩ := k.exists_chars_append_eq rest
    rw [Summand.chars, heq]
    exact solid_of_isDigit hd cs

/-- What stands behind the first summand of a sum. -/
theorem behind_more (more : List Summand) (rest : List Char) :
    Behind ((more.flatMap fun s ↦ " + ".toList ++ s.chars) ++ ';' :: rest) := by
  cases more with
  | nil => exact .inl ⟨';', rest, rfl, by decide⟩
  | cons s more =>
    rw [List.flatMap_cons]
    exact .inr ⟨_, rfl⟩

/-- The rest of a sum, with any operands before it. -/
theorem reads_operands (more : List Summand) (latest : List Tree) (hne : latest ≠ [])
    (hlatest : ∀ t ∈ latest, Quiet t) (n : Nat) :
    ∃ t n', Reads (more.length + 3) (.operands latest)
      ⟨(more.flatMap fun s ↦ " + ".toList ++ s.chars) ++ ';' :: rest, n⟩ ([t], ⟨';' :: rest, n'⟩) ∧
        Quiet t := by
  induction more generalizing latest n with
  | nil =>
    have hc : (Cursor.mk (';' :: rest) n).Closes :=
      closes_of_trimmed_cons (trimmed_of_solid (Text.stops_cons (by decide)) n) (by decide)
    cases latest with
    | nil => exact absurd rfl hne
    | cons t latest =>
      cases latest with
      | nil => exact ⟨t, n, (reads_operands_single hc t).mono (by simp),
          hlatest t List.mem_cons_self⟩
      | cons t' latest =>
        exact ⟨_, n, (reads_operands_group hc t t' latest).mono (by simp),
          rfl, silent_group (silent_reverse fun t ht ↦ (hlatest t ht).2)⟩
  | cons s more ih =>
    have htext : ((s :: more).flatMap fun s ↦ " + ".toList ++ s.chars) ++ ';' :: rest =
        ' ' :: '+' :: ' ' :: (s.chars ++ ((more.flatMap fun s ↦ " + ".toList ++ s.chars) ++
          ';' :: rest)) := by
      simp
    obtain ⟨t, n', hoperand, ht⟩ := s.reads_operand
      (faces_blank (s.solid ((more.flatMap fun s ↦ " + ".toList ++ s.chars) ++ ';' :: rest)) (n + 2))
      (behind_more more rest)
    obtain ⟨t', n'', hmore, ht'⟩ := ih (t :: latest) (List.cons_ne_nil _ _)
      (List.forall_mem_cons.2 ⟨ht, hlatest⟩) n'
    refine ⟨t', n'', ?_, ht'⟩
    rw [htext]
    exact reads_operands_plus (faces_blank (Text.stops_cons (by decide)) n)
      (hoperand.mono (by simp)) hmore

/-- **A sum is read up to the semicolon behind it**, and it contributes nothing. -/
theorem Sum.reads_assignment (e : Sum) (hc : c.Faces (e.chars ++ ';' :: rest) n) :
    ∃ t n', Reads (e.more.length + 4) .assignment c ([t], ⟨';' :: rest, n'⟩) ∧ Quiet t := by
  rw [Sum.chars, List.append_assoc] at hc
  obtain ⟨t, n', hoperand, ht⟩ := e.first.reads_operand hc (behind_more e.more rest)
  obtain ⟨t', n'', hmore, ht'⟩ := reads_operands e.more [t] (List.cons_ne_nil _ _)
    (List.forall_mem_singleton.2 ht) n'
  exact ⟨t', n'', Script.reads_assignment (hoperand.mono (by simp)) hmore, ht'⟩

theorem Sum.exists_chars_append_eq (e : Sum) (rest : List Char) :
    ∃ d cs, e.chars ++ rest = d :: cs ∧ isIdentifierChar d = true := by
  rw [Sum.chars, List.append_assoc]
  cases hfirst : e.first with
  | name x => exact x.isWord.exists_append_eq _
  | numeral k =>
    obtain ⟨d, cs, heq, hd⟩ := k.exists_chars_append_eq _
    exact ⟨d, cs, heq, isIdentifierChar_of_isDigit hd⟩

theorem Sum.solid (e : Sum) (rest : List Char) : Solid (e.chars ++ rest) := by
  rw [Sum.chars, List.append_assoc]
  exact e.first.solid _

end Sum

end Outline

end ChangeContext
