import ChangeContext.Proofs.Text.Digits
import ChangeContext.Script.Grammar

/-!
# What lexemes are read

The grammar never looks at a text but behind the gap that a cursor stands before.  `Cursor.Faces` says
what that is, where there is neither a comment nor a line break in the gap, and for each kind of
lexeme there is a lemma that says when it is read, and one that says when it is not.  Most of the
grammar's questions are answered by the first character behind the gap alone.
-/

set_option autoImplicit false

namespace ChangeContext

namespace Script

/-! ## Gaps -/

/-- The text does not begin with anything that could be part of a gap. -/
def Solid (cs : List Char) : Prop :=
  Text.Stops (fun c ↦ isBlank c || c == '/') cs

theorem from_of_solid {cs : List Char} (h : Solid cs) (lineBreak : Bool) (comments : List Tree)
    (n : Nat) : Gap.from .blanks lineBreak comments n cs = ⟨⟨cs, n⟩, lineBreak, comments⟩ := by
  cases cs with
  | nil => rfl
  | cons c cs =>
    obtain ⟨hblank, hslash⟩ := Bool.or_eq_false_iff.1 (h c rfl)
    simp [Gap.from, opens, hblank, hslash]

/-- Blanks are passed, and a line break among them is seen. -/
theorem from_blanks {bs : List Char} (hbs : ∀ c ∈ bs, isBlank c = true) (lineBreak : Bool)
    (comments : List Tree) (n : Nat) (cs : List Char) :
    Gap.from .blanks lineBreak comments n (bs ++ cs) =
      Gap.from .blanks (lineBreak || bs.any isLineBreak) comments (n + bs.length) cs := by
  induction bs generalizing lineBreak n with
  | nil => simp
  | cons b bs ih =>
    obtain ⟨hb, hbs⟩ := List.forall_mem_cons.1 hbs
    rw [List.cons_append, Gap.from]
    simp only [hb, if_true]
    rw [ih hbs, List.any_cons, Bool.or_assoc, List.length_cons, Nat.add_assoc, Nat.add_comm 1]

theorem gap_blanks {bs cs : List Char} (hbs : ∀ c ∈ bs, isBlank c = true) (hcs : Solid cs) (n : Nat) :
    (Cursor.mk (bs ++ cs) n).gap = ⟨⟨cs, n + bs.length⟩, bs.any isLineBreak, []⟩ := by
  rw [Cursor.gap, from_blanks hbs, from_of_solid hcs, Bool.false_or]

/-- Behind the gap before the cursor this text stands, at this distance from the start. -/
def Cursor.Faces (c : Cursor) (cs : List Char) (n : Nat) : Prop :=
  c.gap = ⟨⟨cs, n⟩, false, []⟩

section Faces

variable {c : Cursor} {cs rest : List Char} {n : Nat} {x : Char}

theorem faces_of_solid (h : Solid cs) (n : Nat) : (Cursor.mk cs n).Faces cs n :=
  from_of_solid h false [] n

theorem faces_blank (h : Solid cs) (n : Nat) : (Cursor.mk (' ' :: cs) n).Faces cs (n + 1) :=
  from_of_solid h false [] (n + 1)

theorem trimmed_feed (h : Solid cs) (n : Nat) : (Cursor.mk ('\n' :: cs) n).trimmed = ⟨cs, n + 1⟩ :=
  congrArg Gap.next (from_of_solid h true [] (n + 1))

theorem trimmed_of_solid (h : Solid cs) (n : Nat) : (Cursor.mk cs n).trimmed = ⟨cs, n⟩ :=
  congrArg Gap.next (faces_of_solid h n)

theorem Cursor.Faces.trimmed_eq (h : c.Faces cs n) : c.trimmed = ⟨cs, n⟩ :=
  congrArg Gap.next h

theorem skip_append (cs rest : List Char) (n : Nat) :
    (Cursor.mk (cs ++ rest) n).skip cs.length = ⟨rest, n + cs.length⟩ := by
  simp [Cursor.skip]

theorem upTo_append (cs rest rest' : List Char) (n : Nat) :
    (Cursor.mk (cs ++ rest) n).upTo ⟨rest', n + cs.length⟩ = String.ofList cs := by
  simp [Cursor.upTo]

/-! ## Marks -/

theorem Cursor.mark?_eq_some {s : String} (h : c.trimmed = ⟨s.toList ++ rest, n⟩) :
    c.mark? s = some ⟨rest, n + s.length⟩ := by
  have hsees : (Cursor.mk (s.toList ++ rest) n).sees s = true :=
    List.isPrefixOf_iff_prefix.2 (List.prefix_append _ _)
  rw [Cursor.mark?, h, if_pos hsees, ← String.length_toList, skip_append]

theorem Cursor.Faces.mark? {s : String} (h : c.Faces (s.toList ++ rest) n) :
    c.mark? s = some ⟨rest, n + s.length⟩ :=
  Cursor.mark?_eq_some h.trimmed_eq

/-- A text that begins otherwise is not seen. -/
theorem sees_cons_of_ne {s : String} (hs : s.toList.head?.any (· != x) = true) (n : Nat) :
    (Cursor.mk (x :: cs) n).sees s = false := by
  rw [Cursor.sees]
  cases hlist : s.toList with
  | nil => simp [hlist] at hs
  | cons y ys =>
    have hne : (y == x) = false := by simpa [hlist] using hs
    simp [List.isPrefixOf, hne]

/-- Nor is one that begins with none of the characters that may be next. -/
theorem sees_eq_false {s : String} {marks : List Char}
    (hc : ∀ x, c.ahead.head? = some x → x ∈ marks)
    (hs : (s.toList.head?.any fun y ↦ marks.all (y != ·)) = true) : c.sees s = false := by
  obtain ⟨ahead, n⟩ := c
  cases ahead with
  | nil =>
    cases hlist : s.toList with
    | nil => simp [hlist] at hs
    | cons y ys => simp [Cursor.sees, hlist]
  | cons x cs =>
    obtain ⟨y, hy, hall⟩ := (Option.any_eq_true _ _).1 hs
    have hne := List.all_eq_true.1 hall x (hc x rfl)
    exact sees_cons_of_ne (by rw [hy]; exact hne) n

theorem Cursor.mark?_eq_none {s : String} (h : c.trimmed = ⟨x :: cs, n⟩)
    (hs : s.toList.head?.any (· != x) = true) : c.mark? s = none := by
  rw [Cursor.mark?, h, sees_cons_of_ne hs, if_neg Bool.false_ne_true]

theorem Cursor.Faces.mark?_eq_none {s : String} (h : c.Faces (x :: cs) n)
    (hs : s.toList.head?.any (· != x) = true) : c.mark? s = none :=
  Cursor.mark?_eq_none h.trimmed_eq hs

/-! ## Names -/

/-- The text does not go on with a name. -/
def NameEnds (cs : List Char) : Prop :=
  Text.Stops (fun c ↦ isNameRest c || c == '\\') cs

theorem nameLength_append {bound : Nat} (hcs : ∀ c ∈ cs, isNameRest c = true) (hrest : NameEnds rest)
    (hbound : cs.length < bound ∨ rest = [] ∧ cs.length ≤ bound) :
    nameLength bound (cs ++ rest) = cs.length := by
  induction cs generalizing bound with
  | nil =>
    cases bound with
    | zero => rfl
    | succ bound =>
      cases rest with
      | nil => rfl
      | cons c rest =>
        obtain ⟨hname, hslash⟩ := Bool.or_eq_false_iff.1 (hrest c rfl)
        have hescape : escapeLength (c :: rest) = 0 := by
          unfold escapeLength
          split <;> simp_all
        simp [nameLength, hname, hescape]
  | cons c cs ih =>
    obtain ⟨hc, hcs⟩ := List.forall_mem_cons.1 hcs
    obtain ⟨bound, rfl⟩ : ∃ k, bound = k + 1 := Nat.exists_eq_add_of_le' (by grind)
    rw [List.cons_append, nameLength, if_pos hc, ih hcs (by grind), List.length_cons, Nat.add_comm]

theorem Cursor.name?_eq_some (h : c.trimmed = ⟨x :: cs ++ rest, n⟩) (hx : isNameStart x = true)
    (hcs : ∀ c ∈ cs, isNameRest c = true) (hrest : NameEnds rest) :
    c.name? = some (String.ofList (x :: cs), ⟨rest, n + (x :: cs).length⟩) := by
  have hdigit : x.isDigit = false := by
    simp only [isNameStart, Bool.and_eq_true, Bool.not_eq_true'] at hx
    exact hx.1.1.1.2
  have hall : ∀ c ∈ x :: cs, isNameRest c = true :=
    List.forall_mem_cons.2 ⟨by simp [isNameRest, hx], hcs⟩
  have hlength : nameLength (x :: cs ++ rest).length (x :: cs ++ rest) = (x :: cs).length := by
    refine nameLength_append hall hrest ?_
    cases rest with
    | nil => exact .inr ⟨rfl, by simp⟩
    | cons d rest => exact .inl (by simp)
  have hsees : (Cursor.mk (x :: cs ++ rest) n).seesChar Char.isDigit = false := hdigit
  have hne : (x :: cs).length ≠ 0 := Nat.succ_ne_zero _
  rw [Cursor.name?, h, hsees, if_neg Bool.false_ne_true, hlength, if_neg hne, skip_append,
    upTo_append]

/-- A character that no name begins with. -/
theorem Cursor.name?_eq_none (h : c.trimmed = ⟨x :: cs, n⟩)
    (hx : (isNameRest x || x == '\\') = false) : c.name? = none := by
  have hlength : nameLength (x :: cs).length ([] ++ x :: cs) = 0 :=
    nameLength_append (List.forall_mem_nil _) (Text.stops_cons hx) (.inl (by simp))
  rw [List.nil_append] at hlength
  rw [Cursor.name?, h, hlength, if_pos rfl, ite_self]

theorem Cursor.Faces.name?_eq_none (h : c.Faces (x :: cs) n)
    (hx : (isNameRest x || x == '\\') = false) : c.name? = none :=
  Cursor.name?_eq_none h.trimmed_eq hx

/-- No name begins with a digit. -/
theorem Cursor.Faces.name?_of_isDigit (h : c.Faces (x :: cs) n) (hx : x.isDigit = true) :
    c.name? = none := by
  have hsees : (Cursor.mk (x :: cs) n).seesChar Char.isDigit = true := hx
  rw [Cursor.name?, h.trimmed_eq, if_pos hsees]

theorem Cursor.keyword?_eq_some {word : String} {rest : Cursor} (h : c.name? = some (word, rest)) :
    c.keyword? word = some rest := by
  rw [Cursor.keyword?, h]
  simp

theorem Cursor.keyword?_eq_none {word name : String} {rest : Cursor} (h : c.name? = some (name, rest))
    (hne : name ≠ word) : c.keyword? word = none := by
  rw [Cursor.keyword?, h]
  simp [hne]

theorem Cursor.keyword?_of_name?_eq_none (h : c.name? = none) (word : String) :
    c.keyword? word = none := by
  rw [Cursor.keyword?, h]

/-! ## Literals -/

theorem quotedLength_cons {quote x : Char} (hx : x ≠ '\\') (cs : List Char) :
    quotedLength quote (x :: cs) =
      if x = quote then some 1 else (quotedLength quote cs).map (· + 1) := by
  rw [quotedLength]
  rintro - rest heq -
  exact hx heq

theorem quotedLength_append {quote : Char} (hquote : quote ≠ '\\')
    (hcs : ∀ c ∈ cs, c ≠ quote ∧ c ≠ '\\') :
    quotedLength quote (cs ++ quote :: rest) = some (cs.length + 1) := by
  induction cs with
  | nil => rw [List.nil_append, quotedLength_cons hquote, if_pos rfl]; rfl
  | cons c cs ih =>
    obtain ⟨⟨hc, hslash⟩, hcs⟩ := List.forall_mem_cons.1 hcs
    rw [List.cons_append, quotedLength_cons hslash, if_neg hc, ih hcs]
    rfl

theorem Cursor.Faces.string? {quote : Char} (hquote : quote = '"' ∨ quote = '\'')
    (h : c.Faces (quote :: (cs ++ quote :: rest)) n) (hcs : ∀ c ∈ cs, c ≠ quote ∧ c ≠ '\\') :
    c.string? = some (Tree.leaf .string (String.ofList (quote :: (cs ++ [quote]))),
      ⟨rest, n + (quote :: (cs ++ [quote])).length⟩) := by
  have hslash : quote ≠ '\\' := by
    rintro rfl
    simp at hquote
  have htext : quote :: (cs ++ quote :: rest) = (quote :: (cs ++ [quote])) ++ rest := by simp
  have hlength : cs.length + 1 + 1 = (quote :: (cs ++ [quote])).length := by simp
  have hopens : (decide (quote = '"') || decide (quote = '\'')) = true := by simpa using hquote
  rw [Cursor.string?, h.trimmed_eq]
  simp only
  rw [if_pos hopens, quotedLength_append hslash hcs, Option.map_some, hlength, htext, skip_append,
    upTo_append]

theorem Cursor.Faces.string?_eq_none (h : c.Faces (x :: cs) n)
    (hx : (decide (x = '"') || decide (x = '\'')) = false) : c.string? = none := by
  rw [Cursor.string?, h.trimmed_eq]
  simp only
  rw [hx, if_neg Bool.false_ne_true]

theorem skipWhile_append {accepts : Char → Bool} (hcs : ∀ c ∈ cs, accepts c = true)
    (hrest : Text.Stops accepts rest) :
    (Cursor.mk (cs ++ rest) n).skipWhile accepts = ⟨rest, n + cs.length⟩ := by
  rw [Cursor.skipWhile, Text.takeWhile_append_of_stops hcs hrest, skip_append]

/-- A number whose second character is no letter of a base has none. -/
theorem hasBase_cons_cons {d y : Char} (hy : y ∉ "xXoObB".toList) (cs : List Char) (n : Nat) :
    hasBase ⟨d :: y :: cs, n⟩ = false := by
  have hbases : ∀ s ∈ ["0x", "0X", "0o", "0O", "0b", "0B"], ∃ z ∈ "xXoObB".toList,
      s.toList = ['0', z] := by decide
  refine List.any_eq_false.2 fun s hs ↦ ?_
  obtain ⟨z, hz, hlist⟩ := hbases s hs
  have hne : (z == y) = false := beq_eq_false_iff_ne.2 fun heq ↦ hy (heq ▸ hz)
  simp [Cursor.sees, hlist, List.isPrefixOf, hne]

/-- Behind its last digit a number has neither an exponent nor a suffix. -/
theorem not_exponent_and_not_suffix (hx : x ∈ " ;,)".toList) (cs : List Char) (n : Nat) :
    (Cursor.mk (x :: cs) n).seesChar (fun x ↦ x == 'e' || x == 'E') = false ∧
      (Cursor.mk (x :: cs) n).sees "n" = false := by
  have hall : ∀ x ∈ " ;,)".toList, (x == 'e' || x == 'E') = false ∧
      "n".toList.head?.any (· != x) = true := by decide
  exact ⟨(hall x hx).1, sees_cons_of_ne (hall x hx).2 n⟩

theorem isDigitOrGap_of_isDigit {x : Char} (h : x.isDigit = true) : isDigitOrGap x = true := by
  simp [isDigitOrGap, h]

theorem hasBase_of_isDigit {whole : List Char} {y : Char} (hne : whole ≠ [])
    (hwhole : ∀ c ∈ whole, c.isDigit = true) (hy : y ∉ "xXoObB".toList) :
    hasBase ⟨whole ++ y :: rest, n⟩ = false := by
  obtain ⟨d, whole, rfl⟩ := List.exists_cons_of_ne_nil hne
  cases whole with
  | nil => exact hasBase_cons_cons hy _ n
  | cons d' whole =>
    have hd' : d'.isDigit = true := hwhole d' (by simp)
    refine hasBase_cons_cons (fun hmem ↦ ?_) _ n
    rw [(by decide : ∀ z ∈ "xXoObB".toList, z.isDigit = false) d' hmem] at hd'
    exact absurd hd' Bool.false_ne_true

/-- A number without a fraction. -/
theorem skipNumber_whole {whole : List Char} (hne : whole ≠ [])
    (hwhole : ∀ c ∈ whole, c.isDigit = true) (hx : x ∈ " ;,)".toList) :
    (Cursor.mk (whole ++ x :: rest) n).skipNumber = ⟨x :: rest, n + whole.length⟩ := by
  have hends : ∀ x ∈ " ;,)".toList, x ∉ "xXoObB".toList ∧ isDigitOrGap x = false ∧
      ".".toList.head?.any (· != x) = true := by decide
  obtain ⟨hletter, hdigit, hdot⟩ := hends x hx
  obtain ⟨hexponent, hsuffix⟩ := not_exponent_and_not_suffix hx rest (n + whole.length)
  rw [Cursor.skipNumber, hasBase_of_isDigit hne hwhole hletter, if_neg Bool.false_ne_true,
    skipWhile_append (fun c hc ↦ isDigitOrGap_of_isDigit (hwhole c hc)) (Text.stops_cons hdigit),
    skipNumberTail, sees_cons_of_ne hdot, if_neg Bool.false_ne_true, hexponent,
    if_neg Bool.false_ne_true, hsuffix, if_neg Bool.false_ne_true]

/-- A number with a fraction. -/
theorem skipNumber_fraction {whole fraction : List Char} (hne : whole ≠ [])
    (hwhole : ∀ c ∈ whole, c.isDigit = true) (hfraction : ∀ c ∈ fraction, c.isDigit = true)
    (hx : x ∈ " ;,)".toList) :
    (Cursor.mk (whole ++ '.' :: (fraction ++ x :: rest)) n).skipNumber =
      ⟨x :: rest, n + whole.length + 1 + fraction.length⟩ := by
  have hends : ∀ x ∈ " ;,)".toList, isDigitOrGap x = false := by decide
  have hdot : (Cursor.mk ('.' :: (fraction ++ x :: rest)) (n + whole.length)).sees "." = true := rfl
  have hskip : ((Cursor.mk ('.' :: (fraction ++ x :: rest)) (n + whole.length)).skip 1).skipWhile
      isDigitOrGap = ⟨x :: rest, n + whole.length + 1 + fraction.length⟩ :=
    skipWhile_append (fun c hc ↦ isDigitOrGap_of_isDigit (hfraction c hc))
      (Text.stops_cons (hends x hx))
  obtain ⟨hexponent, hsuffix⟩ :=
    not_exponent_and_not_suffix hx rest (n + whole.length + 1 + fraction.length)
  rw [Cursor.skipNumber, hasBase_of_isDigit hne hwhole (by decide), if_neg Bool.false_ne_true,
    skipWhile_append (fun c hc ↦ isDigitOrGap_of_isDigit (hwhole c hc))
      (Text.stops_cons (by decide)), skipNumberTail, if_pos hdot, hskip, hexponent,
    if_neg Bool.false_ne_true, hsuffix, if_neg Bool.false_ne_true]

/-! ## Operators -/

theorem Cursor.Faces.joiner?_plus (h : c.Faces ('+' :: ' ' :: rest) n) :
    c.joiner? = some ⟨' ' :: rest, n + 1⟩ := by
  have hfind : joiners.find? (Cursor.mk ('+' :: ' ' :: rest) n).sees = some "+" := rfl
  rw [Cursor.joiner?, h.trimmed_eq, hfind]
  rfl

/-- Behind the gap the text ends, or a mark closes something or opens a body. -/
def Cursor.Closes (c : Cursor) : Prop :=
  ∀ x, c.trimmed.ahead.head? = some x → x ∈ "),;\x7b".toList

theorem closes_of_trimmed_nil (h : c.trimmed = ⟨[], n⟩) : c.Closes := by
  intro x hx
  simp [h] at hx

theorem closes_of_trimmed_cons (h : c.trimmed = ⟨x :: cs, n⟩) (hx : x ∈ "),;\x7b".toList) :
    c.Closes := by
  intro y hy
  rw [h] at hy
  exact Option.some_inj.1 hy ▸ hx

/-- Where something is closed, nothing is joined. -/
theorem Cursor.Closes.joiner?_eq_none (h : c.Closes) : c.joiner? = none := by
  have hmarks : ∀ s ∈ "=>" :: "++" :: "--" :: joiners,
      (s.toList.head?.any fun y ↦ "),;\x7b".toList.all (y != ·)) = true := by decide +kernel
  have hsees : ∀ s ∈ "=>" :: "++" :: "--" :: joiners, c.trimmed.sees s = false :=
    fun s hs ↦ sees_eq_false h (hmarks s hs)
  have hfind : joiners.find? c.trimmed.sees = none :=
    List.find?_eq_none.2 fun s hs ↦ by simp [hsees s (by simp [hs])]
  have hname : c.trimmed.name? = none := by
    rcases htrimmed : c.trimmed with ⟨_ | ⟨x, cs⟩, n⟩
    · rfl
    · have hall : ∀ x ∈ "),;\x7b".toList, (isBlank x || x == '/') = false ∧
          (isNameRest x || x == '\\') = false := by decide +kernel
      obtain ⟨hsolid, hx⟩ := hall x (h x (by rw [htrimmed]; rfl))
      exact Cursor.name?_eq_none (trimmed_of_solid (Text.stops_cons hsolid) n) hx
  have hkeyword := Cursor.keyword?_of_name?_eq_none hname
  rw [Cursor.joiner?, hfind, hkeyword, hkeyword, hsees _ (by simp), hsees _ (by simp),
    hsees _ (by simp)]
  rfl

end Faces

end Script

end ChangeContext
