import ChangeContext.Proofs.Outline.Expressions
import ChangeContext.Proofs.Outline.Parameters

/-!
# The values of variables in common statements

A variable holds an arrow function or what a call of `require` returns.  The parameters of an arrow
are read as the items of a list before the arrow behind them is seen, and it is their text that an
outline reports; the call reports its module.
-/

set_option autoImplicit false

namespace ChangeContext

namespace Outline

open Script

section

variable {c : Cursor} {rest : List Char} {n : Nat}

/-! ## Lists of identifiers -/

/-- An item of a list that begins with none of the marks of lists. -/
theorem reads_items_cons {bound : Nat} {d : Cursor} {t : Tree} {ts : List Tree} {r : Cursor}
    {cs : List Char} {lineBreak : Bool} (hc : c.gap = ⟨⟨cs, n⟩, lineBreak, []⟩)
    (hclose : (Cursor.mk cs n).mark? ")" = none) (hcomma : (Cursor.mk cs n).mark? "," = none)
    (hdots : (Cursor.mk cs n).mark? "..." = none) (hitem : Reads bound .assignment ⟨cs, n⟩ ([t], d))
    (hmore : Reads bound (.items ")") d (ts, r)) :
    Reads (bound + 1) (.items ")") c (t :: ts, r) :=
  reads_succ fun m hm ↦ by
    change items (read m) ")" c = _
    have hsome := hitem m hm
    have hrest := hmore m hm
    rw [items, hc]
    simp [hclose, hcomma, hdots, hsome, hrest]

/-- The end of a list. -/
theorem reads_items_nil {lineBreak : Bool} (hc : c.gap = ⟨⟨')' :: rest, n⟩, lineBreak, []⟩) :
    Reads 1 (.items ")") c ([], ⟨rest, n + 1⟩) :=
  reads_succ fun m _ ↦ by
    change items (read m) ")" c = _
    have hself : (Cursor.mk (')' :: rest) n).Faces (")".toList ++ rest) n :=
      faces_of_solid (Text.stops_cons (by decide)) n
    have hclose : (Cursor.mk (')' :: rest) n).mark? ")" = some ⟨rest, n + 1⟩ := hself.mark?
    rw [items, hc]
    simp [hclose]

/-- A comma between items. -/
theorem reads_items_comma {bound : Nat} {r : List Tree × Cursor} {lineBreak : Bool}
    (hc : c.gap = ⟨⟨',' :: rest, n⟩, lineBreak, []⟩)
    (hmore : Reads bound (.items ")") ⟨rest, n + 1⟩ r) : Reads (bound + 1) (.items ")") c r :=
  reads_succ fun m hm ↦ by
    change items (read m) ")" c = _
    have hself : (Cursor.mk (',' :: rest) n).Faces (',' :: rest) n :=
      faces_of_solid (Text.stops_cons (by decide)) n
    have hself' : (Cursor.mk (',' :: rest) n).Faces (",".toList ++ rest) n := hself
    have hclose : (Cursor.mk (',' :: rest) n).mark? ")" = none := hself.mark?_eq_none (by decide)
    have hcomma : (Cursor.mk (',' :: rest) n).mark? "," = some ⟨rest, n + 1⟩ := hself'.mark?
    have hrest := hmore m hm
    rw [items, hc]
    simp [hclose, hcomma, hrest]

/-- A name and the items behind it. -/
theorem reads_items_name {bound : Nat} {cs : List Char} {ts : List Tree} {r : Cursor}
    {lineBreak : Bool} (h : Script.IsName cs) (hw : String.ofList cs ∉ reservedWords)
    (hc : c.gap = ⟨⟨cs ++ rest, n⟩, lineBreak, []⟩) (hrest : NameEnds rest)
    (hcloses : (Cursor.mk rest (n + cs.length)).Closes) (hbound : 4 ≤ bound)
    (hmore : Reads bound (.items ")") ⟨rest, n + cs.length⟩ (ts, r)) :
    Reads (bound + 1) (.items ")") c (Tree.leaf .identifier (String.ofList cs) :: ts, r) := by
  have hself := trimmed_of_solid (h.solid rest) n
  have hitem := reads_assignment_single (reads_operand_name h hw hself hrest hcloses.ends) hcloses
  exact reads_items_cons hc (h.mark?_eq_none hself (by decide)) (h.mark?_eq_none hself (by decide))
    (h.mark?_eq_none hself (by decide)) (hitem.mono hbound) hmore

/-- An identifier and the items behind it. -/
theorem Identifier.reads_items (x : Identifier) {bound : Nat} {ts : List Tree} {r : Cursor}
    (hc : c.Faces (x.chars ++ rest) n) (hrest : ∃ y tail, rest = y :: tail ∧ y ∈ "),;".toList)
    (hbound : 4 ≤ bound) (hmore : Reads bound (.items ")") ⟨rest, n + x.chars.length⟩ (ts, r)) :
    Reads (bound + 1) (.items ")") c (Tree.leaf .identifier x.text :: ts, r) := by
  have hbehind : Behind rest := .inl hrest
  obtain ⟨y, tail, rfl, hy⟩ := hrest
  exact reads_items_name x.isWord.isName x.unreserved hc hbehind.nameEnds (closes_of_mark hy tail _)
    hbound hmore

/-- What stands behind the first item of a list. -/
theorem exists_more_eq (more : List Identifier) (rest : List Char) :
    ∃ y tail, (more.flatMap fun y ↦ ", ".toList ++ y.chars) ++ ')' :: rest = y :: tail ∧
      y ∈ "),;".toList := by
  cases more with
  | nil => exact ⟨')', rest, rfl, by decide⟩
  | cons y more =>
    rw [List.flatMap_cons]
    exact ⟨',', _, rfl, by decide⟩

theorem reads_items_more (more : List Identifier) (n : Nat) :
    ∃ ts, Silent ts ∧ Reads (2 * more.length + 4) (.items ")")
      ⟨(more.flatMap fun y ↦ ", ".toList ++ y.chars) ++ ')' :: rest, n⟩
      (ts, ⟨rest, n + (more.flatMap fun y ↦ ", ".toList ++ y.chars).length + 1⟩) := by
  induction more generalizing n with
  | nil =>
    exact ⟨[], silent_nil, (reads_items_nil (faces_of_solid (Text.stops_cons (by decide)) n)).mono
      (by decide)⟩
  | cons y more ih =>
    obtain ⟨ts, hts, hmore⟩ := ih (n + 2 + y.chars.length)
    have htext : ((y :: more).flatMap fun y ↦ ", ".toList ++ y.chars) ++ ')' :: rest =
        ',' :: ' ' :: (y.chars ++ ((more.flatMap fun y ↦ ", ".toList ++ y.chars) ++ ')' :: rest)) := by
      simp
    have hoffset : n + ((y :: more).flatMap fun y ↦ ", ".toList ++ y.chars).length + 1 =
        n + 2 + y.chars.length + (more.flatMap fun y ↦ ", ".toList ++ y.chars).length + 1 := by
      simp
      omega
    refine ⟨Tree.leaf .identifier y.text :: ts, (silent_leaf rfl _).cons hts, ?_⟩
    rw [htext, hoffset]
    refine Reads.mono (reads_items_comma (faces_of_solid (Text.stops_cons (by decide)) n)
      (y.reads_items (faces_blank (y.isWord.solid _) (n + 1)) (exists_more_eq more rest) (by simp) hmore))
      (by simp; omega)

/-- **A list of identifiers is read up to its parenthesis**, and it contributes nothing. -/
theorem reads_items_listChars (xs : List Identifier) (n : Nat) :
    ∃ ts, Silent ts ∧ Reads (2 * xs.length + 4) (.items ")") ⟨listChars xs ++ ')' :: rest, n⟩
      (ts, ⟨rest, n + (listChars xs).length + 1⟩) := by
  cases xs with
  | nil => exact reads_items_more [] n
  | cons x more =>
    obtain ⟨ts, hts, hmore⟩ := @reads_items_more rest more (n + x.chars.length)
    have hoffset : n + (listChars (x :: more)).length + 1 =
        n + x.chars.length + (more.flatMap fun y ↦ ", ".toList ++ y.chars).length + 1 := by
      rw [listChars, List.length_append]
      omega
    refine ⟨Tree.leaf .identifier x.text :: ts, (silent_leaf rfl _).cons hts, ?_⟩
    rw [listChars, List.append_assoc, ← listChars, hoffset]
    exact (x.reads_items (faces_of_solid (x.isWord.solid _) n) (exists_more_eq more rest) (by simp)
      hmore).mono (by rw [List.length_cons]; omega)

/-- The text of a list with its parentheses. -/
theorem upTo_parens (xs : List Identifier) (n : Nat) :
    (Cursor.mk ('(' :: (listChars xs ++ ')' :: rest)) n).upTo
      ⟨rest, n + 1 + (listChars xs).length + 1⟩ = String.ofList ('(' :: (listChars xs ++ [')'])) := by
  have hupTo := upTo_append ('(' :: (listChars xs ++ [')'])) rest rest n
  have hoffset : n + ('(' :: (listChars xs ++ [')'])).length = n + 1 + (listChars xs).length + 1 := by
    simp
    omega
  rw [hoffset] at hupTo
  simpa using hupTo

/-! ## Arrow functions -/

/-- The tree is an arrow function with these parameters that contributes nothing itself. -/
structure HoldsArrow (t : Tree) (params : List Char) : Prop where
  kind : t.kind = .arrowFunction
  silent : Silent t.children
  parameters : ∃ p, ((t.child? .parameters).orElse fun _ ↦ t.child? .parameter) = some p ∧
    stripParens p.text.toList = params

/-- The part of an arrow function from its arrow on. -/
theorem arrow_eq {bound m : Nat} (hm : bound ≤ m) {t : Tree} {d : Cursor} {cs : List Char}
    (params : Tree) (hc : c.Faces ('=' :: '>' :: cs) n)
    (hbrace : (Cursor.mk cs (n + 2)).mark? "\x7b" = none)
    (hvalue : Reads bound .assignment ⟨cs, n + 2⟩ ([t], d)) :
    arrow (read m) params c = some ([.node .arrowFunction none "" [params, t]], d) := by
  have hc' : c.Faces ("=>".toList ++ cs) n := hc
  have hsome := hvalue m hm
  have hmark : c.mark? "=>" = some ⟨cs, n + 2⟩ := hc'.mark?
  rw [arrow, hmark]
  simp [arrowBody, hbrace, hsome]

/-- How an arrow function is written behind its parameters. -/
def arrowTail (e : Sum) (rest : List Char) : List Char :=
  ' ' :: '=' :: '>' :: ' ' :: (e.chars ++ ';' :: rest)

theorem exists_arrow_eq (e : Sum) (n : Nat) :
    ∃ t n', Quiet t ∧ ∀ m params, e.more.length + 4 ≤ m →
      arrow (read m) params ⟨arrowTail e rest, n⟩ =
        some ([.node .arrowFunction none "" [params, t]], ⟨';' :: rest, n'⟩) := by
  have hfaces : (Cursor.mk (' ' :: (e.chars ++ ';' :: rest)) (n + 1 + 2)).Faces
      (e.chars ++ ';' :: rest) (n + 1 + 2 + 1) := faces_blank (e.solid _) (n + 1 + 2)
  obtain ⟨t, n', hreads, ht⟩ := e.reads_assignment hfaces
  have hbrace : (Cursor.mk (' ' :: (e.chars ++ ';' :: rest)) (n + 1 + 2)).mark? "\x7b" = none := by
    obtain ⟨d, cs, heq, hd⟩ := e.exists_chars_append_eq (';' :: rest)
    rw [heq] at hfaces ⊢
    have hne : d ≠ '\x7b' := ne_of_isIdentifierChar (by decide) d hd
    exact hfaces.mark?_eq_none (by simpa using hne.symm)
  exact ⟨t, n', ht, fun m params hm ↦ arrow_eq hm params
    (faces_blank (Text.stops_cons (by decide)) n) hbrace hreads⟩

/-- An arrow function stands where an operand is asked for. -/
theorem ArrowParameters.begins_operand (xs : ArrowParameters) (e : Sum) (rest : List Char) (n : Nat) :
    ∃ x cs, xs.chars ++ arrowTail e rest = x :: cs ∧ Solid (x :: cs) ∧
      signLength ⟨x :: cs, n⟩ = 0 ∧ prefixWord? ⟨x :: cs, n⟩ = none ∧
        (Cursor.mk (x :: cs) n).keyword? "yield" = none := by
  cases xs with
  | list xs =>
    have hfaces {cs : List Char} : (Cursor.mk ('(' :: cs) n).Faces ('(' :: cs) n :=
      faces_of_solid (Text.stops_cons (by decide)) n
    have hname {cs : List Char} : (Cursor.mk ('(' :: cs) n).name? = none :=
      hfaces.name?_eq_none (by decide)
    refine ⟨'(', _, rfl, Text.stops_cons (by decide), rfl, ?_,
      Cursor.keyword?_of_name?_eq_none hname _⟩
    rw [prefixWord?, hname]
  | single x =>
    obtain ⟨d, cs, heq, -⟩ := x.isWord.exists_append_eq (arrowTail e rest)
    have hsolid := x.isWord.solid (arrowTail e rest)
    have hends : NameEnds (arrowTail e rest) := nameEnds_of_mark (by decide)
    have hbegins := begins_operand_name x.isWord.isName x.unreserved hends n
    rw [heq] at hsolid hbegins
    exact ⟨d, cs, heq, hsolid, hbegins⟩

theorem length_le_listChars (xs : List Identifier) :
    2 * xs.length ≤ (listChars xs).length + 2 := by
  have hname (x : Identifier) : 1 ≤ x.chars.length := List.length_pos_iff.2 x.ne_nil
  have hmore (more : List Identifier) :
      2 * more.length ≤ (more.flatMap fun y ↦ ", ".toList ++ y.chars).length := by
    induction more with
    | nil => simp
    | cons y more ih =>
      rw [List.flatMap_cons, List.length_append, List.length_append, List.length_cons]
      change _ ≤ 2 + _ + _
      omega
  cases xs with
  | nil => simp
  | cons x more =>
    have hx := hname x
    have hle := hmore more
    rw [listChars, List.length_append, List.length_cons]
    omega

theorem Sum.length_more_le (e : Sum) : e.more.length ≤ e.chars.length := by
  have hmore (more : List Summand) :
      more.length ≤ (more.flatMap fun s ↦ " + ".toList ++ s.chars).length := by
    induction more with
    | nil => simp
    | cons s more ih =>
      rw [List.flatMap_cons, List.length_append, List.length_append, List.length_cons]
      change _ ≤ 3 + _ + _
      omega
  have hle := hmore e.more
  rw [Sum.chars, List.length_append]
  omega

theorem faces_arrowTail (e : Sum) (n : Nat) :
    (Cursor.mk (arrowTail e rest) n).Faces ('=' :: '>' :: ' ' :: (e.chars ++ ';' :: rest)) (n + 1) :=
  faces_blank (Text.stops_cons (by decide)) n

/-- A list in parentheses with an arrow behind them. -/
theorem reads_primary_parens (xs : List Identifier) (e : Sum) (n : Nat) :
    ∃ t n', Reads ((listChars xs).length + e.chars.length + 7) .primary
      ⟨'(' :: (listChars xs ++ ')' :: arrowTail e rest), n⟩ ([t], ⟨';' :: rest, n'⟩) ∧
        HoldsArrow t (listChars xs) := by
  have hsum := e.length_more_le
  have hlist := length_le_listChars xs
  obtain ⟨ts, hts, hitems⟩ := @reads_items_listChars (arrowTail e rest) xs (n + 1)
  obtain ⟨t, n', ht, harrow⟩ := @exists_arrow_eq rest e (n + 1 + (listChars xs).length + 1)
  have hself : (Cursor.mk ('(' :: (listChars xs ++ ')' :: arrowTail e rest)) n).trimmed =
      ⟨'(' :: (listChars xs ++ ')' :: arrowTail e rest), n⟩ :=
    trimmed_of_solid (Text.stops_cons (by decide)) n
  have hat := atArrow_of_faces (@faces_arrowTail rest e (n + 1 + (listChars xs).length + 1))
  refine ⟨.node .arrowFunction none "" [.node .formalParameters (some .parameters)
    (String.ofList ('(' :: (listChars xs ++ [')']))) ts, t], n', reads_succ fun m hm ↦ ?_,
      rfl, ?_, _, rfl, ?_⟩
  · have hsome := hitems m (by omega)
    change primary (read m) ⟨'(' :: (listChars xs ++ ')' :: arrowTail e rest), n⟩ = _
    unfold primary
    simp only [hself]
    rw [parenthesized]
    change (read m (.items ")") ⟨listChars xs ++ ')' :: arrowTail e rest, n + 1⟩).bind _ = _
    rw [hsome, Option.bind_some]
    simp only [hat, if_true, upTo_parens]
    exact harrow m _ (by omega)
  · exact (silent_node (t := .node .formalParameters _ _ ts) rfl hts).cons ht.2
  · rw [Tree.text, String.toList_ofList, stripParens_parens]

theorem ArrowParameters.reads_primary (xs : ArrowParameters) (e : Sum) (n : Nat) :
    ∃ t n', Reads ((xs.chars ++ e.chars).length + 6) .primary ⟨xs.chars ++ arrowTail e rest, n⟩
      ([t], ⟨';' :: rest, n'⟩) ∧ HoldsArrow t xs.inner := by
  cases xs with
  | list xs =>
    obtain ⟨t, n', hreads, ht⟩ := @reads_primary_parens rest xs e n
    have htext : (ArrowParameters.list xs).chars ++ arrowTail e rest =
        '(' :: (listChars xs ++ ')' :: arrowTail e rest) := by
      simp [ArrowParameters.chars]
    have hbound : (listChars xs).length + e.chars.length + 7 ≤
        ((ArrowParameters.list xs).chars ++ e.chars).length + 6 := by
      simp [ArrowParameters.chars]
    exact ⟨t, n', htext ▸ hreads.mono hbound, ht⟩
  | single x =>
    have hsum := e.length_more_le
    obtain ⟨t, n', ht, harrow⟩ := @exists_arrow_eq rest e (n + x.chars.length)
    refine ⟨.node .arrowFunction none "" [(Tree.leaf .identifier x.text).as .parameter, t], n',
      reads_succ fun m hm ↦ ?_, rfl, ((silent_leaf rfl _).as _).cons ht.2,
        (Tree.leaf .identifier x.text).as .parameter, ?_, ?_⟩
    · have hends : NameEnds (arrowTail e rest) := nameEnds_of_mark (by decide)
      change primary (read m) ⟨x.chars ++ arrowTail e rest, n⟩ = _
      rw [x.isWord.isName.primary_eq _ hends]
      refine (namedPrimary_arrow _ x.unreserved (faces_arrowTail e _)).trans ?_
      refine harrow m _ ?_
      rw [List.length_append] at hm
      omega
    · have hrole : ((Tree.leaf .identifier x.text).as .parameter).role = some .parameter := rfl
      simp [Tree.child?, Tree.children, hrole, ht.1]
    · exact (congrArg stripParens x.toList_text).trans (stripParens_identifier x)

/-- **An arrow function is read up to the semicolon behind it.** -/
theorem ArrowParameters.reads_assignment (xs : ArrowParameters) (e : Sum)
    (hc : c.Faces (xs.chars ++ arrowTail e rest) n) :
    ∃ t n', Reads ((xs.chars ++ e.chars).length + 9) .assignment c ([t], ⟨';' :: rest, n'⟩) ∧
      HoldsArrow t xs.inner := by
  obtain ⟨t, n', hprimary, ht⟩ := @ArrowParameters.reads_primary rest xs e n
  obtain ⟨x, cs, htext, hsolid, hsign, hprefix, hyield⟩ := xs.begins_operand e rest n
  rw [htext] at hc hprimary
  have hends : (Cursor.mk (';' :: rest) n').Closes := closes_of_mark (by decide) rest n'
  exact ⟨t, n', reads_assignment_single (reads_operand hc.trimmed_eq hsign hprefix hyield hprimary
    ((hends.ends.reads_attached t true).mono (Nat.le_add_left 1 _)) hends.ends) hends, ht⟩

/-! ## Calls of `require` -/

/-- The node of a module in quotation marks. -/
def Module.quoted (m : Module) (quote : Char) : Tree :=
  Tree.leaf .string (String.ofList (quote :: (m.chars ++ [quote])))

theorem Module.string? (m : Module) {quote : Char} (hquote : quote = '"' ∨ quote = '\'')
    (hc : c.Faces (quote :: (m.chars ++ quote :: rest)) n) :
    c.string? = some (m.quoted quote, ⟨rest, n + (quote :: (m.chars ++ [quote])).length⟩) := by
  refine hc.string? hquote (m.forall_mem (P := fun c ↦ c ≠ quote ∧ c ≠ '\\') ?_ ?_)
  · have hword : isIdentifierChar quote = false := by
      rcases hquote with rfl | rfl <;> decide
    exact fun c hchar ↦ ⟨ne_of_isIdentifierChar hword c hchar, ne_of_isIdentifierChar (by decide) c hchar⟩
  · rcases hquote with rfl | rfl <;> decide

/-- The module is what is between the quotation marks. -/
theorem Module.unquoted_quoted (m : Module) {quote : Char} (hquote : quote = '"' ∨ quote = '\'') :
    unquoted (m.quoted quote) = m.text := by
  have hmark : isQuotationMark quote = true := by
    rcases hquote with rfl | rfl <;> decide
  have hchars : ∀ c ∈ m.chars, isQuotationMark c = false :=
    m.forall_mem (P := fun c ↦ isQuotationMark c = false) (fun c hc ↦ by
      simp [isQuotationMark, beq_of_isIdentifierChar (by decide : isIdentifierChar '\'' = false) c hc,
        beq_of_isIdentifierChar (by decide : isIdentifierChar '"' = false) c hc,
        beq_of_isIdentifierChar (by decide : isIdentifierChar '\x60' = false) c hc]) (by decide)
  have htrim : Text.trimWhile isQuotationMark ([quote] ++ (m.chars ++ [quote])) = m.chars :=
    Text.trimWhile_append (by simpa using hmark) (by simpa using hmark) m.ne_nil
      (fun c hc ↦ hchars c (List.mem_of_mem_head? hc)) fun c hc ↦ hchars c (List.mem_of_getLast? hc)
  rw [unquoted, Module.quoted]
  change String.ofList (Text.trimWhile _ (String.ofList (quote :: (m.chars ++ [quote]))).toList) = _
  rw [String.toList_ofList]
  exact congrArg String.ofList htrim

/-- A module in quotation marks is an operand. -/
theorem Module.reads_operand (m : Module) (hc : c.Faces ('\'' :: (m.chars ++ '\'' :: ')' :: rest)) n) :
    ∃ n', Reads 2 .operand c ([m.quoted '\''], ⟨')' :: rest, n'⟩) := by
  have hself : (Cursor.mk ('\'' :: (m.chars ++ '\'' :: ')' :: rest)) n).Faces
      ('\'' :: (m.chars ++ '\'' :: ')' :: rest)) n := faces_of_solid (Text.stops_cons (by decide)) n
  have hname := hself.name?_eq_none (by decide)
  have hstring := m.string? (.inr rfl) hself
  have hends : (Cursor.mk (')' :: rest) (n + ('\'' :: (m.chars ++ ['\''])).length)).Ends :=
    (closes_of_mark (by decide) rest _).ends
  have hprimary : Reads (0 + 1) .primary ⟨'\'' :: (m.chars ++ '\'' :: ')' :: rest), n⟩
      ([m.quoted '\''], ⟨')' :: rest, n + ('\'' :: (m.chars ++ ['\''])).length⟩) := by
    refine reads_succ fun k _ ↦ ?_
    change primary (read k) ⟨'\'' :: (m.chars ++ '\'' :: ')' :: rest), n⟩ = _
    unfold primary
    simp only [hself.trimmed_eq]
    simp [hstring]
  exact ⟨_, Script.reads_operand hc.trimmed_eq rfl (by rw [prefixWord?, hname])
    (Cursor.keyword?_of_name?_eq_none hname _) hprimary (hends.reads_attached _ _) hends⟩

/-- The name of the function that requires a module. -/
def requireName : Identifier where
  chars := "require".toList

/-- How a call of `require` is written behind the name. -/
def requireTail (m : Module) (rest : List Char) : List Char :=
  '(' :: '\'' :: (m.chars ++ '\'' :: ')' :: ';' :: rest)

/-- The node of a call of `require`. -/
def requireTree (m : Module) : Tree :=
  Tree.branch .callExpression [(Tree.leaf .identifier "require").as .callee,
    .node .arguments (some .arguments) "" [m.quoted '\'']]

theorem walk_requireTree (m : Module) (o : Outline) :
    walk [requireTree m] o = o.addImport m.text := by
  have hmodule : requiredModule? (requireTree m) = some (unquoted (m.quoted '\'')) := rfl
  have htake : o.takeIn (requireTree m) = o.addImport (unquoted (m.quoted '\'')) := rfl
  have hsilent : Silent (requireTree m).children :=
    (silent_node (t := (Tree.leaf .identifier "require").as .callee) rfl silent_nil).cons
      (silent_node (t := .node .arguments _ _ _) rfl (silent_leaf rfl _))
  rw [walk_singleton, htake, m.unquoted_quoted (.inr rfl), hsilent]

theorem namedPrimary_require (inner : Reader) (h : c.atArrow = false) :
    namedPrimary inner "require" c = some ([Tree.leaf .identifier "require"], c) := by
  have hwords : valueWords.contains "require" = false := by decide
  rw [namedPrimary, hwords, h]
  · rfl
  all_goals decide

theorem reads_arguments (m : Module) (n : Nat) :
    ∃ n', Reads 5 (.items ")") ⟨'\'' :: (m.chars ++ '\'' :: ')' :: ';' :: rest), n⟩
      ([m.quoted '\''], ⟨';' :: rest, n'⟩) := by
  have hself : (Cursor.mk ('\'' :: (m.chars ++ '\'' :: ')' :: ';' :: rest)) n).Faces
      ('\'' :: (m.chars ++ '\'' :: ')' :: ';' :: rest)) n :=
    faces_of_solid (Text.stops_cons (by decide)) n
  obtain ⟨n', hoperand⟩ := m.reads_operand hself
  exact ⟨_, reads_items_cons hself (hself.mark?_eq_none (by decide)) (hself.mark?_eq_none (by decide))
    (hself.mark?_eq_none (by decide)) (reads_assignment_single hoperand (closes_of_mark (by decide) _ n'))
      ((reads_items_nil (faces_closing (by decide) _ n')).mono (by decide))⟩

theorem reads_attached_require (m : Module) (n : Nat) :
    ∃ n', Reads 6 (.attached (Tree.leaf .identifier "require") true) ⟨requireTail m rest, n⟩
      ([requireTree m], ⟨';' :: rest, n'⟩) := by
  obtain ⟨n', harguments⟩ := @reads_arguments rest m (n + 1)
  have hself : (Cursor.mk (requireTail m rest) n).trimmed =
      ⟨'(' :: '\'' :: (m.chars ++ '\'' :: ')' :: ';' :: rest), n⟩ :=
    trimmed_of_solid (Text.stops_cons (by decide)) n
  have hends : (Cursor.mk (';' :: rest) n').Ends := (closes_of_mark (by decide) rest n').ends
  refine ⟨n', reads_succ fun k hk ↦ ?_⟩
  have hsome := harguments k hk
  have hattachment : attachment (read k) (Tree.leaf .identifier "require") true
      ⟨requireTail m rest, n⟩ = some (some ([requireTree m], ⟨';' :: rest, n'⟩)) := by
    unfold attachment
    simp only [hself, if_true, call, arguments, Cursor.skip, List.drop_succ_cons, List.drop_zero,
      hsome]
    rfl
  change attached (read k) _ true ⟨requireTail m rest, n⟩ = _
  rw [attached, hattachment]
  exact hends.reads_attached (requireTree m) true k (Nat.le_trans (by decide) hk)

/-- **A call of `require` is read up to the semicolon behind it.** -/
theorem reads_assignment_require (m : Module)
    (hc : c.Faces (requireName.chars ++ requireTail m rest) n) :
    ∃ n', Reads 9 .assignment c ([requireTree m], ⟨';' :: rest, n'⟩) := by
  have hends : NameEnds (requireTail m rest) := nameEnds_of_mark (by decide)
  have htext : requireName.text = "require" := String.ofList_toList
  obtain ⟨hsign, hprefix, hyield⟩ :=
    begins_operand_name requireName.isWord.isName requireName.unreserved hends n
  obtain ⟨n', hattached⟩ := @reads_attached_require rest m (n + requireName.chars.length)
  have hprimary : Reads (5 + 1) .primary ⟨requireName.chars ++ requireTail m rest, n⟩
      ([Tree.leaf .identifier "require"], ⟨requireTail m rest, n + requireName.chars.length⟩) := by
    refine reads_succ fun k _ ↦ ?_
    have harrow : (Cursor.mk (requireTail m rest) (n + requireName.chars.length)).atArrow = false :=
      atArrow_eq_false (faces_of_solid (Text.stops_cons (by decide)) _) (by decide)
    change primary (read k) ⟨requireName.chars ++ requireTail m rest, n⟩ = _
    rw [requireName.isWord.isName.primary_eq _ hends, ← Identifier.text, htext,
      namedPrimary_require _ harrow]
  obtain ⟨d, cs, heq, -⟩ := requireName.isWord.exists_append_eq (requireTail m rest)
  rw [heq] at hc hsign hprefix hyield hprimary
  have hcloses : (Cursor.mk (';' :: rest) n').Closes := closes_of_mark (by decide) rest n'
  exact ⟨n', reads_assignment_single
    (reads_operand hc.trimmed_eq hsign hprefix hyield hprimary hattached hcloses.ends) hcloses⟩

end

end Outline

end ChangeContext
