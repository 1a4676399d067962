import ChangeContext.Proofs.Outline.AnonymousValues
import ChangeContext.Proofs.Outline.Readings

/-!
# Default exports in the tree

The grammar looks at a text only behind a gap, and a gap of blanks alone is passed whatever blanks there
are in it.  So a value without a name is read in any layout: its parameters as the items of a list, its
body as a block, its superclass as an operand.  Nothing in it reports anything, and the node around it is
an export with a value and without a declaration (`DefaultExport.structural?_source`).
-/

set_option autoImplicit false

namespace ChangeContext

namespace Outline

open Script

section

variable {c d : Cursor} {cs rest : List Char} {n : Nat} {x : Char}

/-! ## Blanks before a lexeme -/

theorem Blanks.forall_isBlank (b : Blanks) : ∀ c ∈ b.chars, Script.isBlank c = true :=
  fun c hc ↦ by simp [Script.isBlank, b.all c hc]

theorem Blanks.gap_eq (b : Blanks) (h : Solid cs) (n : Nat) :
    (Cursor.mk (b.chars ++ cs) n).gap =
      ⟨⟨cs, n + b.chars.length⟩, b.chars.any isLineBreak, []⟩ :=
  gap_blanks b.forall_isBlank h n

theorem Blanks.trimmed_eq (b : Blanks) (h : Solid cs) (n : Nat) :
    (Cursor.mk (b.chars ++ cs) n).trimmed = ⟨cs, n + b.chars.length⟩ :=
  congrArg Gap.next (b.gap_eq h n)

theorem Blanks.nameEnds (b : Blanks) (h : NameEnds rest) : NameEnds (b.chars ++ rest) := by
  cases hchars : b.chars with
  | nil => exact h
  | cons d ds => exact nameEnds_of_isBlank (b.forall_isBlank d (by simp [hchars])) _

theorem Gap.nameEnds (g : Gap) (rest : List Char) : NameEnds (g.chars ++ rest) := by
  obtain ⟨d, ds, heq, -⟩ := g.exists_eq_cons
  rw [heq]
  exact nameEnds_of_isBlank (g.forall_isBlank d (by simp [heq])) _

theorem solid_of_mark (hx : x ∈ "()\x7b\x7d,;*".toList) (cs : List Char) : Solid (x :: cs) :=
  Text.stops_cons ((by decide : ∀ x ∈ "()\x7b\x7d,;*".toList,
    (Script.isBlank x || x == '/') = false) x hx)

theorem Blanks.closes (b : Blanks) (hx : x ∈ "),;\x7b".toList) (cs : List Char) (n : Nat) :
    (Cursor.mk (b.chars ++ x :: cs) n).Closes :=
  closes_of_trimmed_cons (b.trimmed_eq (solid_of_mark
    ((by decide : ∀ x ∈ "),;\x7b".toList, x ∈ "()\x7b\x7d,;*".toList) x hx) cs) n) hx

/-! ## Parameters and bodies -/

theorem BoundName.isName (x : BoundName) : Script.IsName x.chars :=
  ⟨x.head, List.all_eq_true.1 x.all⟩

/-- The node of a name. -/
def BoundName.tree (x : BoundName) : Tree :=
  Tree.leaf .identifier (String.ofList x.chars)

theorem BoundName.silent (x : BoundName) : Silent [x.tree] :=
  silent_leaf rfl _

/-- **Parameters are read up to their parenthesis**, and they contribute nothing. -/
theorem ParameterList.exists_reads_items (ps : ParameterList) (n : Nat) :
    ∃ ts n', Silent ts ∧ Reads (ps.chars.length + 5) (.items ")") ⟨ps.chars ++ ')' :: rest, n⟩
      (ts, ⟨rest, n'⟩) := by
  induction ps generalizing n with
  | done blanks =>
    exact ⟨[], _, silent_nil,
      (reads_items_nil (blanks.gap_eq (solid_of_mark (by decide) rest) n)).mono (by omega)⟩
  | last front name back =>
    have hclose := reads_items_nil
      (back.gap_eq (solid_of_mark (by decide) rest) (n + front.chars.length + name.chars.length))
    refine ⟨[name.tree], n + front.chars.length + name.chars.length + back.chars.length + 1,
      name.silent, ?_⟩
    simp only [ParameterList.chars, List.append_assoc]
    exact (reads_items_name name.isName name.unreserved (front.gap_eq (name.isName.solid _) n)
      (back.nameEnds (nameEnds_of_mark (by decide))) (back.closes (by decide) rest _) (Nat.le_refl 4)
      (hclose.mono (by decide))).mono (by omega)
  | cons front name back more ih =>
    obtain ⟨ts, n', hts, hmore⟩ := ih
      (n + front.chars.length + name.chars.length + back.chars.length + 1)
    have hcomma := reads_items_comma (back.gap_eq (solid_of_mark (by decide) _) _) hmore
    have hname : 1 ≤ name.chars.length := by
      obtain ⟨d, ds, heq, -⟩ := name.isName.exists_eq_cons
      simp [heq]
    refine ⟨name.tree :: ts, n', name.silent.cons hts, ?_⟩
    simp only [ParameterList.chars, List.append_assoc, List.cons_append]
    exact (reads_items_name name.isName name.unreserved (front.gap_eq (name.isName.solid _) n)
      (back.nameEnds (nameEnds_of_mark (by decide))) (back.closes (by decide) _ _) (by omega)
      hcomma).mono (by simp; omega)

namespace EmptyBody

variable (b : EmptyBody)

theorem chars_append (rest : List Char) :
    b.chars ++ rest = b.before.chars ++ '\x7b' :: (b.inside.chars ++ '\x7d' :: rest) := by
  simp [chars]

theorem mark?_open (n : Nat) :
    (Cursor.mk (b.chars ++ rest) n).mark? "\x7b" =
      some ⟨b.inside.chars ++ '\x7d' :: rest, n + b.before.chars.length + 1⟩ := by
  rw [b.chars_append]
  exact Cursor.mark?_eq_some (s := "\x7b") (b.before.trimmed_eq (solid_of_mark (by decide) _) n)

theorem nameEnds (rest : List Char) : NameEnds (b.chars ++ rest) := by
  rw [b.chars_append]
  exact b.before.nameEnds (nameEnds_of_mark (by decide))

/-- No name stands before a body. -/
theorem name?_eq_none (rest : List Char) (n : Nat) :
    (Cursor.mk (b.chars ++ rest) n).name? = none := by
  rw [b.chars_append]
  exact Cursor.name?_eq_none (b.before.trimmed_eq (solid_of_mark (by decide) _) n) (by decide)

theorem trimmed_inside (n : Nat) :
    (Cursor.mk (b.inside.chars ++ '\x7d' :: rest) n).trimmed =
      ⟨'\x7d' :: rest, n + b.inside.chars.length⟩ :=
  b.inside.trimmed_eq (solid_of_mark (by decide) rest) n

/-- A body is a block with nothing in it. -/
theorem exists_block_eq (n : Nat) :
    ∃ n', ∀ m, 1 ≤ m →
      block (read m) ⟨b.chars ++ rest, n⟩ = some ([Tree.group []], ⟨rest, n'⟩) := by
  refine ⟨n + b.before.chars.length + 1 + b.inside.chars.length + 1, fun m hm ↦ ?_⟩
  have hbody := reads_statements_close (@trimmed_inside rest b (n + b.before.chars.length + 1)) m hm
  rw [block, b.mark?_open]
  simp only [Option.bind_eq_bind, Option.bind_some, hbody, mark?_close]
  rfl

end EmptyBody

/-! ## Functions -/

namespace AnonymousFunction

variable (f : AnonymousFunction)

/-- The parameters and the body are read behind their parenthesis. -/
theorem exists_callable_eq (hc : c.trimmed = ⟨'(' :: (f.parameters.chars ++ ')' ::
      (f.body.chars ++ rest)), n⟩) :
    ∃ ts n', Silent ts ∧ ∀ m, f.parameters.chars.length + 5 ≤ m →
      callable (read m) c = some (ts, ⟨rest, n'⟩) := by
  obtain ⟨ps, n₁, hps, hitems⟩ :=
    @ParameterList.exists_reads_items (f.body.chars ++ rest) f.parameters (n + 1)
  obtain ⟨n₂, hblock⟩ := @EmptyBody.exists_block_eq rest f.body n₁
  have hnode (text : String) : Silent [.node .formalParameters (some .parameters) text ps] :=
    silent_node rfl hps
  refine ⟨_, n₂, (hnode ((Cursor.mk ('(' :: (f.parameters.chars ++ ')' :: (f.body.chars ++ rest)))
    n).upTo ⟨f.body.chars ++ rest, n₁⟩)).cons (silent_group silent_nil), fun m hm ↦ ?_⟩
  have hself : (Cursor.mk ('(' :: (f.parameters.chars ++ ')' :: (f.body.chars ++ rest))) n).mark? "(" =
      some ⟨f.parameters.chars ++ ')' :: (f.body.chars ++ rest), n + 1⟩ :=
    Cursor.mark?_eq_some (s := "(") (trimmed_of_solid (solid_of_mark (by decide) _) n)
  have hsome := hitems m hm
  have hbody := hblock m (by omega)
  rw [callable, Script.parameters, hc, hself]
  simp only [Option.bind_eq_bind, Option.bind_some, hsome, hbody, Option.pure_def]
  rfl

/-- Behind the keyword, or the mark of a generator, stand the parameters. -/
theorem exists_lead (hcs : cs = f.lead ++ '(' :: rest) (n : Nat) :
    ∃ d n', ((Cursor.mk cs n).mark? "*" = some d ∨
        (Cursor.mk cs n).mark? "*" = none ∧ d = ⟨cs, n⟩) ∧
      d.trimmed = ⟨'(' :: rest, n'⟩ := by
  have hparen : Solid ('(' :: rest) := solid_of_mark (by decide) rest
  rw [hcs, lead]
  cases f.star with
  | none =>
    have htrimmed := f.front.trimmed_eq hparen n
    simp only [Option.map_none, Option.getD_none, List.append_nil]
    exact ⟨_, _, .inr ⟨Cursor.mark?_eq_none htrimmed (by decide), rfl⟩, htrimmed⟩
  | some b =>
    simp only [Option.map_some, Option.getD_some, List.append_assoc, List.cons_append]
    exact ⟨_, _, .inl (Cursor.mark?_eq_some (s := "*")
      (f.front.trimmed_eq (solid_of_mark (by decide) _) n)), b.trimmed_eq hparen _⟩

theorem chars_append (rest : List Char) :
    f.chars ++ rest = f.lead ++ '(' :: (f.parameters.chars ++ ')' :: (f.body.chars ++ rest)) := by
  simp [chars]

/-- A function has no name behind its keyword. -/
theorem name?_getD (rest : List Char) (n : Nat) :
    (((Cursor.mk (f.chars ++ rest) n).mark? "*").getD ⟨f.chars ++ rest, n⟩).name? = none := by
  obtain ⟨d, n', hstar | ⟨hstar, rfl⟩, htrimmed⟩ := f.exists_lead (f.chars_append rest) n
  all_goals
    rw [hstar]
    exact Cursor.name?_eq_none htrimmed (by decide)

theorem nameEnds (rest : List Char) : NameEnds (f.chars ++ rest) := by
  rw [f.chars_append, lead, List.append_assoc]
  refine f.front.nameEnds ?_
  cases f.star with
  | none => exact nameEnds_of_mark (by decide)
  | some b => exact nameEnds_of_mark (by decide)

/-- **A function is read behind its keyword**, and it contributes nothing. -/
theorem exists_function_eq (n : Nat) :
    ∃ t n', Silent [t] ∧ ∀ m, f.parameters.chars.length + 5 ≤ m →
      function (read m) false ⟨f.chars ++ rest, n⟩ = some ([t], ⟨rest, n'⟩) := by
  obtain ⟨d, n₁, hstar, htrimmed⟩ := f.exists_lead (f.chars_append rest) n
  obtain ⟨ts, n₂, hts, hcallable⟩ := f.exists_callable_eq htrimmed
  have hname : d.name? = none := Cursor.name?_eq_none htrimmed (by decide)
  rcases hstar with hstar | ⟨hstar, rfl⟩
  · refine ⟨.node .generatorFunction none "" ts, n₂, silent_node rfl hts, fun m hm ↦ ?_⟩
    rw [function, hstar]
    simp [hname, hcallable m hm]
  · refine ⟨.node .functionExpression none "" ts, n₂, silent_node rfl hts, fun m hm ↦ ?_⟩
    rw [function, hstar]
    simp [hname, hcallable m hm]

end AnonymousFunction

/-! ## Classes -/

theorem isWord_extends : IsWord "extends".toList := ⟨by decide, by decide⟩

/-- The superclass of a class is what an operand says. -/
theorem Heritage.name?_append (h : Heritage) (rest : List Char) (n : Nat) :
    (Cursor.mk (h.chars ++ rest) n).name? =
      some ("extends", ⟨h.behind.chars ++ (h.name.chars ++ rest),
        n + h.before.chars.length + "extends".toList.length⟩) := by
  have htext : h.chars ++ rest = h.before.chars ++ ("extends".toList ++ (h.behind.chars ++
      (h.name.chars ++ rest))) := by
    simp [Heritage.chars]
  have htrimmed := h.before.trimmed_eq
    (isWord_extends.solid (h.behind.chars ++ (h.name.chars ++ rest))) n
  rw [htext]
  exact name?_word isWord_extends htrimmed (h.behind.nameEnds _)

/-- **A class is read behind its keyword**, and it contributes nothing. -/
theorem exists_classBody_eq (heritage : Option Heritage) (body : EmptyBody) (n : Nat) :
    ∃ t n', Silent [t] ∧ ∀ m, 2 ≤ m →
      classBody (read m) ⟨(heritage.map Heritage.chars).getD [] ++ (body.chars ++ rest), n⟩ =
        some ([t], ⟨rest, n'⟩) := by
  have hmembers (k m : Nat) (hm : 2 ≤ m) :=
    reads_members_close (@EmptyBody.trimmed_inside rest body k) m (Nat.le_trans (by decide) hm)
  cases heritage with
  | none =>
    refine ⟨.node .classDeclaration none "" [], n + body.before.chars.length + 1 +
      body.inside.chars.length + 1, silent_node rfl silent_nil, fun m hm ↦ ?_⟩
    have hname := body.name?_eq_none rest n
    have hextends := Cursor.keyword?_of_name?_eq_none hname "extends"
    simp only [Option.map_none, Option.getD_none, List.nil_append]
    rw [classBody, hname]
    simp [hextends, body.mark?_open, hmembers _ m hm, mark?_close]
  | some h =>
    have hname := h.name?_append (body.chars ++ rest) n
    have hcloses (k : Nat) : (Cursor.mk (body.chars ++ rest) k).Closes := by
      rw [body.chars_append]
      exact body.before.closes (by decide) _ k
    obtain ⟨k, hoperand⟩ : ∃ k, Reads 2 .operand ⟨h.behind.chars ++ (h.name.chars ++
        (body.chars ++ rest)), n + h.before.chars.length + "extends".toList.length⟩
          ([h.name.tree], ⟨body.chars ++ rest, k⟩) :=
      ⟨_, reads_operand_name h.name.isName h.name.unreserved (h.behind.trimmed_eq
        (h.name.isName.solid (body.chars ++ rest)) _) (body.nameEnds rest) (hcloses _).ends⟩
    refine ⟨.node .classDeclaration none "" [h.name.tree], k + body.before.chars.length + 1 +
      body.inside.chars.length + 1, silent_node rfl h.name.silent, fun m hm ↦ ?_⟩
    have hextends := Cursor.keyword?_eq_some hname
    have hsome := hoperand m hm
    simp only [Option.map_some, Option.getD_some]
    rw [classBody, hname]
    simp only [hextends, hsome, if_true, Option.bind_eq_bind, Option.bind_some, body.mark?_open,
      hmembers _ m hm, mark?_close]
    rfl

/-! ## Values -/

theorem isWord_function : IsWord "function".toList := ⟨by decide, by decide⟩

namespace AnonymousValue

variable (v : AnonymousValue)

theorem word_mem : v.word ∈ ["function", "async", "class"] := by
  cases v <;> simp [word]

theorem isWord_word : IsWord v.word.toList :=
  (by decide +kernel : ∀ w ∈ ["function", "async", "class"], IsWord w.toList) _ v.word_mem

theorem nameEnds (rest : List Char) : NameEnds (v.tail ++ rest) := by
  cases v with
  | function f => exact f.nameEnds rest
  | asyncFunction gap f =>
    rw [tail, List.append_assoc]
    exact gap.nameEnds _
  | «class» heritage body =>
    rw [tail, List.append_assoc]
    cases heritage with
    | none => exact body.nameEnds rest
    | some h =>
      simp only [Option.map_some, Option.getD_some, Heritage.chars, List.append_assoc]
      exact h.before.nameEnds _

theorem tail_asyncFunction (gap : LineGap) (f : AnonymousFunction) (rest : List Char) :
    (asyncFunction gap f).tail ++ rest = gap.chars ++ ("function".toList ++ (f.chars ++ rest)) := by
  simp [tail]

/-- Behind the word for asynchronous functions comes the word for functions. -/
theorem keyword?_function (gap : LineGap) (f : AnonymousFunction) (rest : List Char) (n : Nat) :
    (Cursor.mk ((asyncFunction gap f).tail ++ rest) n).keyword? "function" =
      some ⟨f.chars ++ rest, n + gap.chars.length + "function".toList.length⟩ := by
  rw [tail_asyncFunction]
  exact Cursor.keyword?_eq_some (name?_word isWord_function
    (gap.trimmed_eq (isWord_function.solid (f.chars ++ rest)) n) (f.nameEnds rest))

theorem primary_eq (inner : Reader) (rest : List Char) (n : Nat) :
    primary inner ⟨v.word.toList ++ (v.tail ++ rest), n⟩ =
      namedPrimary inner v.word ⟨v.tail ++ rest, n + v.word.toList.length⟩ := by
  have heq := v.isWord_word.isName.primary_eq inner (v.nameEnds rest) n
  rwa [String.ofList_toList] at heq

/-- **A value is read behind its first word**, and it contributes nothing. -/
theorem exists_namedPrimary_eq (n : Nat) :
    ∃ t n', Silent [t] ∧ ∀ m, v.tail.length + 5 ≤ m →
      namedPrimary (read m) v.word ⟨v.tail ++ rest, n⟩ = some ([t], ⟨rest, n'⟩) := by
  have hlength (f : AnonymousFunction) : f.parameters.chars.length ≤ f.chars.length := by
    simp [AnonymousFunction.chars]
    omega
  cases v with
  | function f =>
    have hle := hlength f
    obtain ⟨t, n', ht, hfunction⟩ := @AnonymousFunction.exists_function_eq rest f n
    refine ⟨t, n', ht, fun m hm ↦ hfunction m ?_⟩
    simp only [tail] at hm
    omega
  | asyncFunction gap f =>
    have hle := hlength f
    have hword := keyword?_function gap f rest n
    have hbreak : (Cursor.mk ((asyncFunction gap f).tail ++ rest) n).gap.lineBreak = false := by
      rw [tail_asyncFunction, gap.gap_eq (isWord_function.solid (f.chars ++ rest)) n]
      exact gap.unbroken
    obtain ⟨t, n', ht, hfunction⟩ := @AnonymousFunction.exists_function_eq rest f
      (n + gap.chars.length + "function".toList.length)
    refine ⟨t, n', ht, fun m hm ↦ ?_⟩
    have hasync : asyncOperand (read m) ⟨(asyncFunction gap f).tail ++ rest, n⟩ =
        Script.function (read m) false
          ⟨f.chars ++ rest, n + gap.chars.length + "function".toList.length⟩ := by
      rw [asyncOperand, hbreak, hword]
      simp only [Bool.false_eq_true, if_false]
    refine hasync.trans (hfunction m ?_)
    simp only [tail, List.length_append] at hm
    omega
  | «class» heritage body =>
    obtain ⟨t, n', ht, hclass⟩ := @exists_classBody_eq rest heritage body n
    refine ⟨t, n', ht, fun m hm ↦ ?_⟩
    rw [tail, List.append_assoc]
    exact hclass m (by omega)

/-- A value is an assignment by itself. -/
theorem exists_reads_assignment (hc : c.trimmed = ⟨v.word.toList ++ (v.tail ++ rest), n⟩)
    (hrest : ∀ n, (Cursor.mk rest n).Closes) :
    ∃ t n', Silent [t] ∧ Reads (v.tail.length + 9) .assignment c ([t], ⟨rest, n'⟩) := by
  obtain ⟨t, n', ht, hvalue⟩ := @exists_namedPrimary_eq rest v (n + v.word.toList.length)
  have hprimary : Reads (v.tail.length + 5 + 1) .primary ⟨v.word.toList ++ (v.tail ++ rest), n⟩
      ([t], ⟨rest, n'⟩) :=
    reads_succ fun m hm ↦ (v.primary_eq (read m) rest n).trans (hvalue m hm)
  have hself := trimmed_of_solid (v.isWord_word.solid (v.tail ++ rest)) n
  have hname := name?_word v.isWord_word hself (v.nameEnds rest)
  have hsign := v.isWord_word.isName.signLength_eq (v.tail ++ rest) n
  have hprefix : prefixWord? ⟨v.word.toList ++ (v.tail ++ rest), n⟩ = none := by
    have hmem := (by decide : ∀ w ∈ ["function", "async", "class"],
      ["typeof", "void", "delete", "await"].contains w = false) _ v.word_mem
    rw [prefixWord?, hname]
    simp only [hmem, Bool.false_eq_true, if_false]
  have hyield : (Cursor.mk (v.word.toList ++ (v.tail ++ rest)) n).keyword? "yield" = none :=
    Cursor.keyword?_eq_none hname ((by decide : ∀ w ∈ ["function", "async", "class"], w ≠ "yield") _
      v.word_mem)
  obtain ⟨x, cs, heq, -⟩ := v.isWord_word.exists_append_eq (v.tail ++ rest)
  rw [heq] at hc hsign hprefix hyield hprimary
  exact ⟨t, n', ht, reads_assignment_single (reads_operand hc hsign hprefix hyield hprimary
    (((hrest n').ends.reads_attached t true).mono (by omega)) (hrest n').ends) (hrest n')⟩

/-- A value is not taken for a declaration. -/
theorem seesDeclared_eq (hc : c.trimmed = ⟨v.word.toList ++ (v.tail ++ rest), n⟩) :
    seesDeclared c = false := by
  have hname := name?_word v.isWord_word hc (v.nameEnds rest)
  have hlead (f : AnonymousFunction) (n : Nat) :
      (((Cursor.mk (f.chars ++ rest) n).mark? "*").getD ⟨f.chars ++ rest, n⟩).name?.isSome = false := by
    rw [f.name?_getD]
    rfl
  cases v with
  | function f =>
    simp only [seesDeclared, hname, word]
    exact hlead f _
  | asyncFunction gap f =>
    simp only [seesDeclared, hname, word, keyword?_function]
    exact hlead f _
  | «class» heritage body =>
    simp only [seesDeclared, hname, word, tail, List.append_assoc]
    cases heritage with
    | none =>
      simp only [Option.map_none, Option.getD_none, List.nil_append, body.name?_eq_none]
      rfl
    | some h =>
      simp only [Option.map_some, Option.getD_some, h.name?_append]
      rfl

end AnonymousValue

/-! ## The export -/

theorem Blanks.trimmed_eq_nil (b : Blanks) (n : Nat) :
    (Cursor.mk b.chars n).trimmed = ⟨[], n + b.chars.length⟩ := by
  have hnil : Solid [] := Text.stops_nil
  have htrimmed := b.trimmed_eq hnil n
  rwa [List.append_nil] at htrimmed

theorem Ending.closes (e : Ending) (n : Nat) : (Cursor.mk e.chars n).Closes := by
  cases e with
  | blanks bs => exact closes_of_trimmed_nil (bs.trimmed_eq_nil n)
  | semicolon before behind => exact before.closes (by decide) _ n

/-- Nothing is left behind the end of a statement. -/
theorem Ending.exists_trimmed_endStatement (e : Ending) (n : Nat) :
    ∃ n', (endStatement ⟨e.chars, n⟩).trimmed = ⟨[], n'⟩ := by
  cases e with
  | blanks bs =>
    have hmark : (Cursor.mk bs.chars n).mark? ";" = none := by
      rw [Cursor.mark?, bs.trimmed_eq_nil]
      rfl
    refine ⟨n + bs.chars.length, ?_⟩
    rw [chars, endStatement, hmark]
    exact bs.trimmed_eq_nil n
  | semicolon before behind =>
    have hmark : (Cursor.mk (before.chars ++ ';' :: behind.chars) n).mark? ";" =
        some ⟨behind.chars, n + before.chars.length + 1⟩ :=
      Cursor.mark?_eq_some (s := ";")
        (before.trimmed_eq (solid_of_mark (by decide) behind.chars) n)
    refine ⟨n + before.chars.length + 1 + behind.chars.length, ?_⟩
    rw [chars, endStatement, hmark]
    exact behind.trimmed_eq_nil _

namespace DefaultExport

/-- The node of the export of a value. -/
def tree (t : Tree) : Tree :=
  Tree.branch .exportStatement [t.as .value]

/-- An export of a silent value reports the default export, and nothing else. -/
theorem walk_tree {t : Tree} (h : Silent [t]) (o : Outline) :
    walk [tree t] o = o.addExport "default" := by
  have htake : o.takeIn (tree t) = o.addExport "default" := rfl
  have hchildren : Silent (tree t).children := h.as .value
  rw [walk_singleton, htake, hchildren]

theorem isWord_default : IsWord "default".toList := ⟨by decide, by decide⟩

variable (e : DefaultExport)

/-- **The export is read as a statement with its value.** -/
theorem exists_reads_statement (n : Nat) :
    ∃ t r, Silent [t] ∧ (∃ n', Cursor.trimmed r = ⟨[], n'⟩) ∧
      Reads (e.value.tail.length + 10) .statement
        ⟨"export".toList ++ (e.gap.chars ++ ("default".toList ++ e.rest)), n⟩ ([tree t], r) := by
  have hgap := e.gap.trimmed_eq (isWord_default.solid e.rest) (n + "export".toList.length)
  have hdefault := Cursor.keyword?_eq_some (name?_word isWord_default hgap (e.behind.nameEnds _))
  have hmark {s : String} (hs : (s.toList.head?.any fun d ↦ !Script.isNameStart d) = true) :=
    isWord_default.isName.mark?_eq_none hgap hs
  have hbehind (k : Nat) : (Cursor.mk e.rest k).trimmed =
      ⟨e.value.word.toList ++ (e.value.tail ++ e.ending.chars), k + e.behind.chars.length⟩ := by
    rw [rest, AnonymousValue.chars, List.append_assoc]
    exact e.behind.trimmed_eq (e.value.isWord_word.solid _) k
  obtain ⟨t, n', ht, hvalue⟩ := e.value.exists_reads_assignment
    (hbehind (n + "export".toList.length + e.gap.chars.length + "default".toList.length))
    e.ending.closes
  refine ⟨t, _, ht, e.ending.exists_trimmed_endStatement n', reads_succ fun m hm ↦ ?_⟩
  have hsome := hvalue m hm
  refine (statement_word (read m) isWord_export (faces_of_solid (isWord_export.solid _) n)
    (e.gap.nameEnds _)).trans ?_
  rw [namedStatement]
  rw [exportStatement, hmark (by decide), hmark (by decide), hdefault]
  simp only [exportDefault, e.value.seesDeclared_eq (hbehind _), hsome]
  rfl

/-- **The tree of a source that exports a value without a name says so**, and it says nothing else. -/
theorem structural?_source : structural? e.source = some (empty.addExport "default") := by
  obtain ⟨t, r, ht, ⟨n', hr⟩, hstatement⟩ := e.exists_reads_statement (0 + e.front.chars.length)
  have htrimmed := e.front.trimmed_eq
    (isWord_export.solid (e.gap.chars ++ ("default".toList ++ e.rest))) 0
  have hhead : ∀ x, e.chars.head? = some x → x ≠ '\uFEFF' ∧ x ≠ '#' := by
    intro x hx
    rw [chars, List.head?_append] at hx
    cases hfront : e.front.chars.head? with
    | some y =>
      obtain rfl : y = x := by simpa [hfront] using hx
      have hmem := List.mem_of_mem_head? hfront
      exact ⟨e.front.ne (by decide) y hmem, e.front.ne (by decide) y hmem⟩
    | none =>
      obtain rfl : 'e' = x := by simpa [hfront] using hx
      decide
  have hlength : e.value.tail.length + 11 ≤ 8 * e.chars.length + 64 := by
    simp [chars, rest, AnonymousValue.chars]
    omega
  obtain ⟨x, cs, heq, hx⟩ :=
    isWord_export.exists_append_eq (e.gap.chars ++ ("default".toList ++ e.rest))
  have htext : e.chars = e.front.chars ++ x :: cs := by rw [chars, heq]
  rw [heq] at htrimmed hstatement
  have hreads := reads_statements_cons hx htrimmed hstatement
    ((reads_statements_end hr).mono (Nat.le_add_left 1 _))
  rw [← htext, List.append_nil] at hreads
  rw [source, structural?_eq_walk hhead hreads hlength, walk_tree ht]

end DefaultExport

end

end Outline

end ChangeContext
