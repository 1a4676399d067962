import ChangeContext.Proofs.Outline.Values

/-!
# Declarations in the tree

A common statement that declares something declares one name: a function, a variable or a class.  The
grammar reads it as one tree, and an outline asks that tree for two things, the names that it would
export and what a walk over it finds.  `Declares` says both.  Exporting a declaration puts a node
around its tree, and what is asked for stays the same (`Declares.walk_exported`).
-/

set_option autoImplicit false

namespace ChangeContext

namespace Outline

open Script

/-- The tree declares this name, and a walk over it makes these reports. -/
structure Declares (t : Tree) (name : String) (report : Outline → Outline) : Prop where
  names : declaredNames t = [name]
  walk : ∀ o, walk [t] o = report o

/-- The node around an exported declaration. -/
def exportedTree (t : Tree) : Tree :=
  Tree.branch .exportStatement [t.as .declaration]

/-- **An exported declaration reports its name in addition.** -/
theorem Declares.walk_exported {t : Tree} {name : String} {report : Outline → Outline}
    (h : Declares t name report) (o : Outline) :
    Outline.walk [exportedTree t] o = report (o.addExport name) := by
  have hchild : (exportedTree t).child? .declaration = some (t.as .declaration) := rfl
  have hexports : exportsOf (exportedTree t) = [name] := by
    change exportedNames (exportedTree t) = _
    rw [exportedNames, hchild]
    exact h.names
  have htake : o.takeIn (exportedTree t) = (exportsOf (exportedTree t)).foldl addExport o := rfl
  rw [walk_singleton, htake, hexports]
  exact (walk_as t .declaration _).trans (h.walk _)

section

variable {c d : Cursor} {rest cs : List Char} {n : Nat} {bound : Nat} {t : Tree} {w : String}

/-! ## Words of the language -/

theorem name?_word (hw : IsWord w.toList) (hc : c.trimmed = ⟨w.toList ++ rest, n⟩)
    (hrest : NameEnds rest) : c.name? = some (w, ⟨rest, n + w.toList.length⟩) := by
  have hname := hw.isName.name? hc hrest
  rwa [String.ofList_toList] at hname

/-- A statement that begins with a word. -/
theorem statement_word (inner : Reader) (hw : IsWord w.toList) (hc : c.Faces (w.toList ++ rest) n)
    (hrest : NameEnds rest) :
    statement inner c =
      namedStatement inner w ⟨rest, n + w.toList.length⟩ ⟨w.toList ++ rest, n⟩ := by
  have hname := name?_word hw (trimmed_of_solid (hw.solid rest) n) hrest
  obtain ⟨x, tail, heq, hx⟩ := hw.exists_append_eq rest
  have hmarks : (";\x7b@".toList.contains x) = false :=
    contains_of_isIdentifierChar (by decide) x hx
  rw [heq] at hc hname ⊢
  unfold statement
  simp only [hc.trimmed_eq]
  split <;> simp_all

/-! ## Variables -/

theorem endStatement_semicolon (rest : List Char) (n : Nat) :
    endStatement ⟨';' :: rest, n⟩ = ⟨rest, n + 1⟩ := by
  have hc : (Cursor.mk (';' :: rest) n).Faces (";".toList ++ rest) n :=
    faces_closing (by decide) rest n
  rw [endStatement, hc.mark?]
  rfl

theorem target_eq (inner : Reader) (x : Identifier) (hc : c.Faces (x.chars ++ rest) n)
    (hrest : NameEnds rest) :
    target inner c = some ([Tree.leaf .identifier x.text], ⟨rest, n + x.chars.length⟩) := by
  rw [target, x.isWord.mark?_eq_none hc (by decide), x.isWord.mark?_eq_none hc (by decide),
    x.name? hc hrest]
  rfl

/-- The node of a variable that holds something. -/
def variableTree (x : Identifier) (t : Tree) : Tree :=
  .node .variableDeclarator none "" [nameLeaf x.text, t.as .value]

theorem reads_declarators (x : Identifier) {n' : Nat}
    (hc : c.Faces (x.chars ++ ' ' :: '=' :: cs) n)
    (hvalue : Reads bound .assignment ⟨cs, n + x.chars.length + 1 + 1⟩ ([t], ⟨';' :: rest, n'⟩)) :
    Reads (bound + 1) .declarators c ([variableTree x t], ⟨';' :: rest, n'⟩) := by
  refine reads_succ fun m hm ↦ ?_
  have hsome := hvalue m hm
  have hequals : Cursor.Faces ⟨' ' :: '=' :: cs, n + x.chars.length⟩ ("=".toList ++ cs)
      (n + x.chars.length + 1) := faces_blank (Text.stops_cons (by decide)) _
  have hmark : (Cursor.mk (' ' :: '=' :: cs) (n + x.chars.length)).mark? "=" =
      some ⟨cs, n + x.chars.length + 1 + 1⟩ := hequals.mark?
  have hcomma : (Cursor.mk (';' :: rest) n').mark? "," = none :=
    (faces_closing (by decide) rest n').mark?_eq_none (by decide)
  change declarators (read m) c = _
  rw [declarators, target_eq _ x hc (nameEnds_of_mark (by decide))]
  simp [declarator, hmark, hsome, moreDeclarators, hcomma]
  rfl

theorem declarationKeyword?_const (x : Identifier) (hrest : NameEnds rest)
    (hc : c.Faces ("const".toList ++ ' ' :: (x.chars ++ rest)) n) :
    declarationKeyword? c = some ("const", ⟨' ' :: (x.chars ++ rest), n + 5⟩) := by
  have hname : c.name? = some ("const", ⟨' ' :: (x.chars ++ rest), n + 5⟩) :=
    name?_word ⟨by decide, by decide⟩ hc.trimmed_eq (nameEnds_of_mark (by decide))
  have hx := faces_blank (x.isWord.solid rest) (n + 5)
  have hword := x.name? hx hrest
  have hstart : (Cursor.mk (x.chars ++ rest) (n + 5 + 1)).seesChar
      (fun y ↦ y == '[' || y == '\x7b' || y == '\\' || Script.isNameStart y) = true := by
    obtain ⟨y, ys, heq, hy⟩ := x.exists_eq_cons
    rw [heq]
    simp [Cursor.seesChar, scriptNameStart_of_isNameStart hy]
  have hno {s : String} (hs : s ∈ reservedWords) :
      (Cursor.mk (' ' :: (x.chars ++ rest)) (n + 5)).keyword? s = none :=
    Cursor.keyword?_eq_none hword (x.text_ne hs)
  have hin := hno (by decide : "in" ∈ reservedWords)
  have hinstanceof := hno (by decide : "instanceof" ∈ reservedWords)
  have hconst : ["var", "let", "const"].contains "const" = true := by decide
  rw [declarationKeyword?, hname]
  simp only [hx.trimmed_eq, hstart, hin, hinstanceof, hconst]
  rfl

theorem namedStatement_const {inner : Reader} {word : String} (h : declarationKeyword? c = some (word, d))
    (rest : Cursor) : namedStatement inner "const" rest c = declaration inner word d := by
  rw [namedStatement, h]
  all_goals decide

/-- **A variable is read with what it holds.** -/
theorem reads_const (x : Identifier) {n' : Nat}
    (hc : c.Faces ("const".toList ++ ' ' :: (x.chars ++ ' ' :: '=' :: cs)) n)
    (hvalue : Reads bound .assignment ⟨cs, n + 5 + 1 + x.chars.length + 1 + 1⟩
      ([t], ⟨';' :: rest, n'⟩)) :
    Reads (bound + 2) .statement c
      ([Tree.branch .lexicalDeclaration [variableTree x t]], ⟨rest, n' + 1⟩) := by
  refine reads_succ fun m hm ↦ ?_
  have hends : NameEnds (' ' :: '=' :: cs) := nameEnds_of_mark (by decide)
  have hconst : IsWord "const".toList := ⟨by decide, by decide⟩
  have hself := faces_of_solid (hconst.solid (' ' :: (x.chars ++ ' ' :: '=' :: cs))) n
  have hsome := reads_declarators x (faces_blank (x.isWord.solid _) (n + 5)) hvalue m hm
  change statement (read m) c = _
  rw [statement_word _ ⟨by decide, by decide⟩ hc (nameEnds_of_mark (by decide)),
    namedStatement_const (declarationKeyword?_const x hends hself), declaration, hsome]
  simp [endStatement_semicolon]
  rfl

theorem walk_variable (x : Identifier) (t : Tree) (o : Outline) :
    walk [Tree.branch .lexicalDeclaration [variableTree x t]] o =
      walk [t] (((heldFunction? (variableTree x t)).map fun f ↦
        o.addFunction f.1 f.2.toList).getD o) := by
  have hname : Silent [nameLeaf x.text] := (silent_leaf rfl _).as .name
  rw [walk_singleton, takeIn_of_not_speaks rfl]
  change walk [variableTree x t] o = _
  rw [walk_singleton]
  change walk (nameLeaf x.text :: [t.as .value]) _ = _
  rw [walk_cons, hname, walk_as]
  rfl

/-- What a function is reported with is its list of parameters. -/
theorem addFunction_of_stripParens {params params' : List Char} (h : stripParens params = params')
    (h' : stripParens params' = params') (o : Outline) (name : String) :
    o.addFunction name params = o.addFunction name params' := by
  rw [addFunction, addFunction, h, h']

theorem ArrowParameters.stripParens_inner (xs : ArrowParameters) : stripParens xs.inner = xs.inner := by
  cases xs with
  | list xs => exact stripParens_listChars xs
  | single x => exact stripParens_identifier x

/-- A variable that holds an arrow function reports the function. -/
theorem declares_arrow (x : Identifier) (xs : ArrowParameters) (h : HoldsArrow t xs.inner) :
    Declares (Tree.branch .lexicalDeclaration [variableTree x t]) x.text
      (·.addFunction x.text xs.inner) where
  names := rfl
  walk o := by
    obtain ⟨p, hp, hparams⟩ := h.parameters
    have hvalue : ((variableTree x t).child? .value).filter isFunctionValue =
        some (t.as .value) := by
      have hkind : isFunctionValue (t.as .value) = true := by
        rw [isFunctionValue, Tree.as, Tree.kind, h.kind]
        decide
      have hchild : (variableTree x t).child? .value = some (t.as .value) := rfl
      rw [hchild, Option.filter_some, if_pos hkind]
    have hheld : heldFunction? (variableTree x t) = some (x.text, p.text) := by
      have hp' : (((t.as .value).child? .parameters).orElse fun _ ↦
          (t.as .value).child? .parameter) = some p := hp
      rw [heldFunction?, hvalue]
      change some (x.text, _) = _
      rw [hp']
      rfl
    have hsilent : Silent [t] := silent_node (by rw [h.kind]; rfl) h.silent
    rw [walk_variable, hsilent, hheld]
    exact addFunction_of_stripParens hparams xs.stripParens_inner o x.text

/-- A variable that holds a required module reports the module. -/
theorem walk_variable_require (x : Identifier) (m : Module) (o : Outline) :
    walk [Tree.branch .lexicalDeclaration [variableTree x (requireTree m)]] o =
      o.addImport m.text := by
  have hheld : heldFunction? (variableTree x (requireTree m)) = none := rfl
  rw [walk_variable, hheld, walk_requireTree]
  rfl

/-! ## Blocks -/

theorem skipMarkupComment_eq {x : Char} (hx : x ≠ '<' ∧ x ≠ '-') (n : Nat) :
    skipMarkupComment ⟨x :: cs, n⟩ = ⟨x :: cs, n⟩ := by
  rw [skipMarkupComment, sees_cons_of_ne (by simpa using hx.1.symm),
    sees_cons_of_ne (by simpa using hx.2.symm)]
  rfl

/-- A statement that begins as words do, and those behind it. -/
theorem reads_statements_cons {x : Char} {tail : List Char} {ts us : List Tree} {r : Cursor}
    (hx : isIdentifierChar x = true) (hc : c.trimmed = ⟨x :: tail, n⟩)
    (hstatement : Reads bound .statement ⟨x :: tail, n⟩ (ts, d))
    (hmore : Reads bound (.statements false) d (us, r)) :
    Reads (bound + 1) (.statements false) c (ts ++ us, r) := by
  refine reads_succ fun m hm ↦ ?_
  have hfirst := hstatement m hm
  have hsome := hmore m hm
  have hne {mark : Char} (hmark : isIdentifierChar mark = false) : x ≠ mark :=
    ne_of_isIdentifierChar hmark x hx
  have hclose : (Cursor.mk (x :: tail) n).sees "\x7d" = false :=
    sees_cons_of_ne (by simpa using (hne (by decide : isIdentifierChar '\x7d' = false)).symm) n
  change statements (read m) false c = _
  rw [statements, hc, skipMarkupComment_eq ⟨hne (by decide), hne (by decide)⟩]
  simp [hclose, hfirst, hsome]

theorem reads_statements_close (hc : c.trimmed = ⟨'\x7d' :: rest, n⟩) :
    Reads 1 (.statements false) c ([], ⟨'\x7d' :: rest, n⟩) :=
  reads_succ fun m _ ↦ by
    change statements (read m) false c = _
    rw [statements, hc, skipMarkupComment_eq (by decide)]
    rfl

theorem reads_statements_end (hc : c.trimmed = ⟨[], n⟩) :
    Reads 1 (.statements false) c ([], ⟨[], n⟩) :=
  reads_succ fun m _ ↦ by
    change statements (read m) false c = _
    rw [statements, hc]
    rfl

/-- A word that stands for a value is an operand. -/
theorem reads_null (n : Nat) :
    ∃ n', Reads 4 .assignment ⟨' ' :: ("null".toList ++ ';' :: rest), n⟩
      ([Tree.leaf .other ""], ⟨';' :: rest, n'⟩) := by
  have hw : IsWord "null".toList := ⟨by decide, by decide⟩
  have hends : NameEnds (';' :: rest) := nameEnds_of_mark (by decide)
  have hname := name?_word hw (trimmed_of_solid (hw.solid (';' :: rest)) (n + 1)) hends
  have hprimary : Reads (0 + 1) .primary ⟨"null".toList ++ ';' :: rest, n + 1⟩
      ([Tree.leaf .other ""], ⟨';' :: rest, n + 1 + 4⟩) := by
    refine reads_succ fun m _ ↦ ?_
    change primary (read m) ⟨"null".toList ++ ';' :: rest, n + 1⟩ = _
    rw [hw.isName.primary_eq _ hends, String.ofList_toList, namedPrimary]
    · rfl
    all_goals decide
  have hprefix : prefixWord? ⟨"null".toList ++ ';' :: rest, n + 1⟩ = none := by
    rw [prefixWord?, hname]
    rfl
  have hcloses := closes_of_mark (by decide : ';' ∈ "),;".toList) rest (n + 1 + 4)
  exact ⟨_, reads_assignment_single (reads_operand (faces_blank (hw.solid _) n).trimmed_eq
    (hw.isName.signLength_eq _ _) hprefix (Cursor.keyword?_eq_none hname (by decide)) hprimary
    (hcloses.ends.reads_attached _ true) hcloses.ends) hcloses⟩

theorem reads_expression (h : Reads bound .assignment c ([t], ⟨';' :: rest, n⟩)) :
    Reads (bound + 1) .expression c ([t], ⟨';' :: rest, n⟩) :=
  reads_succ fun m hm ↦ by
    change expression (read m) c = _
    have hsome := h m hm
    have hcomma : (Cursor.mk (';' :: rest) n).mark? "," = none :=
      (faces_closing (by decide) rest n).mark?_eq_none (by decide)
    simp [expression, hsome, hcomma]

theorem reads_return (n : Nat) :
    ∃ n', Reads 6 .statement ⟨"return".toList ++ ' ' :: ("null".toList ++ ';' :: rest), n⟩
      ([Tree.group [Tree.leaf .other ""]], ⟨rest, n'⟩) := by
  have hw : IsWord "return".toList := ⟨by decide, by decide⟩
  have hnull : IsWord "null".toList := ⟨by decide, by decide⟩
  obtain ⟨n', hassignment⟩ := @reads_null rest (n + 6)
  refine ⟨n' + 1, reads_succ fun m hm ↦ ?_⟩
  have hsome := reads_expression hassignment m hm
  have hgoes : endsHere ⟨' ' :: ("null".toList ++ ';' :: rest), n + 6⟩ = false := by
    have hc := faces_blank (hnull.solid (';' :: rest)) (n + 6)
    rw [endsHere, hc]
    rfl
  change statement (read m) ⟨"return".toList ++ ' ' :: ("null".toList ++ ';' :: rest), n⟩ = _
  rw [statement_word _ hw (faces_of_solid (hw.solid _) n) (nameEnds_of_mark (by decide)),
    namedStatement]
  change leaving (read m) ⟨' ' :: ("null".toList ++ ';' :: rest), n + 6⟩ = _
  rw [leaving, hgoes, if_neg Bool.false_ne_true, hsome]
  simp [endStatement_semicolon]

theorem mark?_open (cs : List Char) (n : Nat) :
    (Cursor.mk (' ' :: '\x7b' :: cs) n).mark? "\x7b" = some ⟨cs, n + 1 + 1⟩ := by
  have hc : Cursor.Faces ⟨' ' :: '\x7b' :: cs, n⟩ ("\x7b".toList ++ cs) (n + 1) :=
    faces_blank (Text.stops_cons (by decide)) n
  exact hc.mark?

theorem mark?_close (cs : List Char) (n : Nat) :
    (Cursor.mk ('\x7d' :: cs) n).mark? "\x7d" = some ⟨cs, n + 1⟩ := by
  have hc : Cursor.Faces ⟨'\x7d' :: cs, n⟩ ("\x7d".toList ++ cs) n :=
    faces_of_solid (Text.stops_cons (by decide)) n
  exact hc.mark?

/-- The body of a function is a block that says nothing. -/
theorem exists_block_eq (returns : Bool) (n : Nat) :
    ∃ body n', Silent body ∧ ∀ m, 7 ≤ m →
      block (read m) ⟨Statement.bodyChars returns ++ rest, n⟩ =
        some ([Tree.group body], ⟨rest, n'⟩) := by
  cases returns with
  | false =>
    have htext : Statement.bodyChars false ++ rest = ' ' :: '\x7b' :: '\x7d' :: rest := rfl
    refine ⟨[], n + 1 + 1 + 1, silent_nil, fun m hm ↦ ?_⟩
    have hbody : Reads 1 (.statements false) ⟨'\x7d' :: rest, n + 1 + 1⟩ _ :=
      reads_statements_close (trimmed_of_solid (Text.stops_cons (by decide)) _)
    have hsome := hbody m (Nat.le_trans (by decide) hm)
    rw [block, htext, mark?_open]
    simp [hsome, mark?_close]
  | true =>
    have htext : Statement.bodyChars true ++ rest = ' ' :: '\x7b' :: ' ' :: ("return".toList ++
        ' ' :: ("null".toList ++ ';' :: ' ' :: '\x7d' :: rest)) := rfl
    have hw : IsWord "return".toList := ⟨by decide, by decide⟩
    obtain ⟨n', hreturn⟩ := @reads_return (' ' :: '\x7d' :: rest) (n + 1 + 1 + 1)
    refine ⟨[Tree.group [Tree.leaf .other ""]], n' + 1 + 1, silent_group (silent_leaf rfl ""),
      fun m hm ↦ ?_⟩
    have hclose : Reads 1 (.statements false) ⟨' ' :: '\x7d' :: rest, n'⟩ _ :=
      reads_statements_close (faces_blank (Text.stops_cons (by decide)) n').trimmed_eq
    have hbody := reads_statements_cons (by decide : isIdentifierChar 'r' = true)
      (faces_blank (hw.solid _) (n + 1 + 1)).trimmed_eq hreturn (hclose.mono (by decide))
    have hsome := hbody m hm
    rw [block, htext, mark?_open]
    simp only [Option.bind_eq_bind, Option.bind_some, hsome, mark?_close]
    rfl

/-! ## Functions and classes -/

/-- The node of a list of parameters. -/
def parametersTree (xs : List Identifier) (ts : List Tree) : Tree :=
  .node .formalParameters (some .parameters) (String.ofList ('(' :: (listChars xs ++ [')']))) ts

theorem exists_parameters_eq (xs : List Identifier) (n : Nat) :
    ∃ ts n', Silent ts ∧ ∀ m, 2 * xs.length + 4 ≤ m →
      parameters (read m) ⟨'(' :: (listChars xs ++ ')' :: rest), n⟩ =
        some ([parametersTree xs ts], ⟨rest, n'⟩) := by
  obtain ⟨ts, hts, hitems⟩ := @reads_items_listChars rest xs (n + 1)
  refine ⟨ts, n + 1 + (listChars xs).length + 1, hts, fun m hm ↦ ?_⟩
  have hsome := hitems m hm
  have hself : (Cursor.mk ('(' :: (listChars xs ++ ')' :: rest)) n).Faces
      ("(".toList ++ (listChars xs ++ ')' :: rest)) n := faces_of_solid (Text.stops_cons (by decide)) n
  have hmark : (Cursor.mk ('(' :: (listChars xs ++ ')' :: rest)) n).mark? "(" =
      some ⟨listChars xs ++ ')' :: rest, n + 1⟩ := hself.mark?
  have htrimmed : (Cursor.mk ('(' :: (listChars xs ++ ')' :: rest)) n).trimmed =
      ⟨'(' :: (listChars xs ++ ')' :: rest), n⟩ := hself.trimmed_eq
  rw [parameters, htrimmed, hmark]
  simp only [Option.bind_eq_bind, Option.bind_some, hsome, upTo_parens]
  rfl

/-- The node of a function declaration. -/
def functionTree (f : Identifier) (xs : List Identifier) (ts body : List Tree) : Tree :=
  .node .functionDeclaration none "" [nameLeaf f.text, parametersTree xs ts, Tree.group body]

/-- **A function declaration is read up to its closing brace.** -/
theorem reads_function (f : Identifier) (xs : List Identifier) (returns : Bool)
    (hc : c.Faces ("function".toList ++ ' ' :: (f.chars ++ '(' :: (listChars xs ++
      ')' :: (Statement.bodyChars returns ++ rest)))) n) :
    ∃ ts body n', Reads (2 * xs.length + 8) .statement c ([functionTree f xs ts body], ⟨rest, n'⟩) ∧
      Silent ts ∧ Silent body := by
  obtain ⟨ts, n₁, hts, hparameters⟩ := @exists_parameters_eq (Statement.bodyChars returns ++ rest) xs
    (n + 8 + 1 + f.chars.length)
  obtain ⟨body, n₂, hbody, hblock⟩ := @exists_block_eq rest returns n₁
  refine ⟨ts, body, n₂, reads_succ fun m hm ↦ ?_, hts, hbody⟩
  have hf := faces_blank (f.isWord.solid ('(' :: (listChars xs ++
    ')' :: (Statement.bodyChars returns ++ rest)))) (n + 8)
  have hname := f.name? hf (nameEnds_of_mark (by decide))
  have hstar := f.isWord.mark?_eq_none (s := "*") hf (by decide)
  have hps := hparameters m (by omega)
  have hbs := hblock m (by omega)
  change statement (read m) c = _
  rw [statement_word _ ⟨by decide, by decide⟩ hc (nameEnds_of_mark (by decide)), namedStatement]
  change function (read m) true ⟨' ' :: (f.chars ++ '(' :: (listChars xs ++
    ')' :: (Statement.bodyChars returns ++ rest))), n + 8⟩ = _
  rw [function, hstar]
  simp only
  rw [hname]
  simp [callable, hps, hbs]
  rfl

/-- A function declaration reports the function. -/
theorem declares_function (f : Identifier) (xs : List Identifier) {ts body : List Tree}
    (hts : Silent ts) (hbody : Silent body) :
    Declares (functionTree f xs ts body) f.text (·.addFunction f.text (listChars xs)) where
  names := rfl
  walk o := by
    have hchildren : Silent (functionTree f xs ts body).children :=
      ((silent_leaf rfl f.text).as .name).cons
        ((silent_node (t := parametersTree xs ts) rfl hts).cons (silent_group hbody))
    have htake : o.takeIn (functionTree f xs ts body) =
        o.addFunction f.text (String.ofList ('(' :: (listChars xs ++ [')']))).toList := rfl
    rw [walk_singleton, htake, hchildren, String.toList_ofList]
    exact addFunction_of_stripParens (stripParens_parens xs) (stripParens_listChars xs) o f.text

theorem reads_members_close (hc : c.trimmed = ⟨'\x7d' :: rest, n⟩) :
    Reads 1 .members c ([], ⟨'\x7d' :: rest, n⟩) :=
  reads_succ fun m _ ↦ by
    change classMembers (read m) c = _
    rw [classMembers, hc]
    rfl

/-- The node of a class without members. -/
def classTree (x : Identifier) : Tree :=
  .node .classDeclaration none "" [nameLeaf x.text]

/-- **A class without members is read up to its closing brace.** -/
theorem reads_class (x : Identifier)
    (hc : c.Faces ("class".toList ++ ' ' :: (x.chars ++ ' ' :: '\x7b' :: '\x7d' :: rest)) n) :
    ∃ n', Reads 2 .statement c ([classTree x], ⟨rest, n'⟩) := by
  refine ⟨n + 5 + 1 + x.chars.length + 1 + 1 + 1, reads_succ fun m hm ↦ ?_⟩
  have hname := x.name? (faces_blank (x.isWord.solid (' ' :: '\x7b' :: '\x7d' :: rest)) (n + 5))
    (nameEnds_of_mark (by decide))
  have hbrace : (Cursor.mk (' ' :: '\x7b' :: '\x7d' :: rest) (n + 5 + 1 + x.chars.length)).Faces
      ('\x7b' :: '\x7d' :: rest) (n + 5 + 1 + x.chars.length + 1) :=
    faces_blank (Text.stops_cons (by decide)) _
  have hextends := Cursor.keyword?_of_name?_eq_none (hbrace.name?_eq_none (by decide)) "extends"
  have hself : (Cursor.mk ('\x7d' :: rest) (n + 5 + 1 + x.chars.length + 1 + 1)).trimmed =
      ⟨'\x7d' :: rest, n + 5 + 1 + x.chars.length + 1 + 1⟩ :=
    trimmed_of_solid (Text.stops_cons (by decide)) _
  have hsome := reads_members_close hself m hm
  change statement (read m) c = _
  rw [statement_word _ ⟨by decide, by decide⟩ hc (nameEnds_of_mark (by decide)), namedStatement]
  change classBody (read m) ⟨' ' :: (x.chars ++ ' ' :: '\x7b' :: '\x7d' :: rest), n + 5⟩ = _
  rw [classBody, hname]
  simp [x.text_ne (by decide : "extends" ∈ reservedWords), hextends, mark?_open, hsome, mark?_close]
  rfl

/-- A class reports nothing by itself. -/
theorem declares_class (x : Identifier) : Declares (classTree x) x.text id where
  names := rfl
  walk o := by
    have hsilent : Silent [classTree x] :=
      silent_node (t := classTree x) rfl ((silent_leaf rfl x.text).as .name)
    exact hsilent o

/-! ## Exported declarations -/

/-- **An exported declaration is read with the word before it.** -/
theorem reads_exported (hw : IsWord w.toList) (hdefault : w ≠ "default")
    (hc : c.Faces ("export".toList ++ ' ' :: (w.toList ++ ' ' :: cs)) n)
    (hdeclaration : Reads bound .statement ⟨' ' :: (w.toList ++ ' ' :: cs), n + 6⟩ ([t], d)) :
    Reads (bound + 1) .statement c ([exportedTree t], d) := by
  refine reads_succ fun m hm ↦ ?_
  have hfaces := faces_blank (hw.solid (' ' :: cs)) (n + 6)
  have hname := name?_word hw hfaces.trimmed_eq (nameEnds_of_mark (by decide))
  have hstar := hw.mark?_eq_none (s := "*") hfaces (by decide)
  have hbrace := hw.mark?_eq_none (s := "\x7b") hfaces (by decide)
  have hnone := Cursor.keyword?_eq_none hname hdefault
  have hsome := hdeclaration m hm
  change statement (read m) c = _
  rw [statement_word _ ⟨by decide, by decide⟩ hc (nameEnds_of_mark (by decide)), namedStatement]
  change exportStatement (read m) ⟨' ' :: (w.toList ++ ' ' :: cs), n + 6⟩ = _
  rw [exportStatement, hstar, hbrace, hnone]
  simp [hsome]
  rfl

end

end Outline

end ChangeContext
