import ChangeContext.Proofs.Outline.Declarations

/-!
# Common statements in the tree

The grammar reads a common statement up to its last character, whatever stands behind it, and a walk
over what was read makes of an outline what the statement contributes to it (`Statement.reads`).  So a
source is read statement by statement, and its outline is made of the contributions in their order
(`structural?_source`).
-/

set_option autoImplicit false

namespace ChangeContext

namespace Outline

open Script

/-- What a statement contributes to an outline. -/
def Statement.contribute (s : Statement) (o : Outline) : Outline :=
  let o := (s.declared?.map fun f ↦ o.addFunction f.1 f.2).getD o
  s.exports.foldl addExport (s.modules.foldl addImport o)

section

variable {c : Cursor} {cs rest : List Char} {n : Nat}

/-! ## Import statements -/

theorem importedModule_word (bound : Nat) (h : IsWord cs) (hc : c.Faces (cs ++ rest) n)
    (hrest : NameEnds rest) :
    importedModule (bound + 1) c = importedModule bound ⟨rest, n + cs.length⟩ := by
  rw [importedModule, h.string?_eq_none hc, h.mark?_eq_none hc (by decide), h.name? hc hrest]

/-- One name in braces is skipped with the braces. -/
theorem exists_skipBraces_eq (x : Identifier) (bound n : Nat) :
    ∃ n', skipBraces (bound + 2) ⟨' ' :: (x.chars ++ ' ' :: '\x7d' :: rest), n⟩ =
      some ⟨rest, n'⟩ := by
  have hself := faces_of_solid (x.isWord.solid (' ' :: '\x7d' :: rest)) (n + 1)
  have hclose : Cursor.Faces ⟨' ' :: '\x7d' :: rest, n + 1 + x.chars.length⟩ ('\x7d' :: rest)
      (n + 1 + x.chars.length + 1) := faces_blank (Text.stops_cons (by decide)) _
  refine ⟨n + 1 + x.chars.length + 1 + 1, ?_⟩
  rw [skipBraces, (faces_blank (x.isWord.solid (' ' :: '\x7d' :: rest)) n).trimmed_eq,
    x.isWord.mark?_eq_none hself (by decide), x.isWord.string?_eq_none hself,
    x.name? hself (nameEnds_of_mark (by decide))]
  simp only
  rw [skipBraces, hclose.trimmed_eq, mark?_close]

/-- What an import binds is passed on the way to its module. -/
theorem exists_importedModule_eq (clause : ImportClause) (bound n : Nat) :
    ∃ n', importedModule (bound + 1) ⟨' ' :: (clause.chars ++ ' ' :: rest), n⟩ =
      importedModule bound ⟨' ' :: rest, n'⟩ := by
  have hends : NameEnds (' ' :: rest) := nameEnds_of_mark (by decide)
  cases clause with
  | default x => exact ⟨_, importedModule_word bound x.isWord (faces_blank (x.isWord.solid _) n) hends⟩
  | named x =>
    have htext : (ImportClause.named x).chars ++ ' ' :: rest =
        '\x7b' :: ' ' :: (x.chars ++ ' ' :: '\x7d' :: ' ' :: rest) := by
      simp [ImportClause.chars]
    have hbrace : Cursor.Faces ⟨' ' :: '\x7b' :: ' ' :: (x.chars ++ ' ' :: '\x7d' :: ' ' :: rest), n⟩
        ('\x7b' :: ' ' :: (x.chars ++ ' ' :: '\x7d' :: ' ' :: rest)) (n + 1) :=
      faces_blank (Text.stops_cons (by decide)) n
    obtain ⟨k, hk⟩ : ∃ k, (' ' :: (x.chars ++ ' ' :: '\x7d' :: ' ' :: rest)).length = k + 2 :=
      Nat.exists_eq_add_of_le' (by simp; omega)
    obtain ⟨n', hskip⟩ := @exists_skipBraces_eq (' ' :: rest) x k (n + 1 + 1)
    refine ⟨n', ?_⟩
    rw [htext, importedModule, hbrace.string?_eq_none (by decide), mark?_open]
    simp only
    rw [hk, hskip, Option.bind_some]

/-- The node of an import. -/
def importTree (m : Module) (quote : Char) : Tree :=
  Tree.branch .importStatement [(m.quoted quote).as .source]

theorem ImportClause.quote_eq (clause : ImportClause) : clause.quote = '"' ∨ clause.quote = '\'' := by
  cases clause with
  | default x => exact .inr rfl
  | named x => exact .inl rfl

theorem moduleTail_semicolon (inner : Reader) (rest : List Char) (n : Nat) :
    moduleTail inner ⟨';' :: rest, n⟩ = some ([], ⟨rest, n + 1⟩) := by
  rw [moduleTail, (faces_closing (by decide) rest n).name?_eq_none (by decide),
    endStatement_semicolon]

/-- How an import is written behind its clause. -/
def importTail (quote : Char) (m : Module) (rest : List Char) : List Char :=
  ' ' :: ("from".toList ++ ' ' :: quote :: (m.chars ++ quote :: ';' :: rest))

/-- Behind its clause an import has its module. -/
theorem exists_importedModule_tail {quote : Char} (hquote : quote = '"' ∨ quote = '\'') (m : Module)
    (n : Nat) :
    ∃ n', ∀ bound, importedModule (bound + 2) ⟨importTail quote m rest, n⟩ =
      some ([(m.quoted quote).as .source], ⟨';' :: rest, n'⟩) := by
  have hsolid : Solid (quote :: (m.chars ++ quote :: ';' :: rest)) := by
    rcases hquote with rfl | rfl <;> exact Text.stops_cons (by decide)
  have hfrom : IsWord "from".toList := ⟨by decide, by decide⟩
  have hword (bound : Nat) := importedModule_word (bound + 1) hfrom
    (faces_blank (hfrom.solid (' ' :: quote :: (m.chars ++ quote :: ';' :: rest))) n)
    (nameEnds_of_mark (by decide))
  refine ⟨n + 1 + "from".toList.length + 1 + (quote :: (m.chars ++ [quote])).length,
    fun bound ↦ (hword bound).trans ?_⟩
  rw [importedModule, m.string? hquote (faces_blank hsolid _)]

theorem exists_importStatement_eq (clause : ImportClause) (m : Module) (n : Nat) :
    ∃ n', ∀ inner,
      importStatement inner ⟨' ' :: (clause.chars ++ importTail clause.quote m rest), n⟩ =
        some ([importTree m clause.quote], ⟨rest, n'⟩) := by
  obtain ⟨k, hk⟩ : ∃ k, (' ' :: (clause.chars ++ importTail clause.quote m rest)).length + 1 =
      k + 3 :=
    Nat.exists_eq_add_of_le' (by simp [importTail]; omega)
  obtain ⟨n₁, hclause⟩ := @exists_importedModule_eq ("from".toList ++ ' ' ::
    clause.quote :: (m.chars ++ clause.quote :: ';' :: rest)) clause (k + 2) n
  obtain ⟨n₂, hmodule⟩ := @exists_importedModule_tail rest _ clause.quote_eq m n₁
  refine ⟨n₂ + 1, fun inner ↦ ?_⟩
  have hsome := hclause.trans (hmodule k)
  rw [importStatement, hk]
  simp only [importTail] at hsome ⊢
  rw [hsome]
  simp [moduleTail_semicolon]
  rfl

theorem namedStatement_import {d : Cursor} (hparen : d.mark? "(" = none) (hdot : d.mark? "." = none)
    (inner : Reader) (c : Cursor) : namedStatement inner "import" d c = importStatement inner d := by
  rw [namedStatement, hparen, hdot]
  rfl

/-- **An import statement is read up to its semicolon.** -/
theorem reads_importStatement (clause : ImportClause) (m : Module) (n : Nat) :
    ∃ n', Reads 1 .statement ⟨(Statement.importFrom clause m).chars ++ rest, n⟩
      ([importTree m clause.quote], ⟨rest, n'⟩) := by
  have htext : (Statement.importFrom clause m).chars ++ rest =
      "import".toList ++ ' ' :: (clause.chars ++ importTail clause.quote m rest) := by
    rw [Statement.chars_importFrom]
    simp [importTail]
  have himport : IsWord "import".toList := ⟨by decide, by decide⟩
  have hmark {s : String} (hs : (s.toList.head?.any fun d ↦ !Script.isNameStart d) = true)
      (hs' : s.toList.head?.any (· != '\x7b') = true) :
      (Cursor.mk (' ' :: (clause.chars ++ importTail clause.quote m rest)) (n + 6)).mark? s = none := by
    cases clause with
    | default x => exact x.isWord.mark?_eq_none (faces_blank (x.isWord.solid _) (n + 6)) hs
    | named x => exact (faces_blank (Text.stops_cons (by decide)) (n + 6)).mark?_eq_none hs'
  obtain ⟨n', hstatement⟩ := @exists_importStatement_eq rest clause m (n + 6)
  refine ⟨n', reads_succ fun j _ ↦ ?_⟩
  rw [htext]
  have hends : NameEnds (' ' :: (clause.chars ++ importTail clause.quote m rest)) :=
    nameEnds_of_mark (by decide)
  refine (statement_word (read j) himport (faces_of_solid (himport.solid _) n) hends).trans ?_
  exact (namedStatement_import (hmark (by decide) (by decide)) (hmark (by decide) (by decide)) _
    _).trans (hstatement (read j))

theorem walk_importTree (m : Module) {quote : Char} (hquote : quote = '"' ∨ quote = '\'')
    (o : Outline) : walk [importTree m quote] o = o.addImport m.text := by
  have htake : o.takeIn (importTree m quote) = o.addImport (unquoted (m.quoted quote)) := rfl
  have hsilent : Silent (importTree m quote).children :=
    (silent_leaf (k := .string) rfl _).as .source
  rw [walk_singleton, htake, m.unquoted_quoted hquote, hsilent]

/-! ## Export lists -/

theorem isWord_export : IsWord "export".toList := ⟨by decide, by decide⟩

theorem exportName?_identifier (x : Identifier) (hc : c.Faces (x.chars ++ rest) n)
    (hrest : NameEnds rest) :
    exportName? c = some (Tree.leaf .identifier x.text, ⟨rest, n + x.chars.length⟩) := by
  rw [exportName?, x.isWord.string?_eq_none hc, x.name? hc hrest]
  rfl

/-- The node of an item under its own name. -/
def ownNameTree (x : Identifier) : Tree :=
  Tree.branch .exportSpecifier [(Tree.leaf .identifier x.text).as .name]

/-- The node of an item under a new name. -/
def newNameTree (x y : Identifier) : Tree :=
  Tree.branch .exportSpecifier
    [(Tree.leaf .identifier x.text).as .name, (Tree.leaf .identifier y.text).as .newName]

theorem exists_specifiers_as (x y : Identifier) (n : Nat) :
    ∃ n', ∀ bound, specifiers (bound + 1)
      ⟨' ' :: (x.chars ++ ' ' :: ("as".toList ++ ' ' :: (y.chars ++ ',' :: rest))), n⟩ =
        (specifiers bound ⟨',' :: rest, n'⟩).map fun r ↦ (newNameTree x y :: r.1, r.2) := by
  have hx := faces_blank (x.isWord.solid (' ' :: ("as".toList ++ ' ' :: (y.chars ++ ',' :: rest)))) n
  have has : IsWord "as".toList := ⟨by decide, by decide⟩
  have hword := Cursor.keyword?_eq_some (name?_word has (faces_blank (has.solid
    (' ' :: (y.chars ++ ',' :: rest))) (n + 1 + x.chars.length)).trimmed_eq
      (nameEnds_of_mark (by decide)))
  have hy := exportName?_identifier y (faces_blank (y.isWord.solid (',' :: rest))
    (n + 1 + x.chars.length + 1 + "as".toList.length)) (nameEnds_of_mark (by decide))
  refine ⟨n + 1 + x.chars.length + 1 + "as".toList.length + 1 + y.chars.length, fun bound ↦ ?_⟩
  rw [specifiers, x.isWord.mark?_eq_none hx (by decide), x.isWord.mark?_eq_none hx (by decide),
    exportName?_identifier x hx (nameEnds_of_mark (by decide))]
  simp only [Option.bind_eq_bind, Option.bind_some, hword, hy, Option.pure_def]
  exact Option.map_eq_bind.symm

/-- The last item of an export list. -/
theorem exists_specifiers_last (x : Identifier) (n : Nat) :
    ∃ n', ∀ bound, specifiers (bound + 2) ⟨' ' :: (x.chars ++ ' ' :: '\x7d' :: rest), n⟩ =
      some ([ownNameTree x], ⟨rest, n'⟩) := by
  have hx := faces_blank (x.isWord.solid (' ' :: '\x7d' :: rest)) n
  have hbrace : Cursor.Faces ⟨' ' :: '\x7d' :: rest, n + 1 + x.chars.length⟩
      ("\x7d".toList ++ rest) (n + 1 + x.chars.length + 1) :=
    faces_blank (Text.stops_cons (by decide)) _
  have hclose : (Cursor.mk (' ' :: '\x7d' :: rest) (n + 1 + x.chars.length)).mark? "\x7d" =
      some ⟨rest, n + 1 + x.chars.length + 1 + 1⟩ := hbrace.mark?
  have hname : (Cursor.mk (' ' :: '\x7d' :: rest) (n + 1 + x.chars.length)).name? = none :=
    @Cursor.Faces.name?_eq_none _ rest _ '\x7d' hbrace (by decide)
  have has := Cursor.keyword?_of_name?_eq_none hname "as"
  refine ⟨n + 1 + x.chars.length + 1 + 1, fun bound ↦ ?_⟩
  rw [specifiers, x.isWord.mark?_eq_none hx (by decide), x.isWord.mark?_eq_none hx (by decide),
    exportName?_identifier x hx (nameEnds_of_mark (by decide))]
  simp only [Option.bind_eq_bind, Option.bind_some, has]
  rw [specifiers, hclose]
  rfl

/-- The node of a list of two exports, the first under a new name. -/
def exportListTree (x y z : Identifier) : Tree :=
  Tree.branch .exportStatement [Tree.branch .exportClause [newNameTree x y, ownNameTree z]]

theorem fromModule_semicolon (inner : Reader) (rest : List Char) (n : Nat) :
    fromModule inner ⟨';' :: rest, n⟩ = some ([], ⟨rest, n + 1⟩) := by
  rw [fromModule, Cursor.keyword?_of_name?_eq_none
    ((faces_closing (by decide) rest n).name?_eq_none (by decide)), endStatement_semicolon]

/-- **An export list is read up to its semicolon.** -/
theorem reads_exportList (x y z : Identifier) (n : Nat) :
    ∃ n', Reads 1 .statement ⟨(Statement.exportList x y z).chars ++ rest, n⟩
      ([exportListTree x y z], ⟨rest, n'⟩) := by
  have htext : (Statement.exportList x y z).chars ++ rest =
      "export".toList ++ ' ' :: '\x7b' :: ' ' :: (x.chars ++ ' ' :: ("as".toList ++ ' ' ::
        (y.chars ++ ',' :: ' ' :: (z.chars ++ ' ' :: '\x7d' :: ';' :: rest)))) := by
    rw [Statement.chars_exportList]
    simp
  obtain ⟨k, hk⟩ : ∃ k, (' ' :: (x.chars ++ ' ' :: ("as".toList ++ ' ' ::
      (y.chars ++ ',' :: ' ' :: (z.chars ++ ' ' :: '\x7d' :: ';' :: rest))))).length + 1 =
        k + 4 :=
    Nat.exists_eq_add_of_le' (by simp; omega)
  obtain ⟨n₁, hfirst⟩ := @exists_specifiers_as (' ' :: (z.chars ++ ' ' :: '\x7d' :: ';' :: rest))
    x y (n + 6 + 1 + 1)
  obtain ⟨n₂, hlast⟩ := @exists_specifiers_last (';' :: rest) z (n₁ + 1)
  have hcomma : specifiers (k + 3) ⟨',' :: ' ' :: (z.chars ++ ' ' :: '\x7d' :: ';' :: rest), n₁⟩ =
      some ([ownNameTree z], ⟨';' :: rest, n₂⟩) := by
    have hself : Cursor.Faces ⟨',' :: ' ' :: (z.chars ++ ' ' :: '\x7d' :: ';' :: rest), n₁⟩
        (",".toList ++ ' ' :: (z.chars ++ ' ' :: '\x7d' :: ';' :: rest)) n₁ :=
      faces_closing (by decide) _ n₁
    have hclose := Cursor.Faces.mark?_eq_none (s := "\x7d") (x := ',')
      (faces_closing (by decide) (' ' :: (z.chars ++ ' ' :: '\x7d' :: ';' :: rest)) n₁) (by decide)
    rw [specifiers, hclose, hself.mark?]
    exact hlast k
  have hstar : Cursor.Faces ⟨' ' :: '\x7b' :: ' ' :: (x.chars ++ ' ' :: ("as".toList ++ ' ' ::
        (y.chars ++ ',' :: ' ' :: (z.chars ++ ' ' :: '\x7d' :: ';' :: rest)))), n + 6⟩ _ (n + 6 + 1) :=
    faces_blank (Text.stops_cons (by decide)) _
  refine ⟨n₂ + 1, reads_succ fun j _ ↦ ?_⟩
  rw [htext]
  have hends : NameEnds (' ' :: '\x7b' :: ' ' :: (x.chars ++ ' ' :: ("as".toList ++ ' ' ::
      (y.chars ++ ',' :: ' ' :: (z.chars ++ ' ' :: '\x7d' :: ';' :: rest))))) :=
    nameEnds_of_mark (by decide)
  refine (statement_word (read j) isWord_export (faces_of_solid (isWord_export.solid _) n) hends).trans ?_
  rw [namedStatement]
  change exportStatement (read j) ⟨' ' :: '\x7b' :: ' ' :: (x.chars ++ ' ' :: ("as".toList ++ ' ' ::
    (y.chars ++ ',' :: ' ' :: (z.chars ++ ' ' :: '\x7d' :: ';' :: rest)))), n + 6⟩ = _
  rw [exportStatement, hstar.mark?_eq_none (by decide), mark?_open]
  simp only [hk, hfirst, hcomma]
  simp [fromModule_semicolon]
  rfl

/-- An identifier has no quotation marks to lose. -/
theorem unquoted_identifier (x : Identifier) (r : Role) :
    unquoted ((Tree.leaf .identifier x.text).as r) = x.text := by
  have hchars : ∀ c ∈ x.chars, isQuotationMark c = false :=
    x.forall_mem (P := fun c ↦ isQuotationMark c = false) fun c hc ↦ by
      simp [isQuotationMark, beq_of_isIdentifierChar (by decide : isIdentifierChar '\'' = false) c hc,
        beq_of_isIdentifierChar (by decide : isIdentifierChar '"' = false) c hc,
        beq_of_isIdentifierChar (by decide : isIdentifierChar '\x60' = false) c hc]
  change String.ofList (Text.trimWhile isQuotationMark x.text.toList) = x.text
  rw [x.toList_text, Text.trimWhile_of_forall hchars, Identifier.text]

theorem walk_exportListTree (x y z : Identifier) (o : Outline) :
    walk [exportListTree x y z] o = (o.addExport y.text).addExport z.text := by
  have hexports : exportsOf (exportListTree x y z) = [y.text, z.text] := by
    have hlisted : exportsOf (exportListTree x y z) =
        [unquoted ((Tree.leaf .identifier y.text).as .newName),
          unquoted ((Tree.leaf .identifier z.text).as .name)] := rfl
    rw [hlisted, unquoted_identifier, unquoted_identifier]
  have htake : o.takeIn (exportListTree x y z) =
      (exportsOf (exportListTree x y z)).foldl addExport o := rfl
  have hleaf (x : Identifier) (r : Role) : Silent [(Tree.leaf .identifier x.text).as r] :=
    (silent_leaf rfl x.text).as r
  have hsilent : Silent (exportListTree x y z).children :=
    silent_node (t := Tree.branch .exportClause _) rfl
      ((silent_node (t := newNameTree x y) rfl ((hleaf x .name).cons (hleaf y .newName))).cons
        (silent_node (t := ownNameTree z) rfl (hleaf z .name)))
  rw [walk_singleton, htake, hexports, hsilent]
  rfl

/-! ## Declarations -/

/-- A declaration is read in the same way whether it is exported or not. -/
theorem reads_declaration (exported : Bool) {w : String} (hw : IsWord w.toList)
    (hdefault : w ≠ "default") {bound : Nat} {name : String} {report : Outline → Outline}
    (h : ∀ (c : Cursor) (n : Nat), c.Faces (w.toList ++ ' ' :: cs) n →
      ∃ t n', Reads bound .statement c ([t], ⟨rest, n'⟩) ∧ Declares t name report) (n : Nat) :
    ∃ ts n', Reads (bound + 1) .statement
      ⟨Statement.exportChars exported ++ (w.toList ++ ' ' :: cs), n⟩ (ts, ⟨rest, n'⟩) ∧
        ∀ o, walk ts o = report (if exported then o.addExport name else o) := by
  cases exported with
  | false =>
    obtain ⟨t, n', hreads, ht⟩ := h ⟨w.toList ++ ' ' :: cs, n⟩ n (faces_of_solid (hw.solid _) n)
    exact ⟨[t], n', hreads.mono (Nat.le_succ bound), ht.walk⟩
  | true =>
    have htext : Statement.exportChars true ++ (w.toList ++ ' ' :: cs) =
        "export".toList ++ ' ' :: (w.toList ++ ' ' :: cs) := rfl
    obtain ⟨t, n', hreads, ht⟩ := h ⟨' ' :: (w.toList ++ ' ' :: cs), n + 6⟩ (n + 6 + 1)
      (faces_blank (hw.solid _) (n + 6))
    rw [htext]
    exact ⟨[exportedTree t], n', reads_exported hw hdefault
      (faces_of_solid (isWord_export.solid _) n) hreads, ht.walk_exported⟩

theorem reads_functionStatement (exported : Bool) (f : Identifier) (xs : List Identifier)
    (returns : Bool) (n : Nat) :
    ∃ ts n', Reads (2 * xs.length + 9) .statement
      ⟨(Statement.function exported f xs returns).chars ++ rest, n⟩ (ts, ⟨rest, n'⟩) ∧
        ∀ o, walk ts o = (Statement.function exported f xs returns).contribute o := by
  have htext : (Statement.function exported f xs returns).chars ++ rest =
      Statement.exportChars exported ++ ("function".toList ++ ' ' :: (f.chars ++ '(' ::
        (listChars xs ++ ')' :: (Statement.bodyChars returns ++ rest)))) := by
    rw [Statement.chars_function]
    simp
  obtain ⟨ts, n', hreads, hwalk⟩ := @reads_declaration _ rest exported "function"
    ⟨by decide, by decide⟩ (by decide) _ _ _ (fun c n hc ↦ by
      obtain ⟨ts, body, n', hreads, hts, hbody⟩ := reads_function f xs returns hc
      exact ⟨_, n', hreads, declares_function f xs hts hbody⟩) n
  rw [htext]
  refine ⟨ts, n', hreads, fun o ↦ ?_⟩
  rw [hwalk]
  cases exported <;> rfl

theorem reads_arrowStatement (exported : Bool) (f : Identifier) (xs : ArrowParameters) (e : Sum)
    (n : Nat) :
    ∃ ts n', Reads ((xs.chars ++ e.chars).length + 12) .statement
      ⟨(Statement.arrow exported f xs e).chars ++ rest, n⟩ (ts, ⟨rest, n'⟩) ∧
        ∀ o, walk ts o = (Statement.arrow exported f xs e).contribute o := by
  have htext : (Statement.arrow exported f xs e).chars ++ rest =
      Statement.exportChars exported ++ ("const".toList ++ ' ' :: (f.chars ++ ' ' :: '=' :: ' ' ::
        (xs.chars ++ arrowTail e rest))) := by
    rw [Statement.chars_arrow]
    simp [arrowTail]
  have hsolid : Solid (xs.chars ++ arrowTail e rest) := by
    obtain ⟨x, tail, heq, hsolid, -⟩ := xs.begins_operand e rest 0
    rwa [heq]
  obtain ⟨ts, n', hreads, hwalk⟩ := @reads_declaration _ rest exported "const"
    ⟨by decide, by decide⟩ (by decide) _ _ _ (fun c n hc ↦ by
      obtain ⟨t, n', hvalue, ht⟩ := xs.reads_assignment e
        (faces_blank hsolid (n + 5 + 1 + f.chars.length + 1 + 1))
      exact ⟨_, n' + 1, reads_const f hc hvalue, declares_arrow f xs ht⟩) n
  rw [htext]
  refine ⟨ts, n', hreads, fun o ↦ ?_⟩
  rw [hwalk]
  cases exported <;> rfl

theorem reads_classStatement (x : Identifier) (n : Nat) :
    ∃ ts n', Reads 3 .statement ⟨(Statement.class x).chars ++ rest, n⟩ (ts, ⟨rest, n'⟩) ∧
      ∀ o, walk ts o = (Statement.class x).contribute o := by
  have htext : (Statement.class x).chars ++ rest = Statement.exportChars true ++ ("class".toList ++
      ' ' :: (x.chars ++ ' ' :: '\x7b' :: '\x7d' :: rest)) := by
    rw [Statement.chars_class]
    simp [Statement.exportChars]
  obtain ⟨ts, n', hreads, hwalk⟩ := @reads_declaration _ rest true "class"
    ⟨by decide, by decide⟩ (by decide) _ _ _ (fun c n hc ↦ by
      obtain ⟨n', hreads⟩ := reads_class x hc
      exact ⟨_, n', hreads, declares_class x⟩) n
  rw [htext]
  exact ⟨ts, n', hreads, hwalk⟩

theorem reads_requireStatement (x : Identifier) (m : Module) (n : Nat) :
    ∃ ts n', Reads 11 .statement ⟨(Statement.require x m).chars ++ rest, n⟩ (ts, ⟨rest, n'⟩) ∧
      ∀ o, walk ts o = (Statement.require x m).contribute o := by
  have htext : (Statement.require x m).chars ++ rest = "const".toList ++ ' ' :: (x.chars ++ ' ' ::
      '=' :: ' ' :: (requireName.chars ++ requireTail m rest)) := by
    have hname : requireName.chars = "require".toList := rfl
    rw [Statement.chars_require, hname, requireTail]
    simp
  have hconst : IsWord "const".toList := ⟨by decide, by decide⟩
  obtain ⟨n', hvalue⟩ := reads_assignment_require m (faces_blank (requireName.isWord.solid
    (requireTail m rest)) (n + 5 + 1 + x.chars.length + 1 + 1))
  rw [htext]
  exact ⟨_, n' + 1, reads_const x (faces_of_solid (hconst.solid _) n) hvalue,
    walk_variable_require x m⟩

/-! ## Statements and sources -/

/-- **Every common statement is read, and a walk over it contributes what the statement does.** -/
theorem Statement.reads (s : Statement) (rest : List Char) (n : Nat) :
    ∃ ts n', Reads (s.chars.length + 12) .statement ⟨s.chars ++ rest, n⟩ (ts, ⟨rest, n'⟩) ∧
      ∀ o, walk ts o = s.contribute o := by
  cases s with
  | importFrom clause m =>
    obtain ⟨n', hreads⟩ := @reads_importStatement rest clause m n
    exact ⟨_, n', hreads.mono (by omega), walk_importTree m clause.quote_eq⟩
  | require x m =>
    obtain ⟨ts, n', hreads, hwalk⟩ := @reads_requireStatement rest x m n
    exact ⟨ts, n', hreads.mono (by omega), hwalk⟩
  | function exported f xs returns =>
    obtain ⟨ts, n', hreads, hwalk⟩ := @reads_functionStatement rest exported f xs returns n
    have hlist := length_le_listChars xs
    have hlength : (listChars xs).length ≤ (Statement.function exported f xs returns).chars.length := by
      rw [Statement.chars_function]
      simp
      omega
    exact ⟨ts, n', hreads.mono (by omega), hwalk⟩
  | arrow exported f xs e =>
    obtain ⟨ts, n', hreads, hwalk⟩ := @reads_arrowStatement rest exported f xs e n
    have hlength : (xs.chars ++ e.chars).length ≤ (Statement.arrow exported f xs e).chars.length := by
      rw [Statement.chars_arrow]
      simp
      omega
    exact ⟨ts, n', hreads.mono (by omega), hwalk⟩
  | «class» x =>
    obtain ⟨ts, n', hreads, hwalk⟩ := @reads_classStatement rest x n
    exact ⟨ts, n', hreads.mono (by omega), hwalk⟩
  | exportList x y z =>
    obtain ⟨n', hreads⟩ := @reads_exportList rest x y z n
    exact ⟨_, n', hreads.mono (by omega), walk_exportListTree x y z⟩

theorem Statement.exists_eq_cons (s : Statement) :
    ∃ x cs, s.chars = x :: cs ∧ isIdentifierChar x = true := by
  cases s with
  | importFrom clause m => exact ⟨'i', _, rfl, by decide⟩
  | require x m => exact ⟨'c', _, rfl, by decide⟩
  | function exported f xs returns =>
    cases exported with
    | false => exact ⟨'f', _, rfl, by decide⟩
    | true => exact ⟨'e', _, rfl, by decide⟩
  | arrow exported f xs e =>
    cases exported with
    | false => exact ⟨'c', _, rfl, by decide⟩
    | true => exact ⟨'e', _, rfl, by decide⟩
  | «class» x => exact ⟨'e', _, rfl, by decide⟩
  | exportList x y z => exact ⟨'e', _, rfl, by decide⟩

theorem solid_sourceChars (ss : List Statement) : Solid (sourceChars ss) := by
  cases ss with
  | nil => exact Text.stops_nil
  | cons s ss =>
    obtain ⟨x, cs, heq, hx⟩ := s.exists_eq_cons
    rw [sourceChars, List.flatMap_cons, heq]
    exact Text.stops_cons (forall_isIdentifierChar
      (P := fun c ↦ (Script.isBlank c || c == '/') = false) (by decide +kernel) hx)

/-- **Statements are read one after the other**, each up to the end of its line. -/
theorem reads_sourceChars (ss : List Statement) (hc : c.trimmed = ⟨sourceChars ss, n⟩) :
    ∃ ts n', Reads ((sourceChars ss).length + 13) (.statements false) c (ts, ⟨[], n'⟩) ∧
      ∀ o, walk ts o = ss.foldl (fun o s ↦ s.contribute o) o := by
  induction ss generalizing c n with
  | nil => exact ⟨[], n, (reads_statements_end hc).mono (by omega), silent_nil⟩
  | cons s ss ih =>
    have htext : sourceChars (s :: ss) = s.chars ++ '\n' :: sourceChars ss := by
      simp [sourceChars]
    obtain ⟨ts, n₁, hfirst, hts⟩ := s.reads ('\n' :: sourceChars ss) n
    obtain ⟨us, n₂, hmore, hus⟩ := ih (trimmed_feed (solid_sourceChars ss) n₁)
    obtain ⟨x, cs, heq, hx⟩ := s.exists_eq_cons
    have hlength : (sourceChars (s :: ss)).length + 13 =
        s.chars.length + (sourceChars ss).length + 13 + 1 := by
      rw [htext, List.length_append, List.length_cons]
      omega
    rw [htext, heq] at hc
    rw [heq] at hfirst hlength
    refine ⟨ts ++ us, n₂, ?_, fun o ↦ by rw [walk_append, hts, hus, List.foldl_cons]⟩
    rw [hlength]
    exact reads_statements_cons hx hc (hfirst.mono (by omega)) (hmore.mono (by omega))

/-- A text that begins with neither of the marks before the name of an interpreter is read whole. -/
theorem skipInterpreterLine_eq (h : ∀ x, cs.head? = some x → x ≠ '\uFEFF' ∧ x ≠ '#') :
    skipInterpreterLine ⟨cs, 0⟩ = ⟨cs, 0⟩ := by
  cases cs with
  | nil => rfl
  | cons x cs =>
    obtain ⟨hmark, hne⟩ := h x rfl
    have hskip : (Cursor.mk (x :: cs) 0).skipWhile (· == '\uFEFF') = ⟨x :: cs, 0⟩ := by
      simp [Cursor.skipWhile, Cursor.skip, hmark]
    have hsees : (Cursor.mk (x :: cs) 0).sees "#!" = false :=
      sees_cons_of_ne (by simpa using hne.symm) 0
    rw [skipInterpreterLine, hskip, hsees]
    rfl

/-- The outline of a text by its tree is a walk over its statements. -/
theorem structural?_eq_walk {ts : List Tree} {bound : Nat}
    (hcs : ∀ x, cs.head? = some x → x ≠ '\uFEFF' ∧ x ≠ '#')
    (h : Reads bound (.statements false) ⟨cs, 0⟩ (ts, ⟨[], n⟩)) (hbound : bound ≤ 8 * cs.length + 64) :
    structural? (String.ofList cs) = some (walk ts empty) := by
  have hstart : Cursor.start (String.ofList cs) = ⟨cs, 0⟩ := by
    rw [Cursor.start, String.toList_ofList]
  have hparse : parse? (String.ofList cs) = some (Tree.group ts) := by
    rw [parse?, hstart, skipInterpreterLine_eq hcs, String.length_ofList, h _ hbound]
    rfl
  have htree : ofTree (Tree.group ts) = walk ts empty := walk_singleton (Tree.group ts) empty
  rw [structural?, hparse, Option.map_some, htree]

/-- **The outline of a source by its tree is made of the contributions of its statements**, in their
order. -/
theorem structural?_source (ss : List Statement) :
    structural? (source ss) = some (ss.foldl (fun o s ↦ s.contribute o) empty) := by
  have hhead : ∀ x, (sourceChars ss).head? = some x → x ≠ '\uFEFF' ∧ x ≠ '#' := by
    intro x hx
    cases ss with
    | nil => simp [sourceChars] at hx
    | cons s ss =>
      obtain ⟨y, cs, heq, hy⟩ := s.exists_eq_cons
      obtain rfl : y = x := by simpa [sourceChars, heq] using hx
      exact ⟨ne_of_isIdentifierChar (by decide) y hy, ne_of_isIdentifierChar (by decide) y hy⟩
  obtain ⟨ts, n', hreads, hwalk⟩ := reads_sourceChars ss (trimmed_of_solid (solid_sourceChars ss) 0)
  rw [source, structural?_eq_walk hhead hreads (by omega), hwalk]

end

end Outline

end ChangeContext
