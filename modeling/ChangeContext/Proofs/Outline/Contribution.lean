import ChangeContext.Outline.Structural
import ChangeContext.Proofs.Text.Trim

/-!
# What a node contributes

A node contributes a function if it declares one with its parameters, or if it is a variable whose
name is an identifier and whose value is a function (`IsFunction`).  It contributes an import if it is
an import statement with a source, or a call of `require` with a literal text as first argument
(`Imports`), and exports if it is an export statement (`Exports`).  The walk asks each node for just
these.
-/

set_option autoImplicit false

namespace ChangeContext

namespace Outline

open Script

variable {n value : Tree} {name params module : String}

/-! ## Functions -/

/-- The text of the parameters of a function value.  An arrow function can have a single parameter
in place of a list. -/
inductive HasParameters (value : Tree) : String → Prop
  | list {list : Tree} (h : value.child? .parameters = some list) : HasParameters value list.text
  | single {parameter : Tree} (hlist : value.child? .parameters = none)
      (h : value.child? .parameter = some parameter) : HasParameters value parameter.text
  | none (hlist : value.child? .parameters = none) (h : value.child? .parameter = none) :
      HasParameters value ""

/-- The node is a function of this name with parameters that are written so.  A declaration has a list
of parameters; the value of a variable can do without. -/
inductive IsFunction (n : Tree) : String → String → Prop
  | function {name list : Tree}
      (hkind : n.kind = .functionDeclaration ∨ n.kind = .generatorFunctionDeclaration)
      (hname : n.child? .name = some name) (hlist : n.child? .parameters = some list) :
      IsFunction n name.text list.text
  | held {name value : Tree} {params : String} (hkind : n.kind = .variableDeclarator)
      (hname : n.child? .name = some name) (hidentifier : name.kind = .identifier)
      (hvalue : n.child? .value = some value)
      (hfunction : value.kind = .arrowFunction ∨ value.kind = .functionExpression ∨
        value.kind = .generatorFunction)
      (hparams : HasParameters value params) : IsFunction n name.text params

theorem hasParameters_iff : HasParameters value params ↔
    (((value.child? .parameters).orElse fun _ ↦ value.child? .parameter).map (·.text)).getD "" =
      params := by
  constructor
  · rintro (h | ⟨hlist, h⟩ | ⟨hlist, h⟩) <;> simp [*]
  · rintro rfl
    cases hlist : value.child? .parameters with
    | some list => exact .list hlist
    | none =>
      cases h : value.child? .parameter with
      | some parameter => exact .single hlist h
      | none => exact .none hlist h

theorem isFunctionValue_iff : isFunctionValue value = true ↔
    value.kind = .arrowFunction ∨ value.kind = .functionExpression ∨
      value.kind = .generatorFunction := by
  simp [isFunctionValue]

theorem identifierName?_eq_some_iff : identifierName? n = some name ↔
    ∃ t, n.child? .name = some t ∧ t.kind = .identifier ∧ t.text = name := by
  simp [identifierName?, Option.map_eq_some_iff, Option.filter_eq_some_iff, and_assoc]

theorem declaredFunction?_eq_some_iff : declaredFunction? n = some (name, params) ↔
    ∃ t list, n.child? .name = some t ∧ n.child? .parameters = some list ∧
      t.text = name ∧ list.text = params := by
  simp [declaredFunction?, Option.bind_eq_some_iff]

theorem heldFunction?_eq_some_iff : heldFunction? n = some (name, params) ↔
    ∃ t value, n.child? .name = some t ∧ t.kind = .identifier ∧ n.child? .value = some value ∧
      (value.kind = .arrowFunction ∨ value.kind = .functionExpression ∨
        value.kind = .generatorFunction) ∧ t.text = name ∧ HasParameters value params := by
  simp [heldFunction?, Option.bind_eq_some_iff, identifierName?_eq_some_iff,
    Option.filter_eq_some_iff, isFunctionValue_iff, hasParameters_iff, and_assoc]

/-- **A node contributes the function that it is.** -/
theorem functionOf?_eq_some_iff : functionOf? n = some (name, params) ↔ IsFunction n name params := by
  constructor
  · intro h
    rw [functionOf?] at h
    split at h
    next hkind =>
      obtain ⟨t, list, hname, hlist, rfl, rfl⟩ := declaredFunction?_eq_some_iff.1 h
      exact .function (.inl hkind) hname hlist
    next hkind =>
      obtain ⟨t, list, hname, hlist, rfl, rfl⟩ := declaredFunction?_eq_some_iff.1 h
      exact .function (.inr hkind) hname hlist
    next hkind =>
      obtain ⟨t, value, hname, hidentifier, hvalue, hfunction, rfl, hparams⟩ :=
        heldFunction?_eq_some_iff.1 h
      exact .held hkind hname hidentifier hvalue hfunction hparams
    next => simp at h
  · rintro (⟨hkind | hkind, hname, hlist⟩ | ⟨hkind, hname, hidentifier, hvalue, hfunction, hparams⟩)
    · rw [functionOf?, hkind]
      exact declaredFunction?_eq_some_iff.2 ⟨_, _, hname, hlist, rfl, rfl⟩
    · rw [functionOf?, hkind]
      exact declaredFunction?_eq_some_iff.2 ⟨_, _, hname, hlist, rfl, rfl⟩
    · rw [functionOf?, hkind]
      exact heldFunction?_eq_some_iff.2
        ⟨_, _, hname, hidentifier, hvalue, hfunction, rfl, hparams⟩

/-! ## The text of parameters -/

/-- What is left of a text without blanks around it and one pair of parentheses. -/
inductive Bare (written : String) : String → Prop
  | inside {inside : List Char} (h : Text.trim written.toList = '(' :: (inside ++ [')'])) :
      Bare written (String.ofList (Text.trim inside))
  | whole (h : ∀ inside, Text.trim written.toList ≠ '(' :: (inside ++ [')'])) :
      Bare written (String.ofList (Text.trim written.toList))

theorem insideParens?_eq_some_iff {cs inside : List Char} :
    insideParens? cs = some inside ↔ cs = '(' :: (inside ++ [')']) := by
  constructor
  · intro h
    unfold insideParens? at h
    split at h
    next rest =>
      obtain ⟨hlast, hinside⟩ := Option.ite_none_right_eq_some.1 h
      rw [← Option.some_inj.1 hinside, List.dropLast_append_getLast? _ hlast]
    next => simp at h
  · rintro rfl
    simp [insideParens?]

/-- **Parameters are kept bare.** -/
theorem bare_iff {written : String} :
    Bare written params ↔ String.ofList (stripParens written.toList) = params := by
  have htrim : Text.trim (Text.trim written.toList) = Text.trim written.toList :=
    Text.trimWhile_trimWhile _ _
  rw [stripParens]
  constructor
  · rintro (h | h)
    · simp only [insideParens?_eq_some_iff.2 h, Option.getD_some]
    · have hnone : insideParens? (Text.trim written.toList) = none :=
        Option.eq_none_iff_forall_ne_some.2 fun inside hinside ↦
          h inside (insideParens?_eq_some_iff.1 hinside)
      simp only [hnone, Option.getD_none, htrim]
  · rintro rfl
    cases hinside : insideParens? (Text.trim written.toList) with
    | some inside => exact .inside (insideParens?_eq_some_iff.1 hinside)
    | none =>
      simp only [Option.getD_none, htrim]
      refine .whole fun inside h ↦ ?_
      rw [insideParens?_eq_some_iff.2 h] at hinside
      exact Option.some_ne_none _ hinside

/-! ## Imports -/

/-- The node imports this module. -/
inductive Imports (n : Tree) : String → Prop
  | statement {source : Tree} (hkind : n.kind = .importStatement)
      (hsource : n.child? .source = some source) : Imports n (unquoted source)
  | call {callee arguments first : Tree} (hkind : n.kind = .callExpression)
      (hcallee : n.child? .callee = some callee) (hidentifier : callee.kind = .identifier)
      (hrequire : callee.text = "require") (harguments : n.child? .arguments = some arguments)
      (hfirst : arguments.children.head? = some first) (hstring : first.kind = .string) :
      Imports n (unquoted first)

theorem requiredModule?_eq_some_iff : requiredModule? n = some module ↔
    ∃ callee arguments first, n.child? .callee = some callee ∧ callee.kind = .identifier ∧
      callee.text = "require" ∧ n.child? .arguments = some arguments ∧
        arguments.children.head? = some first ∧ first.kind = .string ∧ unquoted first = module := by
  simp [requiredModule?, Option.bind_eq_some_iff, and_assoc]

/-- **A node contributes the module that it imports.** -/
theorem importOf?_eq_some_iff : importOf? n = some module ↔ Imports n module := by
  constructor
  · intro h
    rw [importOf?] at h
    split at h
    next hkind =>
      obtain ⟨source, hsource, rfl⟩ := Option.map_eq_some_iff.1 h
      exact .statement hkind hsource
    next hkind =>
      obtain ⟨callee, arguments, first, hcallee, hidentifier, hrequire, harguments, hfirst, hstring,
        rfl⟩ := requiredModule?_eq_some_iff.1 h
      exact .call hkind hcallee hidentifier hrequire harguments hfirst hstring
    next => simp at h
  · rintro (⟨hkind, hsource⟩ |
      ⟨hkind, hcallee, hidentifier, hrequire, harguments, hfirst, hstring⟩)
    · rw [importOf?, hkind]
      exact Option.map_eq_some_iff.2 ⟨_, hsource, rfl⟩
    · rw [importOf?, hkind]
      exact requiredModule?_eq_some_iff.2
        ⟨_, _, _, hcallee, hidentifier, hrequire, harguments, hfirst, hstring, rfl⟩

/-! ## Exports -/

/-- The node exports this name: of a variable that is declared where it is exported, or of another
such declaration, or without a name of its own, or as an item of a list.  An item is exported under
the name that it gets or else under its own. -/
inductive Exports (n : Tree) : String → Prop
  | declarator {declaration declarator name : Tree} (hkind : n.kind = .exportStatement)
      (hdeclaration : n.child? .declaration = some declaration)
      (hvariables : declaration.kind = .lexicalDeclaration ∨
        declaration.kind = .variableDeclaration)
      (hdeclarator : declarator ∈ declaration.children)
      (hname : declarator.child? .name = some name) (hidentifier : name.kind = .identifier) :
      Exports n name.text
  | declaration {declaration name : Tree} (hkind : n.kind = .exportStatement)
      (hdeclaration : n.child? .declaration = some declaration)
      (hlexical : declaration.kind ≠ .lexicalDeclaration)
      (hvariable : declaration.kind ≠ .variableDeclaration)
      (hname : declaration.child? .name = some name) : Exports n name.text
  | value {value : Tree} (hkind : n.kind = .exportStatement)
      (hdeclaration : n.child? .declaration = none) (hvalue : n.child? .value = some value) :
      Exports n "default"
  | item {clause item exported : Tree} (hkind : n.kind = .exportStatement)
      (hdeclaration : n.child? .declaration = none) (hvalue : n.child? .value = none)
      (hclause : clause ∈ n.children) (hlist : clause.kind = .exportClause)
      (hitem : item ∈ clause.children)
      (hexported : (item.child? .newName).or (item.child? .name) = some exported) :
      Exports n (unquoted exported)

theorem mem_listedNames_iff : name ∈ listedNames n ↔
    ∃ item exported, item ∈ n.children ∧
      (item.child? .newName).or (item.child? .name) = some exported ∧ unquoted exported = name := by
  simp [listedNames, List.mem_filterMap, Option.map_eq_some_iff]

theorem mem_declaredNames_iff : name ∈ declaredNames n ↔
    ((n.kind = .lexicalDeclaration ∨ n.kind = .variableDeclaration) ∧
      ∃ declarator ∈ n.children, identifierName? declarator = some name) ∨
    (n.kind ≠ .lexicalDeclaration ∧ n.kind ≠ .variableDeclaration ∧
      ∃ t, n.child? .name = some t ∧ t.text = name) := by
  rw [declaredNames]
  split <;> simp_all

/-- **A node contributes the names that it exports.** -/
theorem mem_exportsOf_iff : name ∈ exportsOf n ↔ Exports n name := by
  constructor
  · intro h
    rw [exportsOf] at h
    split at h
    next hkind =>
      rw [exportedNames] at h
      split at h
      next declaration hdeclaration =>
        rcases mem_declaredNames_iff.1 h with
          ⟨hvariables, declarator, hdeclarator, hdeclared⟩ | ⟨hlexical, hvariable, t, hname, rfl⟩
        · obtain ⟨t, hname, hidentifier, rfl⟩ := identifierName?_eq_some_iff.1 hdeclared
          exact .declarator hkind hdeclaration hvariables hdeclarator hname hidentifier
        · exact .declaration hkind hdeclaration hlexical hvariable hname
      next hdeclaration =>
        split at h
        next hvalue =>
          obtain ⟨value, hvalue⟩ := Option.isSome_iff_exists.1 hvalue
          exact List.mem_singleton.1 h ▸ .value hkind hdeclaration hvalue
        next hvalue =>
          obtain ⟨clause, hmem, hlisted⟩ := List.mem_flatMap.1 h
          obtain ⟨hclause, hlist⟩ := List.mem_filter.1 hmem
          obtain ⟨item, exported, hitem, hexported, rfl⟩ := mem_listedNames_iff.1 hlisted
          exact .item hkind hdeclaration (Option.not_isSome_iff_eq_none.1 hvalue) hclause
            (beq_iff_eq.1 hlist) hitem hexported
    next => simp at h
  · intro h
    cases h with
    | declarator hkind hdeclaration hvariables hdeclarator hname hidentifier =>
      rw [exportsOf, hkind]
      simp only [exportedNames, hdeclaration]
      exact mem_declaredNames_iff.2 (.inl ⟨hvariables, _, hdeclarator,
        identifierName?_eq_some_iff.2 ⟨_, hname, hidentifier, rfl⟩⟩)
    | declaration hkind hdeclaration hlexical hvariable hname =>
      rw [exportsOf, hkind]
      simp only [exportedNames, hdeclaration]
      exact mem_declaredNames_iff.2 (.inr ⟨hlexical, hvariable, _, hname, rfl⟩)
    | value hkind hdeclaration hvalue =>
      rw [exportsOf, hkind]
      simp [exportedNames, hdeclaration, hvalue]
    | item hkind hdeclaration hvalue hclause hlist hitem hexported =>
      rw [exportsOf, hkind]
      simp only [exportedNames, hdeclaration, hvalue]
      exact List.mem_flatMap.2 ⟨_, List.mem_filter.2 ⟨hclause, beq_iff_eq.2 hlist⟩,
        mem_listedNames_iff.2 ⟨_, _, hitem, hexported, rfl⟩⟩

end Outline

end ChangeContext
