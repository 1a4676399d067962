import ChangeContext.Proofs.Outline.Description
import ChangeContext.Proofs.Outline.ExportDeclarations
import ChangeContext.Proofs.Outline.ExportItems

/-!
# Export lists in any layout

A source that is one export list, with blanks of any kind between its words and marks, exports a name
for each of its items.  What is looked for in the text is what stands between the braces, cut at the
commas, so there is also a name found for each of them (`listedExports_inside`), and nothing else in
the source is taken for an export (`findAll_eq_nil`).  So the names that are found are those that are
exported just if every item is legible (`exports_heuristic_itemList`).
-/

set_option autoImplicit false

namespace ChangeContext

namespace Outline

open Rules Pattern

/-- A source that is one export list, in any layout. -/
structure ItemList where
  front : Blanks
  /-- The blanks between the word for exports and the brace. -/
  gap : Blanks
  items : List ExportItem
  ne_nil : items ≠ []
  /-- The blanks behind a comma after the last item, if there is one. -/
  trailing : Option Blanks
  ending : Ending

namespace ItemList

/-- What stands between the commas. -/
def pieces (l : ItemList) : List (List Char) :=
  l.items.map ExportItem.chars ++ l.trailing.toList.map Blanks.chars

/-- What stands between the braces. -/
def inside (l : ItemList) : List Char :=
  [','].intercalate l.pieces

/-- How the list is written. -/
def chars (l : ItemList) : List Char :=
  l.front.chars ++ ("export".toList ++ (l.gap.chars ++
    '\x7b' :: (l.inside ++ '\x7d' :: l.ending.chars)))

/-- The list as the text of a source. -/
def source (l : ItemList) : String :=
  String.ofList l.chars

/-! ## The names in the list -/

section Names

variable (l : ItemList)

theorem pieces_ne_nil : l.pieces ≠ [] := by
  simp [pieces, l.ne_nil]

theorem forall_mem_pieces : ∀ piece ∈ l.pieces, ∀ c ∈ piece, isNameOrBlank c = true := by
  simp only [pieces, List.forall_mem_append, List.forall_mem_map]
  exact ⟨fun i _ ↦ i.forall_mem_chars, fun b _ ↦ isNameOrBlank_of_forall_isBlank b.all⟩

theorem forall_mem_inside {P : Char → Prop} (hcomma : P ',')
    (hname : ∀ c, isNameOrBlank c = true → P c) : ∀ c ∈ l.inside, P c := by
  have hpieces : ∀ piece ∈ l.pieces, ∀ c ∈ piece, P c :=
    fun piece hpiece c hc ↦ hname c (l.forall_mem_pieces piece hpiece c hc)
  rw [inside]
  generalize l.pieces = pieces at hpieces
  induction pieces with
  | nil => exact List.forall_mem_nil _
  | cons piece pieces ih =>
    obtain ⟨hfirst, hmore⟩ := List.forall_mem_cons.1 hpieces
    cases pieces with
    | nil =>
      rw [List.intercalate_singleton]
      exact hfirst
    | cons next more =>
      rw [List.intercalate_cons_cons]
      exact List.forall_mem_append.2 ⟨List.forall_mem_append.2 ⟨hfirst, by simpa using hcomma⟩,
        ih hmore⟩

/-- **The names that are found are those of the items.** -/
theorem listedExports_inside :
    listedExports l.inside = l.items.map fun i ↦ String.ofList i.found := by
  have hcomma : ∀ piece ∈ l.pieces, ',' ∉ piece := by
    intro piece hpiece hmem
    have hc := l.forall_mem_pieces piece hpiece ',' hmem
    rw [isNameOrBlank_of_mark (by decide)] at hc
    exact Bool.false_ne_true hc
  have hnames : l.pieces.map exportedAs =
      l.items.map ExportItem.found ++ l.trailing.toList.map fun _ ↦ [] := by
    simp [pieces, Function.comp_def, ExportItem.exportedAs_chars,
      fun b : Blanks ↦ exportedAs_blanks b.all]
  rw [listedExports, inside, List.splitOn_intercalate ',' hcomma l.pieces_ne_nil, hnames]
  simp [ExportItem.found_ne_nil]

end Names

/-! ## Searching the list -/

section Skips

variable {p : Pattern} (h : OpensExport p exportWords)

include h

variable {c : Char} (hc : c ∈ textMarks) (rest : List Char)

include hc

/-- An item is skipped from its name on. -/
theorem skips_named (i : ExportItem) : p.Skips i.named (i.back.chars ++ c :: rest) := by
  rw [ExportItem.named, ExportItem.tail]
  cases i.newName with
  | none =>
    rw [Option.map_none, Option.getD_none, List.append_nil]
    exact h.skips_before_mark (i.name.isWord.forall_mem isBlank_of_isIdentifierChar) i.back.all hc rest
  | some r =>
    have hname : p.Skips i.name.chars (r.chars ++ (i.back.chars ++ c :: rest)) := by
      rw [NewName.chars, List.append_assoc]
      refine h.skips_name (i.name.isWord.forall_mem isBlank_of_isIdentifierChar)
        (r.before.stops _) fun _ ↦ ?_
      rw [NewName.core, List.append_assoc]
      exact not_offers_word r.before.all isWord_of_mem_exportWords (by decide)
        (by rw [List.append_assoc]; exact r.behind.stops _) (by decide +kernel)
    refine .append hname (.append (h.skips_blanks r.before.all _) (.append
      (h.opens.skips (by decide)) (.append (h.skips_blanks r.behind.all _) ?_)))
    exact h.skips_before_mark (r.name.isWord.forall_mem isBlank_of_isIdentifierChar) i.back.all hc rest

/-- An item is skipped. -/
theorem skips_item (i : ExportItem) : p.Skips i.chars (c :: rest) := by
  have hcore : p.Skips i.core (i.back.chars ++ c :: rest) := by
    refine .append ?_ (skips_named h hc rest i)
    cases i.marker with
    | none => exact fun _ ↦ rfl
    | some g =>
      exact .append (h.skips_other (by decide) (g.stops _)) (h.skips_blanks g.all _)
  exact .append (h.skips_blanks i.front.all _) (.append hcore (h.skips_blanks i.back.all _))

end Skips

section Search

variable {p : Pattern} (h : OpensExport p exportWords) (l : ItemList)

include h

theorem skips_inside (rest : List Char) : p.Skips l.inside ('\x7d' :: rest) := by
  have hpiece : ∀ piece ∈ l.pieces, ∀ c ∈ textMarks, ∀ rest, p.Skips piece (c :: rest) := by
    simp only [pieces, List.forall_mem_append, List.forall_mem_map]
    exact ⟨fun i _ c hc rest ↦ skips_item h hc rest i, fun b _ c _ rest ↦ h.skips_blanks b.all _⟩
  rw [inside]
  generalize l.pieces = pieces at hpiece
  induction pieces with
  | nil => exact fun _ ↦ rfl
  | cons piece pieces ih =>
    obtain ⟨hfirst, hmore⟩ := List.forall_mem_cons.1 hpiece
    cases pieces with
    | nil =>
      rw [List.intercalate_singleton]
      exact hfirst _ (by decide) _
    | cons next more =>
      rw [List.intercalate_cons_cons, List.append_assoc]
      exact .append (hfirst ',' (by decide) _) (.append (h.opens.skips (by decide)) (ih hmore))

/-- Nothing but the list is found where it stands. -/
theorem findAll_eq_nil : p.findAll l.chars = [] := by
  have hexport (rest : List Char) :
      p.Skips "export".toList (l.gap.chars ++ '\x7b' :: rest) :=
    h.skips_before_mark (isBlank_of_word (by decide)) l.gap.all (by decide) rest
  have hending : p.Skips ('\x7d' :: l.ending.chars) [] :=
    h.opens.skips (List.forall_mem_cons.2
      ⟨by decide, fun c hc ↦ beq_eq_false_iff_ne.2 (l.ending.ne (by decide) (by decide) c hc)⟩)
  have hbraces : p.Skips (['\x7b'] ++ (l.inside ++ '\x7d' :: l.ending.chars)) [] :=
    .append (h.opens.skips (by decide)) (.append (skips_inside h l _) hending)
  have hskips : p.Skips l.chars [] := by
    refine .append (h.skips_blanks l.front.all _) (.append ?_
      (.append (h.skips_blanks l.gap.all _) hbraces))
    rw [List.append_nil]
    exact hexport _
  exact h.opens.findAll_eq_nil hskips

end Search

theorem flatMap_findAll_exportList (l : ItemList) :
    (exportList.findAll l.chars).flatMap listedOf = l.items.map fun i ↦ String.ofList i.found := by
  have hopens {cs rest : List Char} (hcs : ∀ c ∈ cs, c ≠ 'e') : exportList.Skips cs rest :=
    opens_exportList.skips fun c hc ↦ beq_eq_false_iff_ne.2 (hcs c hc)
  have hclose : ∀ c ∈ l.inside, c ≠ '\x7d' := by
    refine l.forall_mem_inside (by decide) fun c hc ↦ ?_
    rintro rfl
    rw [isNameOrBlank_of_mark (by decide)] at hc
    exact Bool.false_ne_true hc
  obtain ⟨m, hm, hscan⟩ :=
    scan_exportList (l.ending.chars ++ []) l.front.not_word l.gap.all hclose rfl
  have hlist : Reports exportList listedOf _ _ _ _ := reports_of_scan_eq_cons hscan
  have htext : l.chars = l.front.chars ++ ("export".toList ++ (l.gap.chars ++
      '\x7b' :: (l.inside ++ ['\x7d'])) ++ l.ending.chars) := by
    simp [chars]
  have hreports : Reports exportList listedOf [] l.chars [] (listedOf m) := by
    rw [htext]
    exact (hlist.append_skips (hopens (l.ending.ne (by decide) (by decide)))).skips_append
      (hopens (l.front.ne (by decide)))
  rw [hreports.flatMap_findAll opens_exportList, hm, l.listedExports_inside]

/-- **The names that are found in an export list.** -/
theorem exports_heuristic (l : ItemList) :
    (heuristic l.source "typescript").exports =
      NameSet.ofNames (l.items.map fun i ↦ String.ofList i.found) := by
  have htext : l.source.toList = l.chars := String.toList_ofList
  have hrules : ofLanguage "typescript" = script := rfl
  have hdeclarations : exportDeclaration.findAll l.chars = [] :=
    findAll_eq_nil opensExport_exportDeclaration l
  have hdefaults : defaultExportWords.findAll l.chars = [] :=
    findAll_eq_nil (opensExport_defaultExportWords.mono (by decide)) l
  rw [heuristic, hrules, outline_script, described, htext, exportsBy, hdeclarations,
    flatMap_findAll_exportList, hasAnonymousDefault, hdefaults]
  simp

/-- **What the patterns find in an export list, and when it is what the list exports**: when all of
its items are legible. -/
theorem exports_heuristic_itemList (l : ItemList) :
    (heuristic l.source "typescript").exports =
        NameSet.ofNames (l.items.map fun i ↦ String.ofList i.found) ∧
      ((heuristic l.source "typescript").exports =
          NameSet.ofNames (l.items.map fun i ↦ String.ofList i.exported) ↔
        ∀ i ∈ l.items, i.legible = true) := by
  refine ⟨l.exports_heuristic, ?_⟩
  rw [l.exports_heuristic, NameSet.ofNames_eq_iff]
  constructor
  · intro h i hi
    have hmem := (h _).1 (List.mem_map_of_mem hi)
    obtain ⟨j, -, hj⟩ := List.mem_map.1 hmem
    by_contra hlegible
    obtain ⟨c, hc, hblank⟩ := i.exists_isBlank_of_mem_left (Bool.eq_false_iff.2 hlegible)
    have hleft : j.exported = i.left :=
      (String.ofList_injective hj).trans (if_neg hlegible)
    rw [j.isBlank_of_mem_exported c (hleft ▸ hc)] at hblank
    exact Bool.false_ne_true hblank
  · intro h name
    have hfound : ∀ i ∈ l.items, i.found = i.exported :=
      fun i hi ↦ i.found_eq_exported_iff.2 (h i hi)
    rw [List.map_congr_left fun i hi ↦ congrArg String.ofList (hfound i hi)]

/-- A name called `type` is exported under another, and so is one with a tab before the new name. -/
def illegibleList : ItemList where
  front := .none
  gap := Gap.single.toBlanks
  items :=
    [{ front := Gap.single.toBlanks
       marker := none
       name := { chars := ['t', 'y', 'p', 'e'] }
       newName := some { before := .single, behind := .single, name := { chars := ['B'] } }
       back := .none },
     { front := Gap.single.toBlanks
       marker := none
       name := { chars := ['a'] }
       newName := some
        { before := { chars := "\n  ".toList }, behind := { chars := ['\t'] },
          name := { chars := ['C'] } }
       back := Gap.single.toBlanks }]
  ne_nil := List.cons_ne_nil _ _
  trailing := none
  ending := .semicolon .none .feed

/-- Neither of the names of the list is found. -/
theorem exports_illegibleList :
    illegibleList.source = "export \x7b type as B, a\n  as\tC \x7d;\n" ∧
      (illegibleList.items.map fun i ↦ String.ofList i.exported) = ["B", "C"] ∧
      (heuristic illegibleList.source "typescript").exports.keys = ["a\n  as\tC", "as B"] := by
  refine ⟨by decide, by decide, ?_⟩
  rw [exports_heuristic]
  decide

end ItemList

end Outline

end ChangeContext
