import ChangeContext.Proofs.Toml.Value
import Mathlib.Data.List.Nodup

/-!
# Reading written documents

A written document is made of lines: headers, keys with their values, and blank lines (`Line`).  A
line is read as itself whatever follows it (`readLine_chars`), so reading a document comes down to
what its lines do to the tables one after the other (`readDocument_chars`).  Blank lines do nothing;
a header opens a table, and the keys behind it fill that table.  Where no two tables have one name,
and no two keys of one table, the document is read as the tables that it lists
(`read?_of_lists`), blank lines or not.
-/

set_option autoImplicit false

namespace ChangeContext

namespace Toml

/-! ## Lines -/

/-- A line of a document.  A value may take up several lines of the text. -/
inductive Line where
  | blank
  | header (name : String)
  | pair (key : String) (value : Field)

namespace Line

/-- The text of a line. -/
def chars : Line → List Char
  | blank => ['\n']
  | header name => '[' :: name.toList ++ [']', '\n']
  | pair key value => key.toList ++ " = ".toList ++ value.chars ++ ['\n']

def isBlank : Line → Bool
  | blank => true
  | _ => false

end Line

/-- A name that needs no marks. -/
structure IsBare (name : String) : Prop where
  ne_empty : name ≠ ""
  forall_mem : ∀ c ∈ name.toList, isBareKeyChar c = true

instance (name : String) : Decidable (IsBare name) :=
  decidable_of_iff (name ≠ "" ∧ name.toList.all isBareKeyChar = true)
    ⟨fun h ↦ ⟨h.1, List.all_eq_true.1 h.2⟩, fun h ↦ ⟨h.ne_empty, List.all_eq_true.2 h.forall_mem⟩⟩

namespace Line

/-- The line can be written. -/
def Writable : Line → Prop
  | blank => True
  | header name => IsBare name
  | pair key value => IsBare key ∧ value.writable = true

/-- What a line does to a document. -/
def step? (s : State) : Line → Option State
  | blank => some s
  | header name => (s.entries.define? name).map fun es ↦ ⟨es, [name]⟩
  | pair key value =>
    (s.entries.under? (Entries.assign? key value.value []) s.header).map fun es ↦
      { s with entries := es }

end Line

section Lines

variable {s : State} {bound : Nat} {rest : List Char} {name : String} {line : Line}

/-! ## Keys -/

theorem IsBare.exists_eq_cons (h : IsBare name) :
    ∃ c cs, name.toList = c :: cs ∧ isBareKeyChar c = true := by
  cases hcs : name.toList with
  | nil => exact absurd (String.toList_eq_nil_iff.1 hcs) h.ne_empty
  | cons c cs => exact ⟨c, cs, rfl, h.forall_mem c (hcs ▸ List.mem_cons_self)⟩

theorem ne_of_isBareKeyChar {c d : Char} (hc : isBareKeyChar c = true)
    (hd : isBareKeyChar d = false) : c ≠ d := by
  rintro rfl
  rw [hc] at hd
  exact Bool.noConfusion hd

theorem isBlank_of_isBareKeyChar {c : Char} (h : isBareKeyChar c = true) : isBlank c = false := by
  rw [isBlank, Bool.or_eq_false_iff, beq_eq_false_iff_ne, beq_eq_false_iff_ne]
  exact ⟨ne_of_isBareKeyChar h (by decide), ne_of_isBareKeyChar h (by decide)⟩

/-- A name without marks, and what stands behind it. -/
theorem readKeyPart_bare (h : IsBare name) (hrest : Text.Stops isBareKeyChar rest) :
    readKeyPart bound (name.toList ++ rest) = some (name, rest) := by
  obtain ⟨c, cs, hcs, hc⟩ := h.exists_eq_cons
  have htake : (name.toList ++ rest).takeWhile isBareKeyChar = name.toList :=
    Text.takeWhile_append_of_stops h.forall_mem hrest
  have hne : name.toList.isEmpty = false := by rw [hcs]; rfl
  have hread : readKeyPart bound (name.toList ++ rest) =
      if ((name.toList ++ rest).takeWhile isBareKeyChar).isEmpty then none
      else some (String.ofList ((name.toList ++ rest).takeWhile isBareKeyChar),
        (name.toList ++ rest).drop ((name.toList ++ rest).takeWhile isBareKeyChar).length) := by
    rw [hcs, List.cons_append, readKeyPart]
    · exact fun _ heq ↦ ne_of_isBareKeyChar hc (by decide) (List.cons.inj heq).1
    · exact fun _ heq ↦ ne_of_isBareKeyChar hc (by decide) (List.cons.inj heq).1
  rw [hread, htake, hne, List.drop_left, String.ofList_toList]
  rfl

/-- **A key without marks and dots is read as such**, with the blanks behind it. -/
theorem readKey_bare (h : IsBare name) (hbound : 0 < bound)
    (hrest : Text.Stops isBareKeyChar rest) {c : Char} {more : List Char}
    (hmore : skipBlanks rest = c :: more) (hdot : c ≠ '.') :
    readKey bound (name.toList ++ rest) = some (([], name), c :: more) := by
  obtain ⟨bound, rfl⟩ := Nat.exists_eq_succ_of_ne_zero (Nat.ne_of_gt hbound)
  have hskip : skipBlanks (name.toList ++ rest) = name.toList ++ rest := by
    obtain ⟨d, ds, hds, hd⟩ := h.exists_eq_cons
    rw [hds]
    exact skipBlanks_cons (isBlank_of_isBareKeyChar hd)
  have hparts : readKeyParts (bound + 1) (name.toList ++ rest) = some ([name], c :: more) := by
    rw [readKeyParts, hskip, readKeyPart_bare h hrest, Option.bind_eq_bind, Option.bind_some]
    simp only [hmore]
    split
    next heq => exact absurd (List.cons.inj heq).1 hdot
    next => rfl
  rw [readKey, hparts]
  rfl

/-! ## One line -/

theorem readHeader_bare (h : IsBare name) (s : State) (rest : List Char) :
    readHeader "]" Entries.define? s (name.toList ++ ']' :: '\n' :: rest) =
      ((Line.header name).step? s).map fun s ↦ (s, rest) := by
  have hkey : readKey (name.toList ++ ']' :: '\n' :: rest).length
      (name.toList ++ ']' :: '\n' :: rest) = some (([], name), ']' :: '\n' :: rest) := by
    refine readKey_bare h ?_ (Text.stops_cons (by decide)) rfl (by decide)
    rw [List.length_append, List.length_cons]
    omega
  have hclose : "]".toList.isPrefixOf? (']' :: '\n' :: rest) = some ('\n' :: rest) := rfl
  have hend : restOfLine? ('\n' :: rest) = some rest := rfl
  simp only [readHeader, hkey, hclose, Entries.under?, Line.step?, Option.bind_eq_bind,
    Option.bind_some]
  cases s.entries.define? name with
  | none => rfl
  | some es => simp [hend]

theorem readPair_bare (h : IsBare name) {value : Field} (hvalue : value.writable = true)
    (s : State) (rest : List Char) :
    readPair s (name.toList ++ ' ' :: '=' :: ' ' :: (value.chars ++ '\n' :: rest)) =
      ((Line.pair name value).step? s).map fun s ↦ (s, rest) := by
  have hkey : readKey (name.toList ++ ' ' :: '=' :: ' ' :: (value.chars ++ '\n' :: rest)).length
      (name.toList ++ ' ' :: '=' :: ' ' :: (value.chars ++ '\n' :: rest)) =
      some (([], name), '=' :: ' ' :: (value.chars ++ '\n' :: rest)) := by
    refine readKey_bare h ?_ (Text.stops_cons (by decide)) rfl (by decide)
    rw [List.length_append, List.length_cons]
    omega
  have hmark : readMark '=' ('=' :: ' ' :: (value.chars ++ '\n' :: rest)) =
      some (' ' :: (value.chars ++ '\n' :: rest)) := rfl
  have hskip : skipBlanks (' ' :: (value.chars ++ '\n' :: rest)) = value.chars ++ '\n' :: rest := by
    rw [skipBlanks, List.dropWhile_cons_of_pos (by decide)]
    exact skipBlanks_chars value _
  have hread : readValue ((' ' :: (value.chars ++ '\n' :: rest)).length + 1) (nestingLimit - 1)
      (value.chars ++ '\n' :: rest) = some (value.value, '\n' :: rest) := by
    refine readValue_chars value hvalue ?_ (by decide)
    rw [List.length_cons, List.length_append]
    omega
  have hend : restOfLine? ('\n' :: rest) = some rest := rfl
  simp only [readPair, hkey, hmark, hskip, hread, Line.step?, Option.bind_eq_bind,
    Option.bind_some]
  cases s.entries.under? (Entries.assign? name value.value []) s.header with
  | none => rfl
  | some es => simp [hend]

/-- **A line is read as itself, whatever follows it.** -/
theorem readLine_chars (h : line.Writable) (s : State) (rest : List Char) :
    readLine s (line.chars ++ rest) = (line.step? s).map fun s ↦ (s, rest) := by
  cases line with
  | blank => rfl
  | header name =>
    obtain ⟨c, cs, hcs, hc⟩ := h.exists_eq_cons
    have hchars : (Line.header name).chars ++ rest =
        '[' :: (name.toList ++ ']' :: '\n' :: rest) := by simp [Line.chars]
    rw [hchars, ← readHeader_bare h, hcs, List.cons_append, readLine]
    exact fun _ heq ↦ ne_of_isBareKeyChar hc (by decide) (List.cons.inj heq).1
  | pair key value =>
    obtain ⟨c, cs, hcs, hc⟩ := h.1.exists_eq_cons
    have hchars : (Line.pair key value).chars ++ rest =
        key.toList ++ ' ' :: '=' :: ' ' :: (value.chars ++ '\n' :: rest) := by simp [Line.chars]
    have hne {d : Char} (hd : isBareKeyChar d = false) (more : List Char) :
        c :: (cs ++ ' ' :: '=' :: ' ' :: (value.chars ++ '\n' :: rest)) ≠ d :: more :=
      fun heq ↦ ne_of_isBareKeyChar hc hd (List.cons.inj heq).1
    rw [hchars, ← readPair_bare h.1 h.2, hcs, List.cons_append, readLine]
    · exact hne (by decide)
    · exact hne (by decide)
    · exact hne (by decide)
    · exact fun more ↦ hne (by decide) ('[' :: more)
    · exact hne (by decide)

/-- A line does not begin with a blank. -/
theorem exists_chars_eq_cons (h : line.Writable) :
    ∃ c cs, line.chars = c :: cs ∧ isBlank c = false ∧ c ≠ '\uFEFF' := by
  cases line with
  | blank => exact ⟨'\n', [], rfl, by decide, by decide⟩
  | header name => exact ⟨'[', _, rfl, by decide, by decide⟩
  | pair key value =>
    obtain ⟨c, cs, hcs, hc⟩ := h.1.exists_eq_cons
    refine ⟨c, cs ++ " = ".toList ++ value.chars ++ ['\n'], ?_, isBlank_of_isBareKeyChar hc, ?_⟩
    · rw [Line.chars, hcs]
      rfl
    · exact ne_of_isBareKeyChar hc (by decide)

/-! ## All lines -/

/-- **Reading a document comes down to what its lines do.** -/
theorem readDocument_chars {lines : List Line} (h : ∀ line ∈ lines, line.Writable)
    (hbound : (lines.flatMap Line.chars).length < bound) :
    readDocument bound s (lines.flatMap Line.chars) =
      (lines.foldlM Line.step? s).map State.entries := by
  induction lines generalizing bound s with
  | nil =>
    obtain ⟨bound, rfl⟩ := Nat.exists_eq_succ_of_ne_zero (Nat.ne_zero_of_lt hbound)
    rfl
  | cons line lines ih =>
    obtain ⟨bound, rfl⟩ := Nat.exists_eq_succ_of_ne_zero (Nat.ne_zero_of_lt hbound)
    obtain ⟨hline, hlines⟩ := List.forall_mem_cons.1 h
    obtain ⟨c, cs, hcs, hblank, -⟩ := exists_chars_eq_cons hline
    have hread := readLine_chars hline s (lines.flatMap Line.chars)
    rw [List.flatMap_cons, List.length_append, hcs, List.length_cons] at hbound
    rw [hcs, List.cons_append] at hread
    rw [List.flatMap_cons, hcs, List.cons_append, readDocument, skipBlanks_cons hblank]
    dsimp only
    rw [hread, List.foldlM_cons]
    cases line.step? s with
    | none => rfl
    | some s => exact ih hlines (by omega)

/-- Blank lines do nothing. -/
theorem foldlM_filter_isBlank (lines : List Line) (s : State) :
    (lines.filter fun line ↦ !line.isBlank).foldlM Line.step? s =
      lines.foldlM Line.step? s := by
  induction lines generalizing s with
  | nil => rfl
  | cons line lines ih =>
    cases line with
    | blank => exact ih s
    | header name => exact congrArg (Option.bind _) (funext ih)
    | pair key value => exact congrArg (Option.bind _) (funext ih)

end Lines

/-! ## Tables -/

namespace Entries

variable {es inside : Entries} {name key : String}

theorem lookup_of_notMem (h : key ∉ es.map (·.1)) : es.lookup key = none := by
  rw [List.lookup_eq_none_iff]
  intro p hp
  refine bne_iff_ne.2 ?_
  rintro rfl
  exact h (List.mem_map_of_mem hp)

/-- A new key comes last. -/
theorem set_of_notMem (h : key ∉ es.map (·.1)) (d : Draft) : es.set key d = es ++ [(key, d)] := by
  induction es with
  | nil => rfl
  | cons p es ih =>
    rw [List.map_cons, List.mem_cons, not_or] at h
    rw [set, if_neg (Ne.symm h.1), ih h.2]
    rfl

theorem set_append_singleton (h : key ∉ es.map (·.1)) (old d : Draft) :
    set key d (es ++ [(key, old)]) = es ++ [(key, d)] := by
  induction es with
  | nil => simp [set]
  | cons p es ih =>
    rw [List.map_cons, List.mem_cons, not_or] at h
    rw [List.cons_append, set, if_neg (Ne.symm h.1), ih h.2]
    rfl

/-- A header opens a new table. -/
theorem define?_of_notMem (h : name ∉ es.map (·.1)) :
    es.define? name = some (es ++ [(name, .table .header [])]) := by
  rw [define?, change?, lookup_of_notMem h, Option.map_some, set_of_notMem h]

/-- A new key comes last in the table that was opened last. -/
theorem under?_assign? (h : name ∉ es.map (·.1)) (hkey : key ∉ inside.map (·.1)) (v : Toml) :
    under? (assign? key v []) [name] (es ++ [(name, .table .header inside)]) =
      some (es ++ [(name, .table .header (inside ++ [(key, .value v)]))]) := by
  have hlookup : (es ++ [(name, Draft.table .header inside)]).lookup name =
      some (.table .header inside) := by
    rw [List.lookup_append, lookup_of_notMem h, Option.none_or, List.lookup_cons_self]
  have hassign : assign? key v [] inside = some (inside ++ [(key, .value v)]) := by
    rw [assign?, lookup_of_notMem hkey]
    rfl
  rw [under?, change?, hlookup]
  simp only [under?, hassign, Option.map_some, set_append_singleton h]

end Entries

/-- A table that is written: its name, and its keys with their values. -/
abbrev Table := String × List (String × Field)

namespace Table

/-- The lines of a table. -/
def lines (t : Table) : List Line :=
  .header t.1 :: t.2.map fun f ↦ .pair f.1 f.2

/-- The entries that its keys make. -/
def entries (t : Table) : List (String × Toml) :=
  t.2.map fun f ↦ (f.1, f.2.value)

/-- The entries while the document is being read. -/
def drafts (t : Table) : Entries :=
  t.2.map fun f ↦ (f.1, .value f.2.value)

/-- The table can be written, and it does not have a key twice. -/
structure Plain (t : Table) : Prop where
  isBare : IsBare t.1
  keys : ∀ f ∈ t.2, IsBare f.1
  values : ∀ f ∈ t.2, f.2.writable = true
  nodup : (t.2.map (·.1)).Nodup

theorem Plain.writable {t : Table} (h : t.Plain) {line : Line} (hline : line ∈ t.lines) :
    line.Writable := by
  rcases List.mem_cons.1 hline with rfl | hline
  · exact h.isBare
  · obtain ⟨f, hf, rfl⟩ := List.mem_map.1 hline
    exact ⟨h.keys f hf, h.values f hf⟩

end Table

section Tables

variable {es inside : Entries} {name : String} {tables : List Table}

/-- Keys fill the table that was opened last. -/
theorem foldlM_pairs {fields : List (String × Field)} (h : name ∉ es.map (·.1))
    (hnodup : (inside.map (·.1) ++ fields.map (·.1)).Nodup) :
    (fields.map fun f ↦ Line.pair f.1 f.2).foldlM Line.step?
        ⟨es ++ [(name, .table .header inside)], [name]⟩ =
      some ⟨es ++ [(name, .table .header
        (inside ++ fields.map fun f ↦ (f.1, .value f.2.value)))], [name]⟩ := by
  induction fields generalizing inside with
  | nil => simp [Option.pure_def]
  | cons f fields ih =>
    have hkey : f.1 ∉ inside.map (·.1) := by
      intro hmem
      exact List.disjoint_of_nodup_append hnodup hmem List.mem_cons_self
    have hnodup' : ((inside ++ [(f.1, Draft.value f.2.value)]).map (·.1) ++
        fields.map (·.1)).Nodup := by
      rwa [List.map_append, List.append_assoc]
    rw [List.map_cons, List.foldlM_cons, Line.step?, Entries.under?_assign? h hkey]
    refine (ih hnodup').trans ?_
    rw [List.append_assoc]
    rfl

/-- **Tables of different names are added one after the other.** -/
theorem foldlM_tables (h : ∀ t ∈ tables, t.Plain)
    (hnodup : (es.map (·.1) ++ tables.map (·.1)).Nodup) (header : List String) :
    ∃ header', (tables.flatMap Table.lines).foldlM Line.step? ⟨es, header⟩ =
      some ⟨es ++ tables.map fun t ↦ (t.1, .table .header t.drafts), header'⟩ := by
  induction tables generalizing es header with
  | nil => exact ⟨header, by simp [Option.pure_def]⟩
  | cons t tables ih =>
    obtain ⟨ht, htables⟩ := List.forall_mem_cons.1 h
    have hname : t.1 ∉ es.map (·.1) := by
      intro hmem
      exact List.disjoint_of_nodup_append hnodup hmem List.mem_cons_self
    have hnodup' : ((es ++ [(t.1, Draft.table .header t.drafts)]).map (·.1) ++
        tables.map (·.1)).Nodup := by
      rwa [List.map_append, List.append_assoc]
    obtain ⟨header', hrest⟩ := ih htables hnodup' [t.1]
    refine ⟨header', ?_⟩
    have hopen : Line.step? ⟨es, header⟩ (.header t.1) =
        some ⟨es ++ [(t.1, .table .header [])], [t.1]⟩ := by
      rw [Line.step?, Entries.define?_of_notMem hname, Option.map_some]
    have hfill : (t.2.map fun f ↦ Line.pair f.1 f.2).foldlM Line.step?
        ⟨es ++ [(t.1, .table .header [])], [t.1]⟩ =
          some ⟨es ++ [(t.1, .table .header t.drafts)], [t.1]⟩ := foldlM_pairs hname ht.nodup
    rw [List.flatMap_cons, List.foldlM_append, Table.lines, List.foldlM_cons, hopen,
      Option.bind_eq_bind, Option.bind_some, hfill, Option.bind_some]
    refine hrest.trans ?_
    rw [List.append_assoc]
    rfl

/-! ## Documents -/

/-- The document of these tables. -/
def ofTables (tables : List Table) : Toml :=
  table (tables.map fun t ↦ (t.1, table t.entries))

theorem finishEntries_drafts (t : Table) : finishEntries t.drafts = t.entries := by
  obtain ⟨name, fields⟩ := t
  induction fields with
  | nil => rfl
  | cons f fields ih => exact congrArg (_ :: ·) ih

theorem finishEntries_tables (tables : List Table) :
    finishEntries (tables.map fun t ↦ (t.1, .table .header t.drafts)) =
      tables.map fun t ↦ (t.1, table t.entries) := by
  induction tables with
  | nil => rfl
  | cons t tables ih =>
    rw [List.map_cons, List.map_cons, finishEntries, ih, Draft.finish, finishEntries_drafts]

/-- These lines list the tables, with blank lines anywhere. -/
def Lists (lines : List Line) (tables : List Table) : Prop :=
  (lines.filter fun line ↦ !line.isBlank) = tables.flatMap Table.lines

/-- **A document is read as the tables that it lists.** -/
theorem read?_of_lists {lines : List Line} (hlists : Lists lines tables)
    (hplain : ∀ t ∈ tables, t.Plain) (hnodup : (tables.map (·.1)).Nodup) :
    read? (String.ofList (lines.flatMap Line.chars)) = some (ofTables tables) := by
  have hwritable : ∀ line ∈ lines, line.Writable := by
    intro line hline
    cases hblank : line.isBlank with
    | true =>
      cases line with
      | blank => trivial
      | header | pair => exact absurd hblank Bool.false_ne_true
    | false =>
      have hmem : line ∈ tables.flatMap Table.lines := by
        rw [← hlists]
        exact List.mem_filter.2 ⟨hline, by rw [hblank]; rfl⟩
      obtain ⟨t, ht, hline⟩ := List.mem_flatMap.1 hmem
      exact (hplain t ht).writable hline
  have hmark : (lines.flatMap Line.chars).head? ≠ some '\uFEFF' := by
    cases lines with
    | nil => simp
    | cons line lines =>
      obtain ⟨c, cs, hcs, -, hne⟩ := exists_chars_eq_cons (hwritable line List.mem_cons_self)
      rw [List.flatMap_cons, hcs, List.cons_append, List.head?_cons]
      exact fun heq ↦ hne (Option.some_inj.1 heq)
  have hnone : (([] : Entries).map (·.1) ++ tables.map (·.1)).Nodup := hnodup
  obtain ⟨header, hfold⟩ := foldlM_tables hplain hnone []
  rw [← hlists, foldlM_filter_isBlank] at hfold
  rw [read?, String.toList_ofList, if_neg hmark, readDocument_chars hwritable (Nat.lt_succ_self _),
    hfold, Option.map_some, Option.map_some, List.nil_append, finishEntries_tables]
  rfl

theorem filter_isBlank_lines (t : Table) :
    (t.lines.filter fun line ↦ !line.isBlank) = t.lines := by
  refine List.filter_eq_self.2 fun line hline ↦ ?_
  rcases List.mem_cons.1 hline with rfl | hline
  · rfl
  · obtain ⟨f, -, rfl⟩ := List.mem_map.1 hline
    rfl

theorem lists_lines (tables : List Table) : Lists (tables.flatMap Table.lines) tables := by
  rw [Lists, List.filter_flatMap]
  exact List.flatMap_congr fun t _ ↦ filter_isBlank_lines t

theorem Lists.sublist {lines : List Line} (h : Lists lines tables) :
    (tables.flatMap Table.lines).Sublist lines :=
  h ▸ List.filter_sublist

/-- The lines of a document as they are written, a blank line between two tables. -/
def writtenLines (tables : List Table) : List Line :=
  [Line.blank].intercalate (tables.map Table.lines)

theorem writtenLines_cons_cons (t t' : Table) (tables : List Table) :
    writtenLines (t :: t' :: tables) = t.lines ++ Line.blank :: writtenLines (t' :: tables) := by
  rw [writtenLines, List.map_cons, List.map_cons, List.intercalate_cons_cons, List.append_assoc]
  rfl

theorem lists_writtenLines (tables : List Table) : Lists (writtenLines tables) tables := by
  unfold Lists
  induction tables with
  | nil => rfl
  | cons t tables ih =>
    cases tables with
    | nil =>
      rw [writtenLines, List.map_singleton, List.intercalate_singleton, filter_isBlank_lines,
        List.flatMap_singleton]
    | cons t' tables =>
      rw [writtenLines_cons_cons, List.filter_append, filter_isBlank_lines, List.flatMap_cons, ← ih]
      rfl

theorem flatMap_chars_writtenLines (tables : List Table) :
    (writtenLines tables).flatMap Line.chars =
      ['\n'].intercalate (tables.map fun t ↦ tableChars t.1 t.2) := by
  have hlines (t : Table) : t.lines.flatMap Line.chars = tableChars t.1 t.2 := by
    rw [Table.lines, List.flatMap_cons, List.flatMap_map]
    rfl
  induction tables with
  | nil => rfl
  | cons t tables ih =>
    cases tables with
    | nil =>
      rw [writtenLines, List.map_singleton, List.intercalate_singleton, hlines, List.map_singleton,
        List.intercalate_singleton]
    | cons t' tables =>
      rw [writtenLines_cons_cons, List.flatMap_append, List.flatMap_cons, ih, hlines, List.map_cons,
        List.map_cons, List.map_cons, List.intercalate_cons_cons, List.append_assoc]
      rfl

/-- **A document is written if its fields can be, and then line by line.** -/
theorem write?_eq (tables : List Table) : write? tables =
    if ∀ t ∈ tables, ∀ f ∈ t.2, f.2.writable = true then
      some (String.ofList ((writtenLines tables).flatMap Line.chars))
    else none := by
  rw [write?, flatMap_chars_writtenLines]
  simp only [List.all_eq_true]

end Tables

end Toml

end ChangeContext
