import ChangeContext.Proofs.FileTree.Edit
import ChangeContext.Proofs.Toml.Document
import ChangeContext.Settings.Document

/-!
# Settings that were saved

Settings are saved as a document of three tables, whatever texts are in them, and such a document is
read as what it lists.  So settings that were saved are loaded again, and when tables or keys are
taken out of the file, just those settings have their first values (`load_save`).  An integer that is
too large for a document is found before anything is written.
-/

set_option autoImplicit false

namespace ChangeContext

namespace Settings

/-! ## What is left of a document -/

/-- The tables and keys that are left in a document. -/
structure Selection where
  table : String → Bool
  key : String → String → Bool

namespace Selection

/-- What is left of tables.  A table takes its keys with it. -/
def of (sel : Selection) (tables : List Toml.Table) : List Toml.Table :=
  (tables.filter fun t ↦ sel.table t.1).map fun t ↦ (t.1, t.2.filter fun f ↦ sel.key t.1 f.1)

/-- Everything is left. -/
def all : Selection where
  table _ := true
  key _ _ := true

theorem all_of (tables : List Toml.Table) : all.of tables = tables := by
  simp [of, all]

/-- What is left takes lines out, and puts none in. -/
theorem sublist_lines (sel : Selection) (tables : List Toml.Table) :
    ((sel.of tables).flatMap Toml.Table.lines).Sublist (tables.flatMap Toml.Table.lines) := by
  induction tables with
  | nil => exact List.Sublist.refl _
  | cons t tables ih =>
    rw [List.flatMap_cons]
    cases htable : sel.table t.1 with
    | false =>
      have hof : sel.of (t :: tables) = sel.of tables := by
        rw [of, List.filter_cons_of_neg (by rw [htable]; exact Bool.false_ne_true), of]
      rw [hof]
      exact ih.trans (List.sublist_append_right _ _)
    | true =>
      have hof : sel.of (t :: tables) =
          (t.1, t.2.filter fun f ↦ sel.key t.1 f.1) :: sel.of tables := by
        rw [of, List.filter_cons, if_pos htable, List.map_cons, of]
      rw [hof, List.flatMap_cons]
      exact ((List.filter_sublist.map _).cons_cons _).append ih

/-- The value of a setting of which the key is left, and its first value otherwise. -/
def pick {α : Type} (sel : Selection) (table key : String) (value first : α) : α :=
  if sel.table table && sel.key table key then value else first

end Selection

/-- The settings with their first values where a key is not left. -/
def kept (s : Settings) (sel : Selection) : Settings where
  project := {
    ignoreDirs := sel.pick "project" "ignore_dirs" s.project.ignoreDirs
      ({} : ProjectSettings).ignoreDirs }
  context := {
    scanDepth := sel.pick "context" "scan_depth" s.context.scanDepth
      ({} : ContextSettings).scanDepth
    similarFilesLimit := sel.pick "context" "similar_files_limit" s.context.similarFilesLimit
      ({} : ContextSettings).similarFilesLimit
    similarSearchDepth := sel.pick "context" "similar_search_depth" s.context.similarSearchDepth
      ({} : ContextSettings).similarSearchDepth
    topK := sel.pick "context" "top_k" s.context.topK ({} : ContextSettings).topK
    maxFileSize := sel.pick "context" "max_file_size" s.context.maxFileSize
      ({} : ContextSettings).maxFileSize }
  cache := {
    enabled := sel.pick "cache" "enabled" s.cache.enabled ({} : CacheSettings).enabled
    maxAgeSecs := sel.pick "cache" "max_age_secs" s.cache.maxAgeSecs
      ({} : CacheSettings).maxAgeSecs
    maxEntries := sel.pick "cache" "max_entries" s.cache.maxEntries
      ({} : CacheSettings).maxEntries
    persist := sel.pick "cache" "persist" s.cache.persist ({} : CacheSettings).persist
    snapshotPath := sel.pick "cache" "snapshot_path" s.cache.snapshotPath
      ({} : CacheSettings).snapshotPath }

theorem kept_all (s : Settings) : s.kept .all = s := rfl

/-! ## Looking up what is left -/

section Lookup

variable {α β : Type} {keeps : String → Bool}

/-- What is found under a key among those that are left. -/
theorem lookup_filter_fst (l : List (String × α)) (key : String) :
    (l.filter fun p ↦ keeps p.1).lookup key = if keeps key then l.lookup key else none := by
  induction l with
  | nil => simp
  | cons p l ih =>
    rw [List.filter_cons]
    by_cases hkey : key = p.1
    · subst hkey
      cases hkeeps : keeps p.1 with
      | true =>
        rw [if_pos rfl, if_pos rfl, List.lookup_cons, List.lookup_cons, beq_self_eq_true]
      | false =>
        rw [hkeeps] at ih
        exact ih
    · have hbeq : (key == p.1) = false := beq_eq_false_iff_ne.2 hkey
      split
      next => rw [List.lookup_cons, hbeq, ih, List.lookup_cons, hbeq]
      next => rw [ih, List.lookup_cons, hbeq]

theorem lookup_map_fst (g : String → α → β) (l : List (String × α)) (key : String) :
    (l.map fun p ↦ (p.1, g p.1 p.2)).lookup key = (l.lookup key).map (g key) := by
  induction l with
  | nil => rfl
  | cons p l ih =>
    rw [List.map_cons, List.lookup_cons, List.lookup_cons]
    by_cases hkey : key = p.1
    · subst hkey
      simp
    · rw [beq_eq_false_iff_ne.2 hkey]
      exact ih

/-- The entries of what is left of a table. -/
theorem values?_table (keeps : String → Bool) (fields : List (String × Toml.Field))
    (names : List String) :
    values? names (.table ((fields.filter fun f ↦ keeps f.1).map fun f ↦ (f.1, f.2.value))) =
      some (names.map fun name ↦
        if keeps name then (fields.lookup name).map Toml.Field.value else none) := by
  rw [values?]
  refine congrArg some (List.map_congr_left fun name _ ↦ ?_)
  rw [lookup_map_fst fun _ ↦ Toml.Field.value, lookup_filter_fst]
  split <;> rfl

/-- A setting has its value if its key is left, and its first value otherwise. -/
theorem orFirst?_left (keeps : String → Bool) {fields : List (String × Toml.Field)} (key : String)
    {f : Toml.Field} (hlookup : fields.lookup key = some f) {read : Toml → Option α} {value : α}
    (hread : read f.value = some value) (first : α) :
    orFirst? first read (if keeps key then (fields.lookup key).map Toml.Field.value else none) =
      some (if keeps key then value else first) := by
  rw [hlookup]
  cases keeps key with
  | true => exact hread
  | false => rfl

theorem asTexts?_strings (ss : List String) :
    asTexts? (Toml.Field.value (.strings ss)) = some ss := by
  rw [Toml.Field.value, asTexts?, List.mapM_map]
  induction ss with
  | nil => rfl
  | cons s ss ih =>
    rw [List.mapM_cons, ih]
    rfl

end Lookup

/-! ## Reading what is left -/

section Read

/-- The keys of the three tables. -/
def projectFields (s : ProjectSettings) : List (String × Toml.Field) :=
  [("ignore_dirs", .strings s.ignoreDirs)]

def contextFields (s : ContextSettings) : List (String × Toml.Field) :=
  [("scan_depth", .natural s.scanDepth), ("similar_files_limit", .natural s.similarFilesLimit),
    ("similar_search_depth", .natural s.similarSearchDepth), ("top_k", .natural s.topK),
    ("max_file_size", .natural s.maxFileSize)]

def cacheFields (s : CacheSettings) : List (String × Toml.Field) :=
  [("enabled", .boolean s.enabled), ("max_age_secs", .natural s.maxAgeSecs),
    ("max_entries", .natural s.maxEntries), ("persist", .boolean s.persist),
    ("snapshot_path", .string s.snapshotPath.text)]

/-- What is left of the keys of a table. -/
def leftOf (keeps : String → Bool) (fields : List (String × Toml.Field)) : Toml :=
  .table ((fields.filter fun f ↦ keeps f.1).map fun f ↦ (f.1, f.2.value))

theorem readProject?_leftOf (s : ProjectSettings) (keeps : String → Bool) :
    readProject? (leftOf keeps (projectFields s)) = some {
      ignoreDirs := if keeps "ignore_dirs" then s.ignoreDirs
        else ({} : ProjectSettings).ignoreDirs } := by
  have hfields : (projectFields s).lookup "ignore_dirs" = some (.strings s.ignoreDirs) := rfl
  rw [readProject?, leftOf, values?_table]
  simp only [Option.bind_eq_bind, Option.bind_some, List.map_cons, List.map_nil]
  rw [orFirst?_left keeps "ignore_dirs" hfields (asTexts?_strings _)]
  rfl

theorem readContext?_leftOf (s : ContextSettings) (keeps : String → Bool) :
    readContext? (leftOf keeps (contextFields s)) = some {
      scanDepth := if keeps "scan_depth" then s.scanDepth else ({} : ContextSettings).scanDepth
      similarFilesLimit := if keeps "similar_files_limit" then s.similarFilesLimit
        else ({} : ContextSettings).similarFilesLimit
      similarSearchDepth := if keeps "similar_search_depth" then s.similarSearchDepth
        else ({} : ContextSettings).similarSearchDepth
      topK := if keeps "top_k" then s.topK else ({} : ContextSettings).topK
      maxFileSize := if keeps "max_file_size" then s.maxFileSize
        else ({} : ContextSettings).maxFileSize } := by
  have hnat (key : String) {n : Nat}
      (hlookup : (contextFields s).lookup key = some (.natural n)) :=
    orFirst?_left keeps key hlookup (show asNat? (Toml.Field.natural n).value = some n from rfl)
  rw [readContext?, leftOf, values?_table]
  simp only [Option.bind_eq_bind, Option.bind_some, List.map_cons, List.map_nil]
  rw [hnat "scan_depth" rfl, hnat "similar_files_limit" rfl, hnat "similar_search_depth" rfl,
    hnat "top_k" rfl, hnat "max_file_size" rfl]
  rfl

theorem readCache?_leftOf (s : CacheSettings) (keeps : String → Bool) :
    readCache? (leftOf keeps (cacheFields s)) = some {
      enabled := if keeps "enabled" then s.enabled else ({} : CacheSettings).enabled
      maxAgeSecs := if keeps "max_age_secs" then s.maxAgeSecs else ({} : CacheSettings).maxAgeSecs
      maxEntries := if keeps "max_entries" then s.maxEntries else ({} : CacheSettings).maxEntries
      persist := if keeps "persist" then s.persist else ({} : CacheSettings).persist
      snapshotPath := if keeps "snapshot_path" then s.snapshotPath
        else ({} : CacheSettings).snapshotPath } := by
  have hnat (key : String) {n : Nat}
      (hlookup : (cacheFields s).lookup key = some (.natural n)) :=
    orFirst?_left keeps key hlookup (show asNat? (Toml.Field.natural n).value = some n from rfl)
  have hbool (key : String) {b : Bool}
      (hlookup : (cacheFields s).lookup key = some (.boolean b)) :=
    orFirst?_left keeps key hlookup (show asBool? (Toml.Field.boolean b).value = some b from rfl)
  have hpath := @orFirst?_left Path keeps (cacheFields s) "snapshot_path"
    (.string s.snapshotPath.text) rfl (fun v ↦ (asText? v).map Path.mk) s.snapshotPath rfl
  rw [readCache?, leftOf, values?_table]
  simp only [Option.bind_eq_bind, Option.bind_some, List.map_cons, List.map_nil]
  rw [hbool "enabled" rfl, hnat "max_age_secs" rfl, hnat "max_entries" rfl, hbool "persist" rfl,
    hpath]
  rfl

/-- The table of a name among those that are left. -/
theorem lookup_of_tables (sel : Selection) (tables : List Toml.Table) (name : String) :
    ((sel.of tables).map fun t ↦ (t.1, Toml.table t.entries)).lookup name =
      if sel.table name then (tables.lookup name).map (leftOf (sel.key name)) else none := by
  have hleft : (sel.of tables).map (fun t ↦ (t.1, Toml.table t.entries)) =
      (tables.filter fun t ↦ sel.table t.1).map fun t ↦ (t.1, leftOf (sel.key t.1) t.2) := by
    rw [Selection.of, List.map_map]
    rfl
  rw [hleft, lookup_map_fst fun name ↦ leftOf (sel.key name), lookup_filter_fst]
  split <;> rfl

/-- **What is left of a document is read as the settings with first values for the rest.** -/
theorem ofToml?_selected (s : Settings) (sel : Selection) :
    ofToml? (Toml.ofTables (sel.of s.tables)) = some (s.kept sel) := by
  have hread {α : Type} {read : Toml → Option α} {value first : α} (name : String)
      {fields : List (String × Toml.Field)} (hlookup : s.tables.lookup name = some fields)
      (hvalue : read (leftOf (sel.key name) fields) = some value) :
      orFirst? first read
          (((sel.of s.tables).map fun t ↦ (t.1, Toml.table t.entries)).lookup name) =
        some (if sel.table name then value else first) := by
    rw [lookup_of_tables, hlookup]
    cases sel.table name with
    | true => exact hvalue
    | false => rfl
  rw [ofToml?, Toml.ofTables, values?]
  simp only [Option.bind_eq_bind, Option.bind_some, List.map_cons, List.map_nil]
  rw [hread "project" rfl (readProject?_leftOf s.project _),
    hread "context" rfl (readContext?_leftOf s.context _),
    hread "cache" rfl (readCache?_leftOf s.cache _)]
  -- a table that is not left takes its keys with it
  simp only [kept, Selection.pick]
  cases sel.table "project" <;> cases sel.table "context" <;> cases sel.table "cache" <;> rfl

end Read

/-! ## Saving and loading -/

/-- The integers among the settings. -/
def integers (s : Settings) : List Nat :=
  [s.context.scanDepth, s.context.similarFilesLimit, s.context.similarSearchDepth, s.context.topK,
    s.context.maxFileSize, s.cache.maxAgeSecs, s.cache.maxEntries]

/-- No integer is larger than a signed word of 64 bits. -/
def Fits (s : Settings) : Prop :=
  ∀ n ∈ s.integers, n ≤ 9223372036854775807

section Save

variable {s : Settings} {t : FileTree} {now : Instant} {path : Path}

theorem writable_natural_iff (n : Nat) :
    (Toml.Field.natural n).writable = true ↔ n ≤ 9223372036854775807 := by
  rw [Toml.Field.writable, Toml.integerInRange, Bool.and_eq_true, decide_eq_true_eq,
    decide_eq_true_eq]
  omega

theorem fits_iff : s.Fits ↔ ∀ t ∈ s.tables, ∀ f ∈ t.2, f.2.writable = true := by
  have hstrings (ss : List String) : (Toml.Field.strings ss).writable = true := rfl
  have hstring (text : String) : (Toml.Field.string text).writable = true := rfl
  have hboolean (b : Bool) : (Toml.Field.boolean b).writable = true := rfl
  simp only [Fits, integers, tables, List.forall_mem_cons, List.not_mem_nil, false_imp_iff,
    implies_true, and_true, true_and, writable_natural_iff, hstrings, hstring, hboolean, and_assoc]

/-- The names of the tables and of their keys. -/
def layout : List (String × List String) :=
  [("project", ["ignore_dirs"]),
    ("context", ["scan_depth", "similar_files_limit", "similar_search_depth", "top_k",
      "max_file_size"]),
    ("cache", ["enabled", "max_age_secs", "max_entries", "persist", "snapshot_path"])]

theorem map_tables (s : Settings) : s.tables.map (fun t ↦ (t.1, t.2.map (·.1))) = layout := rfl

theorem plain_layout :
    ∀ p ∈ layout, Toml.IsBare p.1 ∧ (∀ key ∈ p.2, Toml.IsBare key) ∧ p.2.Nodup := by
  decide

theorem plain_of_mem_tables (h : s.Fits) {t : Toml.Table} (ht : t ∈ s.tables) : t.Plain := by
  have hmem : (t.1, t.2.map (·.1)) ∈ layout := by
    rw [← map_tables s]
    exact List.mem_map_of_mem ht
  obtain ⟨hname, hkeys, hnodup⟩ := plain_layout _ hmem
  exact ⟨hname, fun f hf ↦ hkeys f.1 (List.mem_map_of_mem hf), fits_iff.1 h t ht, hnodup⟩

theorem plain_of_mem_selected (h : s.Fits) (sel : Selection) :
    ∀ t ∈ sel.of s.tables, t.Plain := by
  intro t ht
  obtain ⟨t', ht', rfl⟩ := List.mem_map.1 ht
  have hplain := plain_of_mem_tables h (List.mem_of_mem_filter ht')
  have hsublist : (t'.2.filter fun f ↦ sel.key t'.1 f.1).Sublist t'.2 := List.filter_sublist
  refine ⟨hplain.isBare, fun f hf ↦ hplain.keys f (hsublist.subset hf),
    fun f hf ↦ hplain.values f (hsublist.subset hf), ?_⟩
  exact hplain.nodup.sublist (hsublist.map _)

theorem nodup_selected (s : Settings) (sel : Selection) : ((sel.of s.tables).map (·.1)).Nodup := by
  have hnames : (s.tables.map (·.1)).Nodup := by
    have hlayout : s.tables.map (·.1) = layout.map (·.1) := rfl
    rw [hlayout]
    decide
  rw [Selection.of, List.map_map]
  exact hnames.sublist (List.filter_sublist.map _)

/-- **A document that lists what is left is read as the settings with first values for the rest.** -/
theorem ofText?_of_lists (h : s.Fits) (sel : Selection) {lines : List Toml.Line}
    (hlists : Toml.Lists lines (sel.of s.tables)) :
    ofText? (String.ofList (lines.flatMap Toml.Line.chars)) = some (s.kept sel) := by
  rw [ofText?, Toml.read?_of_lists hlists (plain_of_mem_selected h sel) (nodup_selected s sel),
    Option.bind_some, ofToml?_selected]

/-- Settings are written if they fit. -/
theorem toText?_eq (h : s.Fits) : s.toText? =
    some (String.ofList ((Toml.writtenLines s.tables).flatMap Toml.Line.chars)) := by
  rw [toText?, Toml.write?_eq, if_pos (fits_iff.1 h)]

theorem toText?_of_not_fits (h : ¬ s.Fits) : s.toText? = none := by
  rw [toText?, Toml.write?_eq, if_neg (fun hwritable ↦ h (fits_iff.2 hwritable))]

theorem load_of_readText? {text : String} (hread : t.readText? path = some text)
    (htext : ofText? text = some s) : load t path = .ok s := by
  rw [load, hread]
  simp only [htext]

/-- Settings are saved by writing their text.  This is about the function and not about its values,
since the text of settings must not be computed in comparing two ways to branch on it. -/
theorem save_eq : save = fun s t now path ↦
    s.toText?.elim (.error .settings) fun text ↦
      (t.writeFile? path text.toUTF8 now).elim (.error .file) .ok := by
  delta save
  funext s t now path
  generalize s.toText? = text
  cases text with
  | none => rfl
  | some text =>
    simp only [Option.elim_some]
    cases t.writeFile? path text.toUTF8 now <;> rfl

/-- **Settings that fit are saved unless the file cannot be written, and then they are loaded
again.** -/
theorem load_of_save (h : s.Fits) (t : FileTree) (now : Instant) (path : Path) :
    (s.save t now path = .error .file ∧ ∀ bytes, t.writeFile? path bytes now = none) ∨
    ∃ t', s.save t now path = .ok t' ∧
      t'.readText? path =
        some (String.ofList ((Toml.writtenLines s.tables).flatMap Toml.Line.chars)) ∧
      load t' path = .ok s := by
  simp only [save_eq, toText?_eq h, Option.elim_some]
  cases hwrite : t.writeFile? path
      (String.ofList ((Toml.writtenLines s.tables).flatMap Toml.Line.chars)).toUTF8 now with
  | none => exact .inl ⟨rfl, FileTree.writeFile?_eq_none_congr hwrite⟩
  | some t' =>
    have hread := FileTree.readText?_of_file? (FileTree.file?_writeFile? hwrite)
    have hlists : Toml.Lists (Toml.writtenLines s.tables) (Selection.all.of s.tables) := by
      rw [Selection.all_of]
      exact Toml.lists_writtenLines s.tables
    have htext := ofText?_of_lists h .all hlists
    rw [kept_all] at htext
    exact .inr ⟨t', rfl, hread, load_of_readText? hread htext⟩

/-- **Settings that were saved are loaded again**, and what is taken out of the file has its first
value; settings that do not fit are refused, and nothing is written. -/
theorem load_save (s : Settings) (t : FileTree) (now : Instant) (path : Path) :
    (s.Fits →
      (s.save t now path = .error .file ∧ ∀ bytes, t.writeFile? path bytes now = none) ∨
      ∃ t', s.save t now path = .ok t' ∧
        t'.readText? path =
          some (String.ofList ((Toml.writtenLines s.tables).flatMap Toml.Line.chars)) ∧
        load t' path = .ok s) ∧
    (s.Fits → ∀ sel : Selection,
      (∃ left : List Toml.Line, left.Sublist (Toml.writtenLines s.tables) ∧
        Toml.Lists left (sel.of s.tables)) ∧
      ∀ left : List Toml.Line, Toml.Lists left (sel.of s.tables) →
        ∀ (t' : FileTree) (path' : Path),
          t'.readText? path' = some (String.ofList (left.flatMap Toml.Line.chars)) →
          load t' path' = .ok (s.kept sel)) ∧
    (¬ s.Fits → s.save t now path = .error .settings ∧
      (s.save t now path).toOption.getD t = t) := by
  refine ⟨fun h ↦ load_of_save h t now path, fun h sel ↦ ⟨?_, ?_⟩, ?_⟩
  · refine ⟨(sel.of s.tables).flatMap Toml.Table.lines, ?_, Toml.lists_lines _⟩
    exact (sel.sublist_lines s.tables).trans (Toml.lists_writtenLines s.tables).sublist
  · intro left hleft t' path' hread
    exact load_of_readText? hread (ofText?_of_lists h sel hleft)
  · intro h
    simp only [save_eq, toText?_of_not_fits h, Option.elim_none]
    exact ⟨trivial, rfl⟩

/-- Settings with texts that have to be escaped. -/
def escaping : Settings where
  project := { ignoreDirs := ["a\"b'", "'''\\\n\"\"\"", ""] }
  context := { topK := 9223372036854775807 }
  cache := { snapshotPath := ⟨"\x1f\n'"⟩ }

/-- Settings with an integer that is too large. -/
def tooLarge : Settings where
  cache := { maxAgeSecs := 9223372036854775808 }

/-- What is left without the table of the cache and one key. -/
def withoutCache : Selection where
  table name := name != "cache"
  key _ key := key != "top_k"

/-- A tree with one file. -/
def holding (text : String) : FileTree where
  nodes := [(["s.toml"], .file text.toUTF8 ⟨0, 0⟩)]
  here := []

theorem file?_holding (text : String) :
    (holding text).file? ⟨"/s.toml"⟩ = some (text.toUTF8, ⟨0, 0⟩) := rfl

theorem load_save_escaping :
    (∃ t', escaping.save (holding "") ⟨1, 0⟩ ⟨"/s.toml"⟩ = .ok t' ∧
      t'.readText? ⟨"/s.toml"⟩ =
        some (String.ofList ((Toml.writtenLines escaping.tables).flatMap Toml.Line.chars)) ∧
      load t' ⟨"/s.toml"⟩ = .ok escaping) ∧
    load (holding (String.ofList
        ((Toml.writtenLines (withoutCache.of escaping.tables)).flatMap Toml.Line.chars)))
      ⟨"/s.toml"⟩ = .ok { project := escaping.project } ∧
    tooLarge.save (holding "") ⟨1, 0⟩ ⟨"/s.toml"⟩ = .error .settings := by
  have hfits : escaping.Fits := by
    rw [Fits]
    decide
  have hlarge : ¬ tooLarge.Fits := by
    rw [Fits]
    decide
  have hwrite (bytes : ByteArray) :
      ((holding "").writeFile? ⟨"/s.toml"⟩ bytes ⟨1, 0⟩).isSome = true := rfl
  refine ⟨?_, ?_, ?_⟩
  · refine ((load_save escaping (holding "") ⟨1, 0⟩ ⟨"/s.toml"⟩).1 hfits).resolve_left ?_
    rintro ⟨-, hnone⟩
    have hsome := hwrite "".toUTF8
    rw [hnone] at hsome
    exact absurd hsome Bool.false_ne_true
  · exact ((load_save escaping (holding "") ⟨1, 0⟩ ⟨"/s.toml"⟩).2.1 hfits withoutCache).2 _
      (Toml.lists_writtenLines _) _ _ (FileTree.readText?_of_file? (file?_holding _))
  · exact ((load_save tooLarge (holding "") ⟨1, 0⟩ ⟨"/s.toml"⟩).2.2 hlarge).1

end Save

end Settings

end ChangeContext
