import ChangeContext.Proofs.Assembly.Permutation
import ChangeContext.Proofs.Pattern.Occurrences
import ChangeContext.Proofs.Text.ByteOrder

/-!
# What is listed of a tally

`Tally.Ranks` says what a list of the most frequent names is, given how often each name is counted:
which names are on it, in which order, and what is left out.  It says nothing about how the names
were counted or sorted, and the first names of a tally are such a list (`Tally.ranks_top`).

What is counted is then said of the files themselves.  A module counts once for every file that
imports it (`Common.importers`).  An idiom counts wherever in a file it occurs (`Common.occurrences`).
The tally holds what a search finds, which goes on behind each match; it misses nothing, since no
idiom occurs inside of an occurrence of itself (`Common.separate_of_mem_idioms`).
-/

set_option autoImplicit false

namespace ChangeContext

/-- A higher count comes first, and of equal counts the name whose bytes are lower. -/
def RankedItem.Before (a b : RankedItem) : Prop :=
  b.count < a.count ∨ a.count = b.count ∧ Text.bytes a.name < Text.bytes b.name

namespace Tally

/-- Of the names that are counted, the first `k` are listed. -/
structure Ranks (count : String → Nat) (k : Nat) (items : List RankedItem) : Prop where
  count_eq : ∀ i ∈ items, i.count = count i.name
  count_pos : ∀ i ∈ items, 0 < i.count
  nodup : (items.map (·.name)).Nodup
  ordered : items.Pairwise RankedItem.Before
  /-- There are as many as are counted, up to `k`. -/
  length : ∃ names : List String, names.Nodup ∧ (∀ name, name ∈ names ↔ 0 < count name) ∧
    items.length = min k names.length
  /-- A name that is counted but not listed comes after all that are. -/
  left_out : ∀ name, 0 < count name → name ∉ items.map (·.name) →
    ∀ i ∈ items, i.Before ⟨name, count name⟩

/-! ## The order of the list -/

theorem precedes_iff {a b : RankedItem} :
    precedes a b = true ↔ b.count < a.count ∨ a.count = b.count ∧ a.name ≤ b.name := by
  simp [precedes]

theorem precedes_trans {a b c : RankedItem} (hab : precedes a b = true)
    (hbc : precedes b c = true) : precedes a c = true := by
  rw [precedes_iff] at *
  rcases hab with hab | ⟨hab, hname⟩ <;> rcases hbc with hbc | ⟨hbc, hname'⟩
  · exact .inl (Nat.lt_trans hbc hab)
  · exact .inl (hbc ▸ hab)
  · exact .inl (hab ▸ hbc)
  · exact .inr ⟨hab.trans hbc, String.le_trans hname hname'⟩

theorem precedes_total (a b : RankedItem) : (precedes a b || precedes b a) = true := by
  rw [Bool.or_eq_true, precedes_iff, precedes_iff]
  rcases Nat.lt_trichotomy a.count b.count with hlt | heq | hgt
  · exact .inr (.inl hlt)
  · exact (String.le_total a.name b.name).imp (fun h ↦ .inr ⟨heq, h⟩) fun h ↦ .inr ⟨heq.symm, h⟩
  · exact .inl (.inl hgt)

/-- Between different names the order is strict. -/
theorem before_of_precedes {a b : RankedItem} (h : precedes a b = true) (hne : a.name ≠ b.name) :
    a.Before b := by
  refine (precedes_iff.1 h).imp_right fun ⟨hcount, hname⟩ ↦ ⟨hcount, Text.bytes_lt ?_⟩
  exact String.not_le.1 fun hle ↦ hne (String.le_antisymm hname hle)

/-- All the names of a tally in the order of the list. -/
def ranking (t : Tally) : List RankedItem :=
  (t.toList.map fun e ↦ ⟨e.1, e.2⟩).mergeSort precedes

theorem top_eq_take (t : Tally) (k : Nat) : t.top k = t.ranking.take k := rfl

theorem mem_ranking {t : Tally} {i : RankedItem} : i ∈ t.ranking ↔ t.get? i.name = some i.count := by
  rw [ranking, List.mem_mergeSort, List.mem_map, NameMap.get?_eq_some_iff]
  constructor
  · rintro ⟨e, he, rfl⟩
    exact he
  · intro hi
    exact ⟨_, hi, rfl⟩

theorem map_name_ranking (t : Tally) : (t.ranking.map (·.name)).Perm t.keys := by
  have hperm := (List.mergeSort_perm (t.toList.map fun e ↦ (⟨e.1, e.2⟩ : RankedItem)) precedes).map
    (·.name)
  rwa [List.map_map] at hperm

theorem nodup_ranking (t : Tally) : (t.ranking.map (·.name)).Nodup :=
  (map_name_ranking t).nodup_iff.2 t.keys_nodup

theorem ordered_ranking (t : Tally) : t.ranking.Pairwise RankedItem.Before := by
  have hsorted : t.ranking.Pairwise fun a b ↦ precedes a b = true :=
    List.pairwise_mergeSort (fun a b c ↦ precedes_trans (a := a) (b := b) (c := c)) precedes_total _
  refine hsorted.imp₂ (fun _ _ ↦ before_of_precedes) ?_
  exact List.pairwise_map.1 (nodup_ranking t)

theorem get?_ofCounts_eq_some_iff {counts : List (String × Nat)} {name : String} {n : Nat} :
    (ofCounts counts).get? name = some n ↔ 0 < n ∧ n = total counts name := by
  rw [get?_ofCounts]
  split
  next hzero => simp [hzero, Nat.pos_iff_ne_zero]
  next hpos =>
    rw [Option.some_inj, eq_comm]
    exact ⟨fun h ↦ ⟨h ▸ Nat.pos_of_ne_zero hpos, h⟩, fun h ↦ h.2⟩

theorem mem_keys_ofCounts {counts : List (String × Nat)} {name : String} :
    name ∈ (ofCounts counts).keys ↔ 0 < total counts name := by
  simp only [NameMap.mem_keys_iff, get?_ofCounts_eq_some_iff, exists_eq_right]

/-- **The first names of a tally are the most frequent.** -/
theorem ranks_top (counts : List (String × Nat)) (k : Nat) :
    Ranks (total counts) k ((ofCounts counts).top k) := by
  have hmem {i : RankedItem} : i ∈ (ofCounts counts).ranking ↔
      0 < i.count ∧ i.count = total counts i.name :=
    mem_ranking.trans get?_ofCounts_eq_some_iff
  rw [top_eq_take]
  exact {
    count_eq := fun i hi ↦ (hmem.1 (List.mem_of_mem_take hi)).2
    count_pos := fun i hi ↦ (hmem.1 (List.mem_of_mem_take hi)).1
    nodup := (nodup_ranking _).sublist ((List.take_sublist _ _).map _)
    ordered := (ordered_ranking _).sublist (List.take_sublist _ _)
    length := by
      refine ⟨(ofCounts counts).keys, NameMap.keys_nodup _, fun name ↦ mem_keys_ofCounts, ?_⟩
      rw [List.length_take, ← (map_name_ranking _).length_eq, List.length_map]
    left_out := by
      intro name hpos hout i hi
      have hname : ⟨name, total counts name⟩ ∈ (ofCounts counts).ranking := hmem.2 ⟨hpos, rfl⟩
      have hordered := ordered_ranking (ofCounts counts)
      rw [← List.take_append_drop k (ofCounts counts).ranking] at hname hordered
      -- the name is not among the first `k`, so it is behind them
      rcases List.mem_append.1 hname with hname | hname
      · exact absurd (List.mem_map_of_mem hname) hout
      · exact (List.pairwise_append.1 hordered).2.2 i hi _ hname }

/-! ## Totals -/

theorem total_flatMap {α : Type} (l : List α) (counts : α → List (String × Nat)) (name : String) :
    total (l.flatMap counts) name = (l.map fun a ↦ total (counts a) name).sum := by
  induction l with
  | nil => rfl
  | cons a l ih => rw [List.flatMap_cons, total_append, ih, List.map_cons, List.sum_cons]

/-- Where each name stands once, its total is what stands there. -/
theorem total_map_of_nodup {α : Type} {l : List (String × α)} (hl : (l.map (·.1)).Nodup)
    (f : α → Nat) (name : String) :
    total (l.map fun e ↦ (e.1, f e.2)) name = ((l.lookup name).map f).getD 0 := by
  induction l with
  | nil => rfl
  | cons e l ih =>
    rw [List.map_cons, List.nodup_cons] at hl
    rw [List.map_cons, ← List.singleton_append, total_append, total_singleton, ih hl.2,
      List.lookup_cons]
    by_cases he : e.1 = name
    · have hnone : l.lookup name = none := by
        refine List.lookup_eq_none_iff.2 fun e' he' ↦ ?_
        have hne : name ≠ e'.1 := by
          rintro rfl
          exact hl.1 (he ▸ List.mem_map_of_mem he')
        simpa using hne
      simp [he, hnone]
    · have hne : (name == e.1) = false := by simpa using Ne.symm he
      simp [he, hne]

/-- Where each name stands once and counts once, its total tells whether it is there. -/
theorem total_map_one {names : List String} (hnames : names.Nodup) (name : String) :
    total (names.map fun n ↦ (n, 1)) name = if name ∈ names then 1 else 0 := by
  induction names with
  | nil => rfl
  | cons n names ih =>
    rw [List.nodup_cons] at hnames
    rw [List.map_cons, ← List.singleton_append, total_append, total_singleton, ih hnames.2]
    by_cases hn : n = name
    · subst hn
      simp [hnames.1]
    · simp [hn, Ne.symm hn]

end Tally

namespace Common

open Pattern

/-! ## Importing files -/

/-- The number of files with some content whose outline imports the module. -/
def importers (files : List FileRecord) (module : String) : Nat :=
  files.countP fun f ↦
    f.content ≠ "" ∧ module ∈ (Outline.ofSource f.content f.language).imports.keys

theorem nodup_importsOf (f : FileRecord) : (importsOf f).Nodup := by
  rw [importsOf]
  split
  · exact List.nodup_nil
  · exact NameMap.keys_nodup _

theorem mem_importsOf {f : FileRecord} {module : String} : module ∈ importsOf f ↔
    f.content ≠ "" ∧ module ∈ (Outline.ofSource f.content f.language).imports.keys := by
  rw [importsOf]
  split <;> simp_all

theorem total_imports (files : List FileRecord) (module : String) :
    Tally.total ((files.flatMap importsOf).map fun name ↦ (name, 1)) module =
      importers files module := by
  induction files with
  | nil => rfl
  | cons f files ih =>
    rw [List.flatMap_cons, List.map_append, Tally.total_append, ih,
      Tally.total_map_one (nodup_importsOf f), importers, importers, List.countP_cons, Nat.add_comm]
    simp only [mem_importsOf, decide_eq_true_eq]

/-! ## Occurrences of idioms -/

theorem shuns_oneWord {c : Char} {words : List Pattern} (h : ∀ p ∈ words, p.Shuns c) :
    (oneWord words).Shuns c :=
  (Shuns.oneOf h).both (.wordEdge c)

theorem shuns_perhaps {c : Char} {s : String} (h : (word s).Shuns c)
    (hc : Text.isBlank c = false) : (perhaps s).Shuns c :=
  (h.both (.blanks1 hc)).either (.nothing c)

theorem separate_exported {q : Pattern} (h : q.Shuns 'e') : (exported.both q).Separate := by
  have hopens : exported.OpensWord 'e' := opensWord_word rfl (by decide) (.blanks1 (by decide))
  exact (hopens.both h).separate (by decide)

theorem isWordChar_of_isCapital {c : Char} (h : isCapital c = true) : Text.isWordChar c = true := by
  have hletters : ∀ n ∈ List.range' 'A'.toNat 26, Text.isWordChar (Char.ofNat n) = true := by
    decide +kernel
  have hbounds : 'A' ≤ c ∧ c ≤ 'Z' := by simpa [isCapital] using h
  have hfirst : 'A'.toNat ≤ c.toNat := hbounds.1
  have hlast : c.toNat ≤ 'Z'.toNat := hbounds.2
  have hmem : c.toNat ∈ List.range' 'A'.toNat 26 :=
    List.mem_range'_1.2 ⟨hfirst, Nat.lt_succ_of_le hlast⟩
  simpa using hletters _ hmem

/-- **No idiom occurs inside of an occurrence of itself.**  All but the arrow begin with a word, and
none goes on with a word that begins with the same letter. -/
theorem separate_of_mem_idioms : ∀ i ∈ idioms, i.2.Separate := by
  simp only [idioms, List.forall_mem_cons, List.not_mem_nil, false_imp_iff, implies_true, and_true]
  refine ⟨?_, ?_, ?_, ?_, ?_, ?_, ?_, ?_⟩
  · refine separate_exported (shuns_oneWord ?_)
    simpa using Shuns.word (by decide)
  · refine separate_exported (.both (shuns_perhaps (.word (by decide)) (by decide))
      (.both (shuns_perhaps (.word (by decide)) (by decide)) (shuns_oneWord ?_)))
    simpa using Shuns.word (by decide)
  · refine separate_exported (shuns_oneWord ?_)
    simpa using Shuns.word (by decide)
  · refine separate_exported (shuns_oneWord ?_)
    simpa using Shuns.word (by decide)
  · refine separate_exported (shuns_oneWord ?_)
    simp only [List.forall_mem_cons, List.not_mem_nil, false_imp_iff, implies_true, and_true]
    exact ⟨.word (by decide), .word (by decide), .word (by decide), .word (by decide),
      .both (.word (by decide)) (.both (.blanks1 (by decide)) (.word (by decide)))⟩
  · refine (opensWord_word (c := 'a') rfl (by decide) ?_).separate (by decide)
    refine .both (.blanks1 (by decide)) (.oneOf ?_)
    simp only [List.forall_mem_cons, List.not_mem_nil, false_imp_iff, implies_true, and_true]
    refine ⟨shuns_oneWord ?_, shuns_oneWord ?_, shuns_oneWord ?_, .one (by decide)⟩
    all_goals simpa using Shuns.word (by decide)
  · exact separate_word (c := '=') rfl (by decide)
  · refine (opensWord_word (c := 'c') rfl (by decide) ?_).separate (by decide)
    exact .both (.blanks1 (by decide)) (.wordOf (by decide) fun _ ↦ isWordChar_of_isCapital)

/-- The number of places in the files where the idiom of this name occurs. -/
def occurrences (files : List FileRecord) (label : String) : Nat :=
  (files.map fun f ↦
    ((idioms.lookup label).map fun p ↦ p.occurrences f.content.toList).getD 0).sum

theorem total_idiomCounts (content label : String) : Tally.total (idiomCounts content) label =
    ((idioms.lookup label).map fun p ↦ p.occurrences content.toList).getD 0 := by
  have hlabels : (idioms.map (·.1)).Nodup := by decide
  refine (Tally.total_map_of_nodup hlabels (·.count content.toList) label).trans ?_
  refine congrArg (·.getD 0) (Option.map_congr fun p hp ↦ ?_)
  obtain ⟨front, back, heq, -⟩ := List.lookup_eq_some_iff.1 hp
  have hmem : (label, p) ∈ idioms := heq ▸ List.mem_append_right _ List.mem_cons_self
  exact (separate_of_mem_idioms _ hmem).count_eq_occurrences _

theorem total_patterns (files : List FileRecord) (label : String) :
    Tally.total (files.flatMap fun f ↦ idiomCounts f.content) label = occurrences files label := by
  simp only [Tally.total_flatMap, total_idiomCounts, occurrences]

/-! ## What files have in common -/

/-- **The modules and the idioms that are listed are the most frequent ones**, by the number of files
that import a module and by the number of places where an idiom occurs.  The order of the files does
not matter. -/
theorem ranks_imports_and_patterns (files : List FileRecord) (k : Nat) :
    Tally.Ranks (importers files) k ((imports files).top k) ∧
      Tally.Ranks (occurrences files) k ((patterns files).top k) ∧
      ∀ files', files'.Perm files → (imports files').top k = (imports files).top k ∧
        (patterns files').top k = (patterns files).top k := by
  refine ⟨?_, ?_, fun files' h ↦ ⟨by rw [imports_perm h], by rw [patterns_perm h]⟩⟩
  · rw [← funext (total_imports files)]
    exact Tally.ranks_top _ k
  · rw [← funext (total_patterns files)]
    exact Tally.ranks_top _ k

/-- A file that imports a module. -/
def importing : FileRecord :=
  ⟨⟨"a.py"⟩, "import os", "python", 9, none, false⟩

/-- A file that imports it as well and has two arrows. -/
def importingWithArrows : FileRecord :=
  ⟨⟨"b.py"⟩, "import os # a => b => c", "python", 23, none, false⟩

theorem ranks_imports_and_patterns_swapped :
    [importingWithArrows, importing].Perm [importing, importingWithArrows] ∧
      (imports [importingWithArrows, importing]).top 1 = [⟨"os", 2⟩] ∧
      (patterns [importingWithArrows, importing]).top 1 = [⟨"arrow function", 2⟩] := by
  have hswap : [importingWithArrows, importing].Perm [importing, importingWithArrows] := .swap ..
  obtain ⟨-, -, hperm⟩ := ranks_imports_and_patterns [importing, importingWithArrows] 1
  obtain ⟨himports, hpatterns⟩ := hperm _ hswap
  have hmodules : (imports [importing, importingWithArrows]).toList = [("os", 2)] := by
    decide +kernel
  have hidioms : (patterns [importing, importingWithArrows]).toList = [("arrow function", 2)] := by
    decide +kernel
  refine ⟨hswap, himports.trans ?_, hpatterns.trans ?_⟩
  · simp [Tally.top, hmodules]
  · simp [Tally.top, hidioms]

end Common

end ChangeContext
