import ChangeContext.Proofs.Outline.Statement
import ChangeContext.Proofs.Text.Digits
import Mathlib.Data.List.Basic

/-!
# How common statements are written

Readers of a source go by characters: what an identifier may contain, what ends it, and which marks
stand around it.  A statement contains characters of identifiers and the few marks of its form
(`Statement.forall_mem_chars`), and it ends with a semicolon or a brace.  As all of them are ASCII,
what has to be known of a kind of characters is found out by going through them
(`forall_isIdentifierChar`).
-/

set_option autoImplicit false

namespace ChangeContext

namespace Outline

/-! ## Kinds of characters -/

section Kinds

variable {P : Char → Prop}

theorem toNat_lt_of_isIdentifierChar {c : Char} (h : isIdentifierChar c = true) :
    c.toNat < 128 := by
  simp only [isIdentifierChar, Rules.isNameStart, Rules.isLetter, Bool.or_eq_true,
    Bool.and_eq_true, decide_eq_true_eq, beq_iff_eq, Char.isDigit_iff_toNat, Char.le_def,
    UInt32.le_iff_toNat_le] at h
  rcases h with (((⟨-, hle⟩ | ⟨-, hle⟩) | rfl) | rfl) | ⟨-, hle⟩
  · exact Nat.lt_of_le_of_lt hle (by decide)
  · exact Nat.lt_of_le_of_lt hle (by decide)
  · decide
  · decide
  · exact Nat.lt_of_le_of_lt hle (by decide)

/-- What holds of all ASCII characters of identifiers holds of all characters of identifiers. -/
theorem forall_isIdentifierChar
    (h : ∀ n < 128, isIdentifierChar (Char.ofNat n) = true → P (Char.ofNat n)) {c : Char}
    (hc : isIdentifierChar c = true) : P c := by
  have hn := h c.toNat (toNat_lt_of_isIdentifierChar hc)
  rw [Char.ofNat_toNat] at hn
  exact hn hc

theorem ne_of_isIdentifierChar {mark : Char} (hmark : isIdentifierChar mark = false) (c : Char)
    (hc : isIdentifierChar c = true) : c ≠ mark := by
  rintro rfl
  rw [hmark] at hc
  exact absurd hc Bool.false_ne_true

theorem beq_of_isIdentifierChar {mark : Char} (hmark : isIdentifierChar mark = false) (c : Char)
    (hc : isIdentifierChar c = true) : (c == mark) = false :=
  beq_eq_false_iff_ne.2 (ne_of_isIdentifierChar hmark c hc)

/-- No character of an identifier is a mark. -/
theorem contains_of_isIdentifierChar {marks : List Char}
    (hmarks : ∀ c ∈ marks, isIdentifierChar c = false) (c : Char) (hc : isIdentifierChar c = true) :
    marks.contains c = false := by
  by_contra hmem
  have hmark := hmarks c (List.contains_iff_mem.1 (Bool.not_eq_false _ ▸ hmem))
  exact ne_of_isIdentifierChar hmark c hc rfl

theorem isIdentifierChar_of_isLetter {c : Char} (h : Rules.isLetter c = true) :
    isIdentifierChar c = true := by
  simp [isIdentifierChar, Rules.isNameStart, h]

theorem isIdentifierChar_of_isDigit {c : Char} (h : c.isDigit = true) :
    isIdentifierChar c = true := by
  simp [isIdentifierChar, h]

end Kinds

/-! ## Where a class of characters ends -/

/-- Characters of a class belong to what stands before the first character outside of it. -/
theorem exists_append_of_append_eq {accepts : Char → Bool} {cs rest front tail : List Char}
    {mark : Char} (hcs : ∀ c ∈ cs, accepts c = true) (hmark : accepts mark = false)
    (h : cs ++ rest = front ++ mark :: tail) :
    ∃ front', front = cs ++ front' ∧ rest = front' ++ mark :: tail := by
  rcases List.append_eq_append_iff.1 h with ⟨front', hfront, hrest⟩ | ⟨cs', rfl, htail⟩
  · exact ⟨front', hfront, hrest⟩
  · cases cs' with
    | nil => exact ⟨[], by simp, by simpa using htail.symm⟩
    | cons c cs' =>
      obtain rfl : mark = c := (List.cons.inj htail).1
      rw [hcs mark (List.mem_append_right _ List.mem_cons_self)] at hmark
      exact absurd hmark (by decide)

/-- Texts that differ somewhere do not begin alike. -/
theorem append_ne_append_of_zip {front front' : List Char}
    (h : ((front.zip front').any fun p ↦ p.1 != p.2) = true) (rest rest' : List Char) :
    front ++ rest ≠ front' ++ rest' := by
  induction front generalizing front' with
  | nil => simp at h
  | cons c front ih =>
    cases front' with
    | nil => simp at h
    | cons c' front' =>
      intro heq
      obtain ⟨rfl, htail⟩ := List.cons.inj heq
      exact ih (by simpa using h) htail

/-! ## Identifiers, modules and sums -/

/-- The characters are those of a word, which may be an identifier or not. -/
structure IsWord (cs : List Char) : Prop where
  head : cs.head?.any Rules.isNameStart = true
  all : cs.all isIdentifierChar = true

instance (cs : List Char) : Decidable (IsWord cs) :=
  decidable_of_iff (cs.head?.any Rules.isNameStart = true ∧ cs.all isIdentifierChar = true)
    ⟨fun h ↦ ⟨h.1, h.2⟩, fun h ↦ ⟨h.head, h.all⟩⟩

theorem Identifier.isWord (x : Identifier) : IsWord x.chars :=
  ⟨x.head, x.all⟩

/-- A word begins with a character that identifiers begin with. -/
theorem IsWord.exists_eq_cons {cs : List Char} (h : IsWord cs) :
    ∃ c tail, cs = c :: tail ∧ Rules.isNameStart c = true := by
  cases cs with
  | nil => exact absurd h.head (by decide)
  | cons c tail => exact ⟨c, tail, rfl, by simpa using h.head⟩

theorem IsWord.ne_nil {cs : List Char} (h : IsWord cs) : cs ≠ [] := by
  obtain ⟨c, tail, rfl, -⟩ := h.exists_eq_cons
  exact List.cons_ne_nil c tail

theorem Identifier.exists_eq_cons (x : Identifier) :
    ∃ c cs, x.chars = c :: cs ∧ Rules.isNameStart c = true :=
  x.isWord.exists_eq_cons

theorem Identifier.ne_nil (x : Identifier) : x.chars ≠ [] :=
  x.isWord.ne_nil

theorem Identifier.toList_text (x : Identifier) : x.text.toList = x.chars :=
  String.toList_ofList

section Parts

variable {P : Char → Prop} (hword : ∀ c, isIdentifierChar c = true → P c)

include hword

theorem IsWord.forall_mem {cs : List Char} (h : IsWord cs) : ∀ c ∈ cs, P c :=
  fun c hc ↦ hword c (List.all_eq_true.1 h.all c hc)

theorem Identifier.forall_mem (x : Identifier) : ∀ c ∈ x.chars, P c :=
  x.isWord.forall_mem hword

theorem Module.forall_mem (hmarks : ∀ c ∈ "/.-".toList, P c) (m : Module) : ∀ c ∈ m.chars, P c := by
  intro c hc
  have hall := List.all_eq_true.1 m.all c hc
  simp only [isModuleChar, Bool.or_eq_true, beq_iff_eq] at hall
  rcases hall with ((hletter | rfl) | rfl) | rfl
  · exact hword _ (isIdentifierChar_of_isLetter hletter)
  · exact hmarks _ (by decide)
  · exact hmarks _ (by decide)
  · exact hmarks _ (by decide)

omit hword in
theorem Numeral.forall_mem (hdigit : ∀ c : Char, c.isDigit = true → P c) (hdot : P '.')
    (n : Numeral) : ∀ c ∈ n.chars, P c := by
  have hdigits : ∀ c ∈ n.whole ++ n.fraction, P c := fun c hc ↦
    hdigit c (List.all_eq_true.1 n.all c hc)
  obtain ⟨hwhole, hfraction⟩ := List.forall_mem_append.1 hdigits
  rw [Numeral.chars]
  split
  · simpa using hwhole
  · exact List.forall_mem_append.2 ⟨hwhole, List.forall_mem_cons.2 ⟨hdot, hfraction⟩⟩

theorem Summand.forall_mem (hdot : P '.') : ∀ s : Summand, ∀ c ∈ s.chars, P c
  | name x => x.forall_mem hword
  | numeral n => n.forall_mem (fun c hc ↦ hword c (isIdentifierChar_of_isDigit hc)) hdot

theorem Sum.forall_mem (hmarks : ∀ c ∈ ".+ ".toList, P c) (e : Sum) : ∀ c ∈ e.chars, P c := by
  have hdot : P '.' := hmarks _ (by decide)
  refine List.forall_mem_append.2 ⟨e.first.forall_mem hword hdot, fun c hc ↦ ?_⟩
  obtain ⟨s, -, hc⟩ := List.mem_flatMap.1 hc
  rcases List.mem_append.1 hc with hc | hc
  · exact hmarks c (List.forall_mem_cons.2 ⟨by decide, by decide⟩ c hc)
  · exact s.forall_mem hword hdot c hc

theorem forall_mem_listChars (hmarks : ∀ c ∈ ", ".toList, P c) :
    ∀ xs : List Identifier, ∀ c ∈ listChars xs, P c
  | [] => by simp [listChars]
  | x :: more => by
    refine List.forall_mem_append.2 ⟨x.forall_mem hword, fun c hc ↦ ?_⟩
    obtain ⟨y, -, hc⟩ := List.mem_flatMap.1 hc
    exact List.forall_mem_append.2 ⟨hmarks, y.forall_mem hword⟩ c hc

theorem ImportClause.forall_mem (hmarks : ∀ c ∈ "\x7b \x7d".toList, P c) :
    ∀ clause : ImportClause, ∀ c ∈ clause.chars, P c
  | default x => x.forall_mem hword
  | named x => by
    have hparts : ∀ c ∈ "\x7b ".toList ++ " \x7d".toList, P c := fun c hc ↦
      hmarks c (List.forall_mem_cons.2 ⟨by decide, by decide⟩ c hc)
    obtain ⟨hopen, hclose⟩ := List.forall_mem_append.1 hparts
    exact List.forall_mem_append.2 ⟨hopen, List.forall_mem_append.2 ⟨x.forall_mem hword, hclose⟩⟩

theorem ArrowParameters.forall_mem (hmarks : ∀ c ∈ "(, )".toList, P c) :
    ∀ xs : ArrowParameters, ∀ c ∈ xs.chars, P c
  | list xs => by
    refine List.forall_mem_append.2 ⟨?_, List.forall_mem_append.2
      ⟨forall_mem_listChars hword ?_ xs, ?_⟩⟩
    · exact fun c hc ↦ hmarks c (List.forall_mem_singleton.2 (by decide) c hc)
    · exact fun c hc ↦ hmarks c (List.forall_mem_cons.2 ⟨by decide, by decide⟩ c hc)
    · exact fun c hc ↦ hmarks c (List.forall_mem_singleton.2 (by decide) c hc)
  | single x => x.forall_mem hword

/-- A text that is made of characters of identifiers and of some marks. -/
theorem forall_mem_toList {marks : List Char} {t : String} (hmarks : ∀ c ∈ marks, P c)
    (ht : t.toList.all fun c ↦ isIdentifierChar c || marks.contains c) : ∀ c ∈ t.toList, P c := by
  intro c hc
  rcases Bool.or_eq_true_iff.1 (List.all_eq_true.1 ht c hc) with hchar | hmark
  · exact hword _ hchar
  · exact hmarks c (List.contains_iff_mem.1 hmark)

theorem forall_mem_exportChars (hblank : P ' ') (exported : Bool) :
    ∀ c ∈ Statement.exportChars exported, P c := by
  cases exported with
  | false => exact List.forall_mem_nil P
  | true =>
    exact forall_mem_toList hword (List.forall_mem_singleton.2 hblank) (by decide +kernel)

end Parts

/-! ## Statements -/

namespace Statement

variable {P : Char → Prop}

/-- The characters of a statement that are not those of identifiers. -/
def marks : Statement → List Char
  | importFrom _ _ => ['\x7b', ' ', '\x7d', '\'', '"', ';', '/', '.', '-']
  | require _ _ => [' ', '=', '(', '\'', '/', '.', '-', ')', ';']
  | function _ _ _ _ => ['(', ',', ' ', ')', '\x7b', ';', '\x7d']
  | arrow _ _ _ _ => ['(', ',', ' ', ')', '=', '>', '.', '+', ';']
  | .class _ => ['\x7b', ' ', '\x7d']
  | exportList _ _ _ => ['\x7b', ',', ' ', '\x7d', ';']

/-- The last character of a statement. -/
def last : Statement → Char
  | function _ _ _ _ | .class _ => '}'
  | _ => ';'

/-- **A statement contains characters of identifiers and its marks.** -/
theorem forall_mem_chars (hword : ∀ c, isIdentifierChar c = true → P c) (s : Statement)
    (hmarks : ∀ c ∈ s.marks, P c) : ∀ c ∈ s.chars, P c := by
  have hfixed {marks : List Char} {t : String} (hmarks : ∀ c ∈ marks, P c)
      (ht : t.toList.all fun c ↦ isIdentifierChar c || marks.contains c) : ∀ c ∈ t.toList, P c :=
    forall_mem_toList hword hmarks ht
  have hsome {marks cs : List Char} (hmarks : ∀ c ∈ marks, P c) (hcs : cs ⊆ marks) :
      ∀ c ∈ cs, P c := fun c hc ↦ hmarks c (hcs hc)
  cases s with
  | importFrom clause m =>
    simp only [marks] at hmarks
    have hquote : P clause.quote := by
      cases clause with
      | default x => exact hmarks '\'' (by decide)
      | named x => exact hmarks '"' (by decide)
    simp only [chars_importFrom, List.forall_mem_append, List.forall_mem_cons]
    exact ⟨hfixed hmarks (by decide +kernel), clause.forall_mem hword (hsome hmarks (by decide)),
      hfixed hmarks (by decide +kernel), hquote, m.forall_mem hword (hsome hmarks (by decide)),
      hquote, hfixed hmarks (by decide +kernel)⟩
  | require x m =>
    simp only [marks] at hmarks
    simp only [chars_require, List.forall_mem_append]
    exact ⟨hfixed hmarks (by decide +kernel), x.forall_mem hword, hfixed hmarks (by decide +kernel),
      m.forall_mem hword (hsome hmarks (by decide)), hfixed hmarks (by decide +kernel)⟩
  | function exported f xs returns =>
    simp only [marks] at hmarks
    simp only [chars_function, List.forall_mem_append]
    refine ⟨forall_mem_exportChars hword (hmarks ' ' (by decide)) exported,
      hfixed hmarks (by decide +kernel), f.forall_mem hword, hfixed hmarks (by decide +kernel),
      forall_mem_listChars hword (hsome hmarks (by decide)) xs, hfixed hmarks (by decide +kernel), ?_⟩
    cases returns with
    | false => exact hfixed hmarks (by decide +kernel)
    | true => exact hfixed hmarks (by decide +kernel)
  | arrow exported f xs e =>
    simp only [marks] at hmarks
    simp only [chars_arrow, List.forall_mem_append]
    exact ⟨forall_mem_exportChars hword (hmarks ' ' (by decide)) exported,
      hfixed hmarks (by decide +kernel), f.forall_mem hword, hfixed hmarks (by decide +kernel),
      xs.forall_mem hword (hsome hmarks (by decide)), hfixed hmarks (by decide +kernel),
      e.forall_mem hword (hsome hmarks (by decide)), hfixed hmarks (by decide +kernel)⟩
  | «class» x =>
    simp only [marks] at hmarks
    simp only [chars_class, List.forall_mem_append]
    exact ⟨hfixed hmarks (by decide +kernel), x.forall_mem hword, hfixed hmarks (by decide +kernel)⟩
  | exportList a b c =>
    simp only [marks] at hmarks
    simp only [chars_exportList, List.forall_mem_append]
    exact ⟨hfixed hmarks (by decide +kernel), a.forall_mem hword, hfixed hmarks (by decide +kernel),
      b.forall_mem hword, hfixed hmarks (by decide +kernel), c.forall_mem hword,
      hfixed hmarks (by decide +kernel)⟩

/-- A statement ends with its last character. -/
theorem exists_chars_eq (s : Statement) : ∃ front, s.chars = front ++ [s.last] := by
  have happend {front back : List Char} {c : Char} (h : ∃ cs, back = cs ++ [c]) :
      ∃ cs, front ++ back = cs ++ [c] := by
    obtain ⟨cs, rfl⟩ := h
    exact ⟨front ++ cs, (List.append_assoc ..).symm⟩
  cases s with
  | importFrom clause m =>
    refine happend (happend (happend ?_))
    exact ⟨clause.quote :: (m.chars ++ [clause.quote]), by simp [last]⟩
  | require x m => exact happend (happend (happend (happend ⟨"')".toList, by simp [last]⟩)))
  | function exported f xs returns =>
    refine happend (happend (happend (happend (happend (happend ?_)))))
    cases returns with
    | false => exact ⟨" \x7b".toList, by simp [bodyChars, last]⟩
    | true => exact ⟨" \x7b return null; ".toList, by simp [bodyChars, last]⟩
  | arrow exported f xs e =>
    exact happend (happend (happend (happend (happend (happend (happend ⟨[], by simp [last]⟩))))))
  | «class» x => exact happend (happend ⟨" \x7b".toList, by simp [last]⟩)
  | exportList a b c =>
    exact happend (happend (happend (happend (happend (happend ⟨" \x7d".toList, by simp [last]⟩)))))

end Statement

end Outline

end ChangeContext
