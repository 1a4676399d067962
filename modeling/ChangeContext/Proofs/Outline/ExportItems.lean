import ChangeContext.Proofs.Outline.ExportLists
import ChangeContext.Proofs.Outline.Layout

/-!
# Items of export lists in any layout

An item of an export list is a name, with the word for types before it or not, and with a new name for
it or not.  Between the words there are blanks of any kind.  The name that is found of an item is what
stands behind the last `as` with a space on either side, after the word for types has been dropped in
front as often as it stands there with a space behind it (`ExportItem.exportedAs_chars`).

So not all items are read as they are meant.  A word for types with another blank than a space behind
it stays, an `as` with other blanks around it is not seen, and a name that is itself called `type` can
be dropped for the word for types.  An item that nothing of this happens to is `legible`, and these are
the items of which the exported name is found (`ExportItem.found_eq_exported_iff`).
-/

set_option autoImplicit false

namespace ChangeContext

namespace Outline

open Rules

/-! ## Items -/

/-- A name in an export list: any word of ASCII characters but the one between a name and the new
name for it. -/
structure ListedName where
  chars : List Char
  head : chars.head?.any isNameStart = true := by decide
  all : chars.all isIdentifierChar = true := by decide
  ne_as : chars ≠ "as".toList := by decide

theorem ListedName.isWord (x : ListedName) : IsWord x.chars :=
  ⟨x.head, x.all⟩

/-- A new name, with the blanks on both sides of the word before it. -/
structure NewName where
  before : Gap
  behind : Gap
  name : ListedName

namespace NewName

/-- The word and the new name, without the blanks before them. -/
def core (r : NewName) : List Char :=
  "as".toList ++ (r.behind.chars ++ r.name.chars)

/-- How the new name is written behind the old one. -/
def chars (r : NewName) : List Char :=
  r.before.chars ++ r.core

/-- The word before the name stands between spaces. -/
def spaced (r : NewName) : Bool :=
  r.before.chars.getLast? == some ' ' && r.behind.chars.head? == some ' '

end NewName

/-- An item of an export list: a name, which may be marked as that of a type and be exported under a
new name. -/
structure ExportItem where
  front : Blanks
  /-- The blanks behind the word for types, if it is there. -/
  marker : Option Gap
  name : ListedName
  newName : Option NewName
  back : Blanks

namespace ExportItem

/-- What stands behind the name. -/
def tail (i : ExportItem) : List Char :=
  (i.newName.map NewName.chars).getD []

/-- The item from its name on. -/
def named (i : ExportItem) : List Char :=
  i.name.chars ++ i.tail

/-- The item without the blanks around it. -/
def core (i : ExportItem) : List Char :=
  (i.marker.map fun g ↦ "type".toList ++ g.chars).getD [] ++ i.named

/-- How the item is written. -/
def chars (i : ExportItem) : List Char :=
  i.front.chars ++ (i.core ++ i.back.chars)

/-- The name that the item exports. -/
def exported (i : ExportItem) : List Char :=
  ((i.newName.map NewName.name).getD i.name).chars

/-- The word for types is not followed by a space, so it stays. -/
def keepsMarker (i : ExportItem) : Bool :=
  i.marker.any fun g ↦ g.chars.head? != some ' '

/-- The name is taken for the word for types and goes: it is that word, with a space behind it and
nothing before it or that word itself with a single space. -/
def losesName (i : ExportItem) : Bool :=
  i.name.chars == "type".toList && i.tail.head? == some ' ' &&
    i.marker.all fun g ↦ g.chars == [' ']

/-- The name that the item exports is what is found of it. -/
def legible (i : ExportItem) : Bool :=
  !i.losesName && match i.newName with
    | none => !i.keepsMarker
    | some r => r.spaced

/-- What is left of the item without the word for types. -/
def left (i : ExportItem) : List Char :=
  if i.losesName then i.tail.dropWhile Text.isBlank
  else if i.keepsMarker then i.core
  else i.named

/-- What is found of the item. -/
def found (i : ExportItem) : List Char :=
  if i.legible then i.exported else i.left

end ExportItem

/-! ## Dropping the word for types -/

section Drop

variable {cs rest x : List Char} {c : Char}

theorem dropTypeWords_of_isBlank (hc : Text.isBlank c = true) :
    dropTypeWords (c :: cs) = c :: cs := by
  refine dropTypeWords_of_ne fun rest heq ↦ ?_
  obtain rfl : c = 't' := (List.cons.inj heq).1
  exact absurd hc (by decide)

/-- A word is dropped only if it is the word for types and a space follows. -/
theorem dropTypeWords_word (hx : IsWord x) (hrest : Text.Stops isNameRest rest)
    (h : x = "type".toList → rest.head? ≠ some ' ') : dropTypeWords (x ++ rest) = x ++ rest := by
  refine dropTypeWords_of_ne fun rest' heq ↦ ?_
  have htype : ∀ c ∈ "type".toList, isNameRest c = true := isNameRest_of_word (by decide)
  have hblank : Text.Stops isNameRest (' ' :: rest') := Text.stops_cons (by decide)
  obtain ⟨hword, hbehind⟩ := eq_of_name (hx.forall_mem isNameRest_of_isIdentifierChar) htype hrest
    hblank heq
  exact h hword (hbehind ▸ rfl)

end Drop

/-! ## Behind the last separator -/

section Separator

variable {cs rest gap x : List Char}

/-- What stands before a separator makes no difference. -/
theorem afterLast?_of_some {after : List Char} (h : afterLast? " as ".toList rest = some after)
    (front : List Char) : afterLast? " as ".toList (front ++ rest) = some after := by
  induction front with
  | nil => exact h
  | cons c front ih => rw [List.cons_append, afterLast?, ih]

/-- Blanks make no difference to what comes behind the separator, unless the last of them is the
space that the separator begins with. -/
theorem afterLast?_blanks (hgap : ∀ c ∈ gap, Text.isBlank c = true)
    (h : gap.getLast? = some ' ' → ∀ cs, rest ≠ "as ".toList ++ cs) :
    afterLast? " as ".toList (gap ++ rest) = afterLast? " as ".toList rest := by
  induction gap with
  | nil => rfl
  | cons c gap ih =>
    obtain ⟨hc, hgap⟩ := List.forall_mem_cons.1 hgap
    have hgap' : gap.getLast? = some ' ' → ∀ cs, rest ≠ "as ".toList ++ cs := by
      intro hlast
      refine h ?_
      rw [List.getLast?_cons, hlast]
      rfl
    rw [List.cons_append, afterLast?, ih hgap hgap']
    cases afterLast? " as ".toList rest with
    | some after => rfl
    | none =>
      by_contra hsome
      obtain ⟨cs, hprefix⟩ := Option.ne_none_iff_exists'.1 hsome
      obtain ⟨hspace, hbehind⟩ := List.cons.inj (List.append_eq_of_isPrefixOf?_eq_some hprefix)
      cases gap with
      | nil => exact h (by rw [← hspace]; rfl) cs hbehind.symm
      | cons d gap =>
        obtain rfl : 'a' = d := (List.cons.inj hbehind).1
        exact absurd (hgap 'a' List.mem_cons_self) (by decide)

theorem afterLast?_word (hx : IsWord x) (rest : List Char) :
    afterLast? " as ".toList (x ++ rest) = afterLast? " as ".toList rest :=
  afterLast?_append (hx.forall_mem ne_blank_of_isIdentifierChar)

/-- The separator has a space at either end. -/
theorem word_ne_append (hx : IsWord x) (rest : List Char) : x ≠ "as ".toList ++ rest := by
  rintro rfl
  exact hx.forall_mem ne_blank_of_isIdentifierChar ' ' (List.mem_append_left _ (by decide)) rfl

namespace NewName

variable (r : NewName)

theorem afterLast?_core : afterLast? " as ".toList r.core = none := by
  have has : IsWord "as".toList := by decide
  have hname : afterLast? " as ".toList r.name.chars = none :=
    afterLast?_of_forall (r.name.isWord.forall_mem ne_blank_of_isIdentifierChar)
  rw [core, afterLast?_word has,
    afterLast?_blanks r.behind.all fun _ ↦ word_ne_append r.name.isWord, hname]

theorem spaced_iff :
    r.spaced = true ↔ r.before.chars.getLast? = some ' ' ∧ r.behind.chars.head? = some ' ' := by
  rw [spaced, Bool.and_eq_true, beq_iff_eq, beq_iff_eq]

/-- The separator is found just if there are spaces around the word between the names. -/
theorem afterLast?_chars :
    afterLast? " as ".toList r.chars =
      if r.spaced then some (r.behind.chars.tail ++ r.name.chars) else none := by
  by_cases h : r.spaced = true
  · obtain ⟨hbefore, hbehind⟩ := r.spaced_iff.1 h
    obtain ⟨front, hfront⟩ := List.getLast?_eq_some_iff.1 hbefore
    obtain ⟨more, hmore⟩ := List.head?_eq_some_iff.1 hbehind
    have hcore : afterLast? " as ".toList (' ' :: r.core) = some (more ++ r.name.chars) := by
      rw [afterLast?, r.afterLast?_core, core, hmore]
      simp [List.isPrefixOf?]
    rw [if_pos h, chars, hfront, hmore, List.append_assoc]
    exact afterLast?_of_some hcore front
  · have hcut : r.before.chars.getLast? = some ' ' → ∀ cs, r.core ≠ "as ".toList ++ cs := by
      intro hlast cs heq
      obtain ⟨c, more, hmore, -⟩ := r.behind.exists_eq_cons
      rw [core, hmore] at heq
      obtain ⟨rfl, -⟩ : ' ' = c ∧ _ := by simpa using heq.symm
      exact h (r.spaced_iff.2 ⟨hlast, by rw [hmore]; rfl⟩)
    rw [if_neg h, chars, afterLast?_blanks r.before.all hcut, r.afterLast?_core]

theorem trim_tail : Text.trim (r.behind.chars.tail ++ r.name.chars) = r.name.chars := by
  have hblanks : ∀ c ∈ r.behind.chars.tail, Text.isBlank c = true :=
    fun c hc ↦ r.behind.all c (List.mem_of_mem_tail hc)
  have htrim := trim_words r.name.isWord r.name.isWord hblanks (List.forall_mem_nil _)
    ⟨[], (List.append_nil _).symm⟩ ⟨[], rfl⟩
  rwa [List.append_nil] at htrim

/-- The word between the names is not the word for types. -/
theorem dropTypeWords_core {front : List Char}
    (hfront : ∀ c ∈ front, Text.isBlank c = true) :
    dropTypeWords (front ++ r.core) = front ++ r.core := by
  cases front with
  | nil =>
    refine dropTypeWords_of_ne fun rest ↦ ?_
    have hdiffer : (("as".toList.zip "type".toList).any fun p ↦ p.1 != p.2) = true := by decide
    exact append_ne_append_of_zip hdiffer _ _
  | cons c front => exact dropTypeWords_of_isBlank (hfront c List.mem_cons_self)

theorem dropWhile_chars : r.chars.dropWhile Text.isBlank = r.core := by
  have has : IsWord "as".toList := by decide
  exact Text.dropWhile_append_of_stops r.before.all (stops_of_isNameStart has.head)

end NewName

end Separator

/-! ## The name that is found -/

namespace ExportItem

variable (i : ExportItem)

theorem losesName_iff :
    i.losesName = true ↔ i.name.chars = "type".toList ∧ i.tail.head? = some ' ' ∧
      ∀ g ∈ i.marker, g.chars = [' '] := by
  rw [losesName, Bool.and_eq_true, Bool.and_eq_true, beq_iff_eq, beq_iff_eq, and_assoc,
    Option.all_eq_true]
  simp only [beq_iff_eq]
  rfl

theorem stops_tail : Text.Stops isNameRest i.tail := by
  rw [tail]
  cases i.newName with
  | none => exact Text.stops_nil
  | some r => exact r.before.stops _

/-- The last word of an item. -/
theorem exists_named_eq : ∃ rest x, IsWord x ∧ i.named = rest ++ x := by
  rw [named, tail]
  cases i.newName with
  | none => exact ⟨[], i.name.chars, i.name.isWord, by simp⟩
  | some r =>
    refine ⟨i.name.chars ++ (r.before.chars ++ ("as".toList ++ r.behind.chars)), r.name.chars,
      r.name.isWord, ?_⟩
    simp [NewName.chars, NewName.core]

/-- The blanks around an item are trimmed away. -/
theorem trim_core {front back : List Char} (hfront : ∀ c ∈ front, Text.isBlank c = true)
    (hback : ∀ c ∈ back, Text.isBlank c = true) :
    Text.trim (front ++ (i.core ++ back)) = i.core := by
  obtain ⟨rest, x, hx, hnamed⟩ := i.exists_named_eq
  rw [core]
  cases i.marker with
  | none => exact trim_words i.name.isWord hx hfront hback ⟨i.tail, rfl⟩ ⟨rest, hnamed⟩
  | some g =>
    refine trim_words (x := "type".toList) (by decide) hx hfront hback ⟨g.chars ++ i.named, ?_⟩
      ⟨"type".toList ++ g.chars ++ rest, ?_⟩
    · simp
    · simp [hnamed]

theorem trim_named {front : List Char} (hfront : ∀ c ∈ front, Text.isBlank c = true) :
    Text.trim (front ++ i.named) = i.named := by
  obtain ⟨rest, x, hx, hnamed⟩ := i.exists_named_eq
  have htrim := trim_words i.name.isWord hx hfront (List.forall_mem_nil _) ⟨i.tail, rfl⟩
    ⟨rest, hnamed⟩
  rwa [List.append_nil] at htrim

/-- A space behind the name is the first of the blanks before a new one. -/
theorem exists_newName (h : i.tail.head? = some ' ') :
    ∃ r more, i.newName = some r ∧ i.tail = r.chars ∧ r.before.chars = ' ' :: more := by
  rw [tail] at h ⊢
  cases hnew : i.newName with
  | none => simp [hnew] at h
  | some r =>
    obtain ⟨c, more, hmore, -⟩ := r.before.exists_eq_cons
    obtain rfl : c = ' ' := by simpa [hnew, NewName.chars, hmore] using h
    exact ⟨r, more, rfl, rfl, hmore⟩

/-- Where the word for types does not stand in front, the name is dropped in its place if it is that
word and a space follows. -/
theorem trim_dropTypeWords_named :
    Text.trim (dropTypeWords i.named) =
      if i.name.chars = "type".toList ∧ i.tail.head? = some ' ' then i.tail.dropWhile Text.isBlank
      else i.named := by
  split
  next h =>
    obtain ⟨r, more, -, htail, hmore⟩ := i.exists_newName h.2
    have hblanks : ∀ c ∈ more, Text.isBlank c = true :=
      fun c hc ↦ r.before.all c (hmore ▸ List.mem_cons_of_mem _ hc)
    have has : IsWord "as".toList := by decide
    have htrim : Text.trim (more ++ (r.core ++ [])) = r.core :=
      trim_words has r.name.isWord hblanks (List.forall_mem_nil _) ⟨_, rfl⟩
        ⟨"as".toList ++ r.behind.chars, (List.append_assoc ..).symm⟩
    rw [List.append_nil] at htrim
    rw [htail, r.dropWhile_chars, named, h.1, htail, NewName.chars, hmore]
    change Text.trim (dropTypeWords (more ++ r.core)) = r.core
    rw [r.dropTypeWords_core hblanks, htrim]
  next h =>
    rw [named, dropTypeWords_word i.name.isWord i.stops_tail fun hname hspace ↦ h ⟨hname, hspace⟩]
    exact i.trim_named (List.forall_mem_nil _)

theorem trim_dropTypeWords_core : Text.trim (dropTypeWords i.core) = i.left := by
  have hnamed := i.trim_dropTypeWords_named
  cases hmarker : i.marker with
  | none =>
    rw [core, hmarker, left, losesName, keepsMarker, hmarker]
    simpa using hnamed
  | some g =>
    have hcore : i.core = "type".toList ++ (g.chars ++ i.named) := by simp [core, hmarker]
    by_cases hspace : g.chars.head? = some ' '
    · obtain ⟨more, hmore⟩ := List.head?_eq_some_iff.1 hspace
      have hdrop : dropTypeWords i.core = dropTypeWords (more ++ i.named) := by
        rw [hcore, hmore]
        rfl
      rw [hdrop, left, losesName, keepsMarker, hmarker]
      cases more with
      | nil => simpa [hmore] using hnamed
      | cons c more =>
        have hblanks : ∀ d ∈ c :: more, Text.isBlank d = true :=
          fun d hd ↦ g.all d (by rw [hmore]; exact List.mem_cons_of_mem _ hd)
        have htrim := i.trim_named hblanks
        rw [List.cons_append] at htrim ⊢
        rw [dropTypeWords_of_isBlank (hblanks c List.mem_cons_self)]
        simpa [hmore] using htrim
    · have hhead : (g.chars ++ i.named).head? ≠ some ' ' := by
        rwa [List.head?_append_of_ne_nil _ g.ne_nil]
      have htype : IsWord "type".toList := by decide
      rw [hcore, dropTypeWords_word htype (g.stops _) fun _ ↦ hhead, ← hcore, left, losesName,
        keepsMarker, hmarker]
      have hother : g.chars ≠ [' '] := fun heq ↦ hspace (by rw [heq]; rfl)
      simpa [hspace, hother] using i.trim_core (List.forall_mem_nil _) (List.forall_mem_nil _)

theorem named_ne_append (rest : List Char) : i.named ≠ "as ".toList ++ rest := by
  intro heq
  have has : ∀ c ∈ "as".toList, isNameRest c = true := isNameRest_of_word (by decide)
  have hstops : Text.Stops isNameRest (' ' :: rest) := Text.stops_cons (by decide)
  have hname := i.name.isWord.forall_mem isNameRest_of_isIdentifierChar
  exact i.name.ne_as (eq_of_name hname has i.stops_tail hstops heq).1

/-- Neither the word for types nor the old name has the separator in it. -/
theorem afterLast?_core : afterLast? " as ".toList i.core = afterLast? " as ".toList i.tail := by
  have hnamed : afterLast? " as ".toList i.named = afterLast? " as ".toList i.tail :=
    afterLast?_word i.name.isWord _
  rw [← hnamed, core]
  cases i.marker with
  | none => rfl
  | some g =>
    have htype : IsWord "type".toList := by decide
    rw [Option.map_some, Option.getD_some, List.append_assoc, afterLast?_word htype,
      afterLast?_blanks g.all fun _ ↦ i.named_ne_append]

/-- What is left of an item has the separator in it just if there is a new name with spaces around the
word before it, and that word has not come to stand in front. -/
theorem afterLast?_left :
    afterLast? " as ".toList i.left =
      if i.losesName then none else afterLast? " as ".toList i.tail := by
  rw [left]
  split
  next h =>
    obtain ⟨r, -, -, htail, -⟩ := i.exists_newName (i.losesName_iff.1 h).2.1
    rw [htail, r.dropWhile_chars, r.afterLast?_core]
  next =>
    split
    · exact i.afterLast?_core
    · exact afterLast?_word i.name.isWord _

/-- **What is found of an item.** -/
theorem exportedAs_chars : exportedAs i.chars = i.found := by
  have htrim : Text.trim i.chars = i.core := i.trim_core i.front.all i.back.all
  have hleft : Text.trim i.left = i.left := by
    rw [← i.trim_dropTypeWords_core]
    exact Text.trimWhile_trimWhile _ _
  rw [exportedAs, htrim, trim_dropTypeWords_core, afterLast?_left, found, legible]
  cases hloses : i.losesName with
  | true => simpa using hleft
  | false =>
    cases hnew : i.newName with
    | none =>
      have htail : i.tail = [] := by rw [tail, hnew]; rfl
      have hnamed : i.named = i.exported := by rw [named, htail, exported, hnew]; simp
      cases hkeeps : i.keepsMarker with
      | true => simpa [htail, afterLast?] using hleft
      | false => simpa [htail, afterLast?, left, hloses, hkeeps, hnamed] using hleft
    | some r =>
      have htail : i.tail = r.chars := by rw [tail, hnew]; rfl
      rw [htail, r.afterLast?_chars]
      cases hspaced : r.spaced with
      | true => simpa [hspaced, exported, hnew] using r.trim_tail
      | false => simpa [hspaced] using hleft

/-- An item holds names and blanks. -/
theorem forall_mem_chars : ∀ c ∈ i.chars, isNameOrBlank c = true := by
  have hname (x : ListedName) : ∀ c ∈ x.chars, isNameOrBlank c = true :=
    x.isWord.forall_mem isNameOrBlank_of_isIdentifierChar
  have hblanks (bs : Blanks) : ∀ c ∈ bs.chars, isNameOrBlank c = true :=
    isNameOrBlank_of_forall_isBlank bs.all
  have hword {cs : List Char} (h : cs.all isIdentifierChar = true) :
      ∀ c ∈ cs, isNameOrBlank c = true :=
    fun c hc ↦ isNameOrBlank_of_isIdentifierChar c (List.all_eq_true.1 h c hc)
  have htail : ∀ c ∈ i.tail, isNameOrBlank c = true := by
    rw [tail]
    cases i.newName with
    | none => exact List.forall_mem_nil _
    | some r =>
      simp only [Option.map_some, Option.getD_some, NewName.chars, NewName.core,
        List.forall_mem_append]
      exact ⟨hblanks r.before.toBlanks, hword (by decide), hblanks r.behind.toBlanks, hname r.name⟩
  have hmarker : ∀ c ∈ (i.marker.map fun g ↦ "type".toList ++ g.chars).getD [],
      isNameOrBlank c = true := by
    cases i.marker with
    | none => exact List.forall_mem_nil _
    | some g => exact List.forall_mem_append.2 ⟨hword (by decide), hblanks g.toBlanks⟩
  simp only [chars, core, named, List.forall_mem_append]
  exact ⟨hblanks i.front, ⟨hmarker, hname i.name, htail⟩, hblanks i.back⟩

/-- What an item exports has no blank in it. -/
theorem isBlank_of_mem_exported : ∀ c ∈ i.exported, Text.isBlank c = false := by
  rw [exported]
  exact ListedName.isWord _ |>.forall_mem isBlank_of_isIdentifierChar

/-- What is found instead has one. -/
theorem exists_isBlank_of_mem_left (h : i.legible = false) :
    ∃ c ∈ i.left, Text.isBlank c = true := by
  rw [left]
  split
  next hloses =>
    obtain ⟨r, -, -, htail, -⟩ := i.exists_newName (i.losesName_iff.1 hloses).2.1
    rw [htail, r.dropWhile_chars]
    exact r.behind.exists_isBlank _ _
  next hloses =>
    split
    next hkeeps =>
      obtain ⟨g, hg, -⟩ := (Option.any_eq_true _ _).1 hkeeps
      rw [core, hg, Option.map_some, Option.getD_some, List.append_assoc]
      exact g.exists_isBlank _ _
    next hkeeps =>
      rw [named, tail]
      cases hnew : i.newName with
      | none => simp [legible, hloses, hkeeps, hnew] at h
      | some r =>
        exact r.before.exists_isBlank _ _

/-- **The name that an item exports is found of legible items only.** -/
theorem found_eq_exported_iff : i.found = i.exported ↔ i.legible = true := by
  rw [found]
  split
  next h => simp [h]
  next h =>
    obtain ⟨c, hc, hblank⟩ := i.exists_isBlank_of_mem_left (Bool.eq_false_iff.2 h)
    refine iff_of_false (fun heq ↦ ?_) h
    rw [i.isBlank_of_mem_exported c (heq ▸ hc)] at hblank
    exact absurd hblank (by decide)

theorem found_ne_nil : i.found ≠ [] := by
  rw [found]
  split
  next => exact ListedName.isWord _ |>.ne_nil
  next h =>
    obtain ⟨c, hc, -⟩ := i.exists_isBlank_of_mem_left (Bool.eq_false_iff.2 h)
    exact List.ne_nil_of_mem hc

end ExportItem

end Outline

end ChangeContext
