import ChangeContext.Path.Order
import Mathlib.Data.List.Perm.Basic
import Mathlib.Data.List.Dedup

/-!
# Canonical file sets

The order of paths is `compare` on lists of components, which makes it a linear order of paths up to
their spelling.  What a canonical set holds follows from this and from the sort being stable: of
every path in the list, the spelling that came first (`mem_canonicalSet_iff`).
-/

set_option autoImplicit false

namespace ChangeContext

namespace Path

open Std

/-! ## A linear order -/

namespace Component

/-- The name of a component; the other components have none. -/
def key : Component → String
  | name s => s
  | _ => ""

instance : Ord Component := ⟨Component.compare⟩

theorem compare_eq_compareLex :
    (Ord.compare : Component → Component → Ordering) =
      compareLex (compareOn rank) (compareOn key) := by
  funext a b
  cases a <;> cases b <;> rfl

instance : TransOrd Component := by
  rw [TransOrd, compare_eq_compareLex]
  infer_instance

instance : LawfulEqOrd Component where
  compare_self := ReflCmp.compare_self
  eq_of_compare {a b} h := by
    rw [compare_eq_compareLex, compareLex_eq_eq] at h
    have hrank : a.rank = b.rank := LawfulEqOrd.eq_of_compare h.1
    have hkey : a.key = b.key := LawfulEqOrd.eq_of_compare h.2
    cases a <;> cases b <;> simp_all [rank, key]

end Component

theorem compareComponents_eq_compare (as bs : List Component) :
    compareComponents as bs = Ord.compare as bs := by
  induction as generalizing bs with
  | nil => cases bs <;> rfl
  | cons a as ih =>
    cases bs with
    | nil => rfl
    | cons b bs =>
      rw [compareComponents, List.compare_cons_cons, ih]
      rfl

theorem le_iff {p q : Path} : p.le q = true ↔ (Ord.compare p.components q.components).isLE := by
  rw [le, compare, compareComponents_eq_compare]

/-- Paths stand each before the other only if they are the same path. -/
theorem le_antisymm {p q : Path} (hpq : p.le q = true) (hqp : q.le p = true) : p.Same q :=
  LawfulEqOrd.eq_of_compare (OrientedCmp.isLE_antisymm (le_iff.1 hpq) (le_iff.1 hqp))

theorem le_trans {p q r : Path} (hpq : p.le q = true) (hqr : q.le r = true) : p.le r = true :=
  le_iff.2 (TransCmp.isLE_trans (le_iff.1 hpq) (le_iff.1 hqr))

theorem le_total (p q : Path) : p.le q = true ∨ q.le p = true := by
  have hswap : Ord.compare q.components p.components =
      (Ord.compare p.components q.components).swap := OrientedCmp.eq_swap
  rw [le_iff, le_iff, hswap]
  cases Ord.compare p.components q.components <;> simp

/-! ## Spellings of one path -/

section Same

variable {p q r : Path}

theorem Same.refl (p : Path) : p.Same p := rfl

theorem Same.symm (h : p.Same q) : q.Same p :=
  Eq.symm h

theorem Same.trans (hpq : p.Same q) (hqr : q.Same r) : p.Same r :=
  Eq.trans hpq hqr

theorem Same.le (h : p.Same q) : p.le q = true := by
  rw [le_iff, h, compare_self]
  rfl

theorem memSame_iff {l : List Path} : memSame p l = true ↔ ∃ q ∈ l, p.Same q := by
  simp [memSame]

/-- The first spelling of a path in a list. -/
def first? (l : List Path) (p : Path) : Option Path :=
  l.find? fun q ↦ decide (p.Same q)

theorem first?_congr {l : List Path} (h : p.Same q) : first? l p = first? l q := by
  rw [first?, first?]
  exact congrArg (List.find? · l) (funext fun r ↦ decide_eq_decide.2 ⟨h.symm.trans, h.trans⟩)

theorem first?_cons (l : List Path) (p q : Path) :
    first? (q :: l) p = if p.Same q then some q else first? l p := by
  by_cases h : p.Same q <;> simp [first?, h]

/-- Taking one path out leaves the first spellings of all others. -/
theorem first?_erase {l : List Path} (h : ¬ r.Same p) : first? (l.erase p) r = first? l r := by
  induction l with
  | nil => rfl
  | cons q rest ih =>
    by_cases hq : q = p
    · subst hq
      rw [List.erase_cons_head, first?_cons, if_neg h]
    · rw [List.erase_cons_tail (by simpa using hq), first?_cons, first?_cons, ih]

theorem mem_of_first? {l : List Path} (h : first? l p = some q) : q ∈ l :=
  List.mem_of_find?_eq_some h

theorem same_of_first? {l : List Path} (h : first? l p = some q) : p.Same q := by
  simpa using List.find?_some h

/-- A list holds a path in some spelling if and only if it has a first spelling of it. -/
theorem memSame_iff_first? {l : List Path} :
    memSame p l = true ↔ ∃ q, first? l q = some q ∧ p.Same q := by
  constructor
  · intro h
    obtain ⟨r, hr, hpr⟩ := memSame_iff.1 h
    have hsome : (first? l p).isSome = true :=
      List.find?_isSome.2 ⟨r, hr, decide_eq_true hpr⟩
    obtain ⟨q, hq⟩ := Option.isSome_iff_exists.1 hsome
    exact ⟨q, first?_congr (same_of_first? hq) ▸ hq, same_of_first? hq⟩
  · rintro ⟨q, hq, hpq⟩
    exact memSame_iff.2 ⟨q, mem_of_first? hq, hpq⟩

/-- No path is spelt in two ways. -/
def SpeltOnce (l : List Path) : Prop :=
  ∀ p ∈ l, ∀ q ∈ l, p.Same q → p = q

instance (l : List Path) : Decidable (SpeltOnce l) :=
  inferInstanceAs (Decidable (∀ p ∈ l, ∀ q ∈ l, p.Same q → p = q))

theorem first?_eq_some_iff {l : List Path} (hspelt : SpeltOnce l) :
    first? l p = some q ↔ q ∈ l ∧ p.Same q := by
  refine ⟨fun h ↦ ⟨mem_of_first? h, same_of_first? h⟩, fun ⟨hq, hpq⟩ ↦ ?_⟩
  obtain ⟨r, hr, hpr⟩ := memSame_iff_first?.1 (memSame_iff.2 ⟨q, hq, hpq⟩)
  have hrq : r = q := hspelt r (mem_of_first? hr) q hq (hpr.symm.trans hpq)
  rw [first?_congr hpr, hr, hrq]

end Same

/-- Only the empty path has no components. -/
theorem components_eq_nil_iff {p : Path} : p.components = [] ↔ p.text = "" := by
  constructor
  · intro h
    have htext : ['/'].intercalate (p.text.toList.splitOn '/') = p.text.toList :=
      List.intercalate_splitOn '/'
    rw [components] at h
    split at h
    next hsplit =>
      exact absurd hsplit (List.splitOn_ne_nil _ _)
    next first rest hsplit =>
      obtain ⟨hfirst, -⟩ := List.append_eq_nil_iff.1 h
      rw [Option.toList_eq_nil_iff, firstStep?] at hfirst
      -- only an empty stretch with no slash behind it says nothing
      have hnone : first = [] ∧ rest = [] := by
        simp only [stepOf?] at hfirst
        grind
      rw [hsplit, hnone.1, hnone.2, List.intercalate_singleton] at htext
      exact String.toList_injective (htext.symm.trans String.toList_empty.symm)
  · intro h
    rw [components, h]
    decide

/-! ## What a canonical set holds -/

/-- Behind `p`, the first spellings of the paths other than `p` are left of an ascending list. -/
theorem mem_dedupAfter_iff {p r : Path} {l : List Path}
    (hl : (p :: l).Pairwise fun a b ↦ a.le b = true) :
    r ∈ dedupAfter p l ↔ ¬ r.Same p ∧ first? l r = some r := by
  induction l generalizing p with
  | nil => simp [dedupAfter, first?]
  | cons q rest ih =>
    obtain ⟨hp, hrest⟩ := List.pairwise_cons.1 hl
    rw [dedupAfter, first?_cons]
    split
    next hpq =>
      rw [ih (hl.sublist (by simp))]
      refine and_congr_right fun hne ↦ ?_
      rw [if_neg fun h ↦ hne (h.trans hpq.symm)]
    next hpq =>
      rw [List.mem_cons, ih hrest]
      split
      next hrq =>
        rw [Option.some_inj]
        constructor
        · rintro (rfl | ⟨hne, -⟩)
          · exact ⟨fun h ↦ hpq h.symm, rfl⟩
          · exact absurd hrq hne
        · rintro ⟨-, rfl⟩
          exact .inl rfl
      next hrq =>
        constructor
        · rintro (rfl | ⟨-, hfirst⟩)
          · exact absurd (Same.refl _) hrq
          · refine ⟨fun hrp ↦ hpq (le_antisymm (hp q (by simp)) ?_), hfirst⟩
            exact le_trans ((List.pairwise_cons.1 hrest).1 r (mem_of_first? hfirst)) hrp.le
        · exact fun h ↦ .inr ⟨hrq, h.2⟩

theorem nodup_dedupAfter {p : Path} {l : List Path}
    (hl : (p :: l).Pairwise fun a b ↦ a.le b = true) : (p :: dedupAfter p l).Nodup := by
  refine List.nodup_cons.2 ⟨fun h ↦ ((mem_dedupAfter_iff hl).1 h).1 (Same.refl p), ?_⟩
  induction l generalizing p with
  | nil => simp [dedupAfter]
  | cons q rest ih =>
    obtain ⟨-, hrest⟩ := List.pairwise_cons.1 hl
    rw [dedupAfter]
    split
    · exact ih (hl.sublist (by simp))
    · exact List.nodup_cons.2
        ⟨fun h ↦ ((mem_dedupAfter_iff hrest).1 h).1 (Same.refl q), ih hrest⟩

theorem le_or_le (p q : Path) : (p.le q || q.le p) = true := by
  rw [Bool.or_eq_true]
  exact le_total p q

theorem pairwise_mergeSort_le (l : List Path) :
    (l.mergeSort le).Pairwise fun a b ↦ a.le b = true :=
  @List.pairwise_mergeSort Path le (fun _ _ _ ↦ le_trans) le_or_le l

/-- Sorting keeps the order of the spellings of a path. -/
theorem filter_mergeSort_le (l : List Path) (p : Path) :
    (l.mergeSort le).filter (fun q ↦ decide (p.Same q)) = l.filter fun q ↦ decide (p.Same q) := by
  have hsorted : (l.filter fun q ↦ decide (p.Same q)).Pairwise fun a b ↦ a.le b = true := by
    refine List.pairwise_of_forall_mem_list fun a ha b hb ↦ ?_
    have hpa : p.Same a := by simpa using (List.mem_filter.1 ha).2
    have hpb : p.Same b := by simpa using (List.mem_filter.1 hb).2
    exact (hpa.symm.trans hpb).le
  have hsub := (@List.sublist_mergeSort Path le l (fun _ _ _ ↦ le_trans) le_or_le _ hsorted
    List.filter_sublist).filter fun q ↦ decide (p.Same q)
  simp only [List.filter_filter, Bool.and_self] at hsub
  exact (hsub.eq_of_length ((List.mergeSort_perm l le).filter _).length_eq.symm).symm

theorem first?_mergeSort_le (l : List Path) (p : Path) : first? (l.mergeSort le) p = first? l p := by
  rw [first?, first?, ← List.head?_filter, ← List.head?_filter, filter_mergeSort_le]

/-- **A canonical set holds the first spelling of every path**, and nothing else. -/
theorem mem_canonicalSet_iff {l : List Path} {p : Path} :
    p ∈ canonicalSet l ↔ first? l p = some p := by
  rw [canonicalSet, ← first?_mergeSort_le]
  have hsorted := pairwise_mergeSort_le l
  cases hm : l.mergeSort le with
  | nil => simp [dedup, first?]
  | cons q rest =>
    rw [hm] at hsorted
    rw [dedup, List.mem_cons, mem_dedupAfter_iff hsorted, first?_cons]
    split
    next h => simp [h, eq_comm]
    next h =>
      have hne : p ≠ q := by
        rintro rfl
        exact h (Same.refl p)
      simp [h, hne]

theorem nodup_canonicalSet (l : List Path) : (canonicalSet l).Nodup := by
  have hsorted := pairwise_mergeSort_le l
  rw [canonicalSet]
  cases hm : l.mergeSort le with
  | nil => simp [dedup]
  | cons q rest => exact nodup_dedupAfter (hm ▸ hsorted)

theorem dedupAfter_sublist (p : Path) (l : List Path) : (dedupAfter p l).Sublist l := by
  induction l generalizing p with
  | nil => exact .slnil
  | cons q rest ih =>
    rw [dedupAfter]
    split
    · exact (ih p).cons q
    · exact (ih q).cons_cons q

theorem canonicalSet_sublist (l : List Path) : (canonicalSet l).Sublist (l.mergeSort le) := by
  rw [canonicalSet]
  cases l.mergeSort le with
  | nil => exact .slnil
  | cons p rest => exact (dedupAfter_sublist p rest).cons_cons p

theorem pairwise_canonicalSet (l : List Path) :
    (canonicalSet l).Pairwise fun a b ↦ a.le b = true :=
  (pairwise_mergeSort_le l).sublist (canonicalSet_sublist l)

/-- A canonical set spells no path in two ways. -/
theorem speltOnce_canonicalSet (l : List Path) : SpeltOnce (canonicalSet l) := by
  intro p hp q hq hsame
  rw [mem_canonicalSet_iff] at hp hq
  rw [first?_congr hsame, hq] at hp
  exact (Option.some_inj.1 hp).symm

/-- **A canonical set is strictly ascending.** -/
theorem ascending_canonicalSet (l : List Path) :
    (canonicalSet l).Pairwise fun p q ↦ p.compare q = .lt := by
  refine ((pairwise_canonicalSet l).and (nodup_canonicalSet l)).imp_of_mem fun hp hq h ↦ ?_
  rename_i p q
  obtain ⟨hle, hne⟩ := h
  cases hcompare : p.compare q with
  | lt => rfl
  | eq =>
    rw [compare, compareComponents_eq_compare] at hcompare
    have hsame : p.Same q := LawfulEqOrd.eq_of_compare hcompare
    exact absurd (speltOnce_canonicalSet l p hp q hq hsame) hne
  | gt =>
    rw [le, hcompare] at hle
    exact absurd hle Bool.false_ne_true

theorem canonicalSet_of_pairwise {l : List Path} (h : l.Pairwise fun a b ↦ a.le b = true) :
    canonicalSet l = dedup l := by
  rw [canonicalSet, List.mergeSort_of_pairwise h]

@[simp] theorem canonicalSet_singleton (p : Path) : canonicalSet [p] = [p] :=
  canonicalSet_of_pairwise (List.pairwise_singleton _ p)

/-- What it holds and in which order determine a canonical set. -/
theorem canonicalSet_eq_of_mem_iff {l s : List Path} (hmem : ∀ p, p ∈ s ↔ first? l p = some p)
    (hnodup : s.Nodup) (hsorted : s.Pairwise fun a b ↦ a.le b = true) : canonicalSet l = s := by
  have hperm : (canonicalSet l).Perm s := by
    refine (List.perm_ext_iff_of_nodup (nodup_canonicalSet l) hnodup).2 fun p ↦ ?_
    rw [mem_canonicalSet_iff, hmem]
  refine hperm.eq_of_pairwise (fun p q hp hq hpq hqp ↦ ?_) (pairwise_canonicalSet l) hsorted
  have hsame := le_antisymm hpq hqp
  rw [mem_canonicalSet_iff] at hp
  rw [hmem, ← first?_congr hsame, hp] at hq
  exact Option.some_inj.1 hq

/-- **Only the first spellings of its paths matter to a canonical set.** -/
theorem canonicalSet_congr {l m : List Path} (h : ∀ p, first? l p = first? m p) :
    canonicalSet l = canonicalSet m := by
  refine canonicalSet_eq_of_mem_iff (fun p ↦ ?_) (nodup_canonicalSet m) (pairwise_canonicalSet m)
  rw [mem_canonicalSet_iff, h]

/-- The order of a list in which no path is spelt in two ways does not matter to its canonical
set. -/
theorem canonicalSet_perm {l m : List Path} (h : l.Perm m) (hspelt : SpeltOnce l) :
    canonicalSet l = canonicalSet m := by
  refine canonicalSet_congr fun p ↦ Option.ext fun q ↦ ?_
  have hspelt' : SpeltOnce m := fun p hp q hq ↦ hspelt p (h.mem_iff.2 hp) q (h.mem_iff.2 hq)
  rw [first?_eq_some_iff hspelt, first?_eq_some_iff hspelt', h.mem_iff]

/-- A canonical set holds the same paths as the list. -/
theorem memSame_canonicalSet (l : List Path) (p : Path) :
    memSame p (canonicalSet l) = memSame p l := by
  rw [Bool.eq_iff_iff, memSame_iff, memSame_iff_first?]
  simp only [mem_canonicalSet_iff]

/-! ## Lists that hold the same paths -/

/-- The two lists hold the same paths, whatever their spelling and order. -/
def SameSet (l m : List Path) : Prop :=
  ∀ p, memSame p l = memSame p m

theorem sameSet_of_canonicalSet_eq {l m : List Path} (h : canonicalSet l = canonicalSet m) :
    SameSet l m := by
  intro p
  rw [← memSame_canonicalSet l, ← memSame_canonicalSet m, h]

theorem mem_of_mem_canonicalSet {l : List Path} {p : Path} (h : p ∈ canonicalSet l) : p ∈ l :=
  mem_of_first? (mem_canonicalSet_iff.1 h)

theorem exists_same_mem_canonicalSet {l : List Path} {p : Path} (h : p ∈ l) :
    ∃ q ∈ canonicalSet l, p.Same q := by
  rw [← memSame_iff, memSame_canonicalSet, memSame_iff]
  exact ⟨p, h, Same.refl p⟩

theorem canonicalSet_eq_nil_iff {l : List Path} : canonicalSet l = [] ↔ l = [] := by
  constructor
  · intro h
    refine List.eq_nil_iff_forall_not_mem.2 fun p hp ↦ ?_
    obtain ⟨q, hq, -⟩ := exists_same_mem_canonicalSet hp
    rw [h] at hq
    exact List.not_mem_nil hq
  · rintro rfl
    simp [canonicalSet, dedup]

/-! ## Another spelling -/

/-- The spelling of a path does not matter to where it stands. -/
theorem Same.le_congr {p q p' q' : Path} (hp : p.Same p') (hq : q.Same q') : p.le q = p'.le q' := by
  rw [Bool.eq_iff_iff, le_iff, le_iff, hp, hq]

theorem Same.pairwise_le {p q : Path} {before after : List Path} (hsame : p.Same q)
    (h : (before ++ p :: after).Pairwise fun a b ↦ a.le b = true) :
    (before ++ q :: after).Pairwise fun a b ↦ a.le b = true := by
  rw [List.pairwise_append, List.pairwise_cons] at h ⊢
  obtain ⟨hbefore, ⟨hp, hafter⟩, hacross⟩ := h
  refine ⟨hbefore, ⟨fun r hr ↦ ?_, hafter⟩, fun a ha b hb ↦ ?_⟩
  · rw [← hsame.le_congr (Same.refl r)]
    exact hp r hr
  · rcases List.mem_cons.1 hb with rfl | hb
    · rw [← (Same.refl a).le_congr hsame]
      exact hacross a ha p (List.mem_cons_self ..)
    · exact hacross a ha b (List.mem_cons_of_mem _ hb)

/-- A canonical set holds no path twice, not even in two spellings. -/
theorem not_same_of_canonicalSet_eq {l before after : List Path} {p r : Path}
    (h : canonicalSet l = before ++ p :: after) (hr : r ∈ before ++ after) : ¬ r.Same p := by
  intro hsame
  have hp : first? l p = some p := mem_canonicalSet_iff.1 (by simp [h])
  have hmem : r ∈ canonicalSet l := by
    rw [h]
    exact (List.sublist_cons_self p after).append_left before |>.subset hr
  rw [mem_canonicalSet_iff, first?_congr hsame, hp, Option.some_inj] at hmem
  have hnodup := nodup_canonicalSet l
  rw [h, List.nodup_middle, List.nodup_cons] at hnodup
  exact hnodup.1 (hmem ▸ hr)

/-- **A path that is spelt differently stands in the same place**, among the same other paths. -/
theorem canonicalSet_respell {l m : List Path} {p q : Path} (hsame : p.Same q)
    (hl : first? l p = some p) (hm : first? m p = some q)
    (hother : ∀ r, ¬ r.Same p → first? l r = first? m r) :
    ∃ before after, canonicalSet l = before ++ p :: after ∧
      canonicalSet m = before ++ q :: after := by
  obtain ⟨before, after, hsplit⟩ := List.append_of_mem (mem_canonicalSet_iff.2 hl)
  have honly (r : Path) (hr : r ∈ before ++ after) : ¬ r.Same p :=
    not_same_of_canonicalSet_eq hsplit hr
  have hsorted := pairwise_canonicalSet l
  have hnodup := nodup_canonicalSet l
  rw [hsplit] at hsorted hnodup
  refine ⟨before, after, hsplit, canonicalSet_eq_of_mem_iff (fun r ↦ ?_) ?_
    (hsame.pairwise_le hsorted)⟩
  · by_cases hr : r.Same p
    · have hnot : r ∉ before ++ after := fun h ↦ honly r h hr
      rw [first?_congr hr, hm, Option.some_inj]
      grind
    · have hp : r ≠ p := fun h ↦ hr (h ▸ Same.refl r)
      have hq : r ≠ q := fun h ↦ hr (h ▸ hsame.symm)
      rw [← hother r hr, ← mem_canonicalSet_iff, hsplit]
      simp [hp, hq]
  · rw [List.nodup_middle, List.nodup_cons] at hnodup ⊢
    exact ⟨fun h ↦ honly q h hsame.symm, hnodup.2⟩

end Path

end ChangeContext
