import ChangeContext.Proofs.Pattern.Reach
import ChangeContext.Proofs.Pattern.Scan
import Mathlib.Data.List.Chain

/-!
# Counting occurrences

A search goes on behind what it has found, so in general it passes over some of the places where a
pattern fits: in `aaa` it finds `aa` once.  What it counts are all these places if the pattern is
`Separate`, which means that it never fits inside of what it covers (`count_eq_occurrences`).

A pattern that begins with a word is separate if no other word that it covers begins with the same
character.  `OnlyInside` says so of a stretch of text and `Shuns` of a pattern; both go from the parts
to the whole.
-/

set_option autoImplicit false

namespace ChangeContext

namespace Place.Passes

variable {p q r : Place} {cs ds : List Char}

theorem between (before cs rest : List Char) :
    (between before (cs ++ rest)).Passes cs (between (cs.reverse ++ before) rest) where
  ahead := rfl
  before := rfl
  offset := by simp [Place.between, Nat.add_comm]

/-- Only one stretch stands between two places. -/
theorem unique (h : p.Passes cs q) (h' : p.Passes ds q) : cs = ds :=
  List.append_cancel_right (h.ahead.symm.trans h'.ahead)

/-- At a place within a stretch, the rest of it stands ahead. -/
theorem eq_cons_of_passes {c : Char} (h : p.Passes (c :: cs) q) (h' : p.Passes ds r) (hds : ds ≠ []) :
    ∃ ds', ds = c :: ds' := by
  obtain ⟨d, ds, rfl⟩ := List.exists_cons_of_ne_nil hds
  obtain rfl : c = d := (List.cons.inj (h.ahead.symm.trans h'.ahead)).1
  exact ⟨ds, rfl⟩

end Place.Passes

namespace Pattern

open Place (between)

variable {p q : Pattern} {before ahead cs ds rest : List Char} {c : Char}

/-! ## The places where a pattern fits -/

/-- The pattern fits between what stands before, nearest character first, and what stands ahead. -/
def fitsAt (p : Pattern) (before ahead : List Char) : Bool :=
  (p.matchAt? (between before ahead)).isSome

/-- The number of places where the pattern fits, from a place on. -/
def occurrencesFrom (p : Pattern) (before ahead : List Char) : Nat :=
  (List.range (ahead.length + 1)).countP fun i ↦
    p.fitsAt ((ahead.take i).reverse ++ before) (ahead.drop i)

/-- The number of places of a text where the pattern fits. -/
def occurrences (p : Pattern) (text : List Char) : Nat :=
  (List.range (text.length + 1)).countP fun i ↦ p.fitsAt (text.take i).reverse (text.drop i)

theorem occurrences_eq (p : Pattern) (text : List Char) :
    p.occurrences text = p.occurrencesFrom [] text := by
  simp [occurrences, occurrencesFrom]

theorem occurrencesFrom_nil (p : Pattern) (before : List Char) :
    p.occurrencesFrom before [] = if p.fitsAt before [] then 1 else 0 := by
  simp [occurrencesFrom, List.countP_cons]

theorem occurrencesFrom_cons (p : Pattern) (before : List Char) (c : Char) (rest : List Char) :
    p.occurrencesFrom before (c :: rest) =
      p.occurrencesFrom (c :: before) rest + if p.fitsAt before (c :: rest) then 1 else 0 := by
  rw [occurrencesFrom, List.length_cons, List.range_succ_eq_map, List.countP_cons, List.countP_map,
    occurrencesFrom]
  simp [Function.comp_def]

/-- Where the pattern does not fit, there is nothing to count. -/
theorem occurrencesFrom_append (h : ∀ front back, cs = front ++ back → back ≠ [] →
    p.fitsAt (front.reverse ++ before) (back ++ rest) = false) :
    p.occurrencesFrom before (cs ++ rest) = p.occurrencesFrom (cs.reverse ++ before) rest := by
  induction cs generalizing before with
  | nil => rfl
  | cons c cs ih =>
    have hnone : p.fitsAt before (c :: (cs ++ rest)) = false :=
      h [] (c :: cs) rfl (List.cons_ne_nil _ _)
    have hmore : p.occurrencesFrom (c :: before) (cs ++ rest) =
        p.occurrencesFrom (cs.reverse ++ c :: before) rest := ih fun front back heq hne ↦ by
      simpa using h (c :: front) back (congrArg _ heq) hne
    rw [List.cons_append, occurrencesFrom_cons, hnone, hmore]
    simp

/-! ## Patterns that never overlap -/

/-- The pattern covers some text, and no way of it begins inside of what another way covers. -/
structure Separate (p : Pattern) : Prop where
  ne_nil : ∀ {r r' cs}, p.Reaches r r' → r.place.Passes cs r'.place → cs ≠ []
  inside : ∀ {r r' r₁ r₂ front back}, p.Reaches r r' → r.place.Passes front r₁.place →
    r₁.place.Passes back r'.place → front ≠ [] → back ≠ [] → ¬ p.Reaches r₁ r₂

theorem exists_reaches_of_fitsAt (h : p.fitsAt before ahead = true) :
    ∃ r, p.Reaches ⟨between before ahead, []⟩ r := by
  obtain ⟨found, hfound⟩ := Option.isSome_iff_exists.1 h
  obtain ⟨r, hr, -⟩ := exists_reaches_of_fits hfound
  exact ⟨r, hr⟩

theorem exists_reaches_of_matchAt? {place stop : Place} {m : Match}
    (h : p.matchAt? place = some (m, stop)) : ∃ marks, p.Reaches ⟨place, []⟩ ⟨stop, marks⟩ := by
  obtain ⟨⟨_, marks⟩, hr, hsome⟩ := exists_reaches_of_fits h
  obtain rfl := (Prod.mk.inj (Option.some_inj.1 hsome)).2
  exact ⟨marks, hr⟩

namespace Separate

/-- Behind the place where it begins, the pattern does not fit up to the end of the match. -/
theorem fitsAt_eq_false (hp : p.Separate) {m : Match}
    (h : p.matchAt? (between before (cs ++ rest)) = some (m, between (cs.reverse ++ before) rest))
    {front back : List Char} (hcs : cs = front ++ back) (hfront : front ≠ []) (hback : back ≠ []) :
    p.fitsAt (front.reverse ++ before) (back ++ rest) = false := by
  subst hcs
  rw [List.append_assoc, List.reverse_append, List.append_assoc] at h
  obtain ⟨marks, hreaches⟩ := exists_reaches_of_matchAt? h
  refine Bool.eq_false_iff.2 fun hfits ↦ ?_
  obtain ⟨r, hr⟩ := exists_reaches_of_fitsAt hfits
  exact hp.inside hreaches (.between ..) (.between ..) hfront hback hr

/-- The search from a place on finds as many matches as there are places where the pattern fits. -/
theorem length_scan (hp : p.Separate) (before ahead : List Char) :
    (p.scan before ahead).length = p.occurrencesFrom before ahead := by
  induction hn : ahead.length using Nat.strong_induction_on generalizing before ahead with
  | _ n ih =>
    subst hn
    cases hmatch : p.matchAt? (between before ahead) with
    | none =>
      have hfits : p.fitsAt before ahead = false := by rw [fitsAt, hmatch]; rfl
      cases ahead with
      | nil =>
        rw [scan_nil hmatch, occurrencesFrom_nil, hfits]
        rfl
      | cons c rest =>
        rw [scan_cons hmatch, occurrencesFrom_cons, hfits, ih _ (Nat.lt_succ_self _) _ _ rfl]
        rfl
    | some found =>
      obtain ⟨m, stop⟩ := found
      have hfits : p.fitsAt before ahead = true := by rw [fitsAt, hmatch]; rfl
      obtain ⟨cs, rest, rfl, rfl⟩ := exists_between_of_matchAt? hmatch
      obtain ⟨marks, hreaches⟩ := exists_reaches_of_matchAt? hmatch
      have hne : cs ≠ [] := hp.ne_nil hreaches (.between ..)
      have hlt : rest.length < (cs ++ rest).length := by
        have := List.length_pos_iff.2 hne
        rw [List.length_append]
        omega
      rw [scan_of_matchAt? hne hmatch, List.length_cons, ih _ hlt _ _ rfl]
      obtain ⟨c, cs, rfl⟩ := List.exists_cons_of_ne_nil hne
      -- the place where the match begins counts, and no other up to its end
      have hinside : p.occurrencesFrom (c :: before) (cs ++ rest) =
          p.occurrencesFrom (cs.reverse ++ c :: before) rest := by
        refine occurrencesFrom_append fun front back heq hback ↦ ?_
        simpa using hp.fitsAt_eq_false hmatch (congrArg (c :: ·) heq) (List.cons_ne_nil c front)
          hback
      rw [List.cons_append] at hfits
      rw [List.cons_append, occurrencesFrom_cons, hinside, hfits]
      simp

/-- **What a search for a separate pattern counts are all its occurrences.** -/
theorem count_eq_occurrences (hp : p.Separate) (text : List Char) :
    p.count text = p.occurrences text := by
  rw [count, findAll_eq_scan, hp.length_scan, occurrences_eq]

end Separate

/-- A word is separate if it does not have its first character again. -/
theorem separate_word {s : String} (hs : s.toList = c :: cs) (hc : c ∉ cs) :
    (word s).Separate where
  ne_nil {r r' cs'} h hpasses := by
    rw [hpasses.unique h.of_word, hs]
    exact List.cons_ne_nil _ _
  inside {r r' r₁ r₂ front back} h hfront hback hne hne' h' := by
    have hpasses := h'.of_word
    have hcs := (hfront.trans hback).unique h.of_word
    rw [hs] at hpasses hcs
    obtain ⟨back, rfl⟩ := hpasses.eq_cons_of_passes hback hne'
    obtain ⟨a, front, rfl⟩ := List.exists_cons_of_ne_nil hne
    obtain ⟨-, rfl⟩ := List.cons.inj hcs
    exact hc (List.mem_append_right _ List.mem_cons_self)

/-! ## Beginnings of words -/

/-- Each time that the character stands in the stretch, other than at its start, it goes on a
word. -/
def GoesOn (c : Char) (cs : List Char) : Prop :=
  cs.IsChain fun a b ↦ b = c → Text.isWordChar a = true

/-- Each time that the character stands in the stretch it goes on a word. -/
structure OnlyInside (c : Char) (cs : List Char) : Prop where
  head : cs.head? ≠ some c
  goesOn : GoesOn c cs

theorem GoesOn.of_word (h : ∀ a ∈ cs, Text.isWordChar a = true) : GoesOn c cs := by
  refine (List.pairwise_of_forall_mem_list fun a ha b _ _ ↦ ?_).isChain
  exact h a ha

theorem GoesOn.append (h : GoesOn c cs) (h' : OnlyInside c ds) : GoesOn c (cs ++ ds) := by
  refine List.isChain_append.2 ⟨h, h'.goesOn, fun a _ b hb hbc ↦ ?_⟩
  subst hbc
  exact absurd hb h'.head

namespace OnlyInside

theorem nil (c : Char) : OnlyInside c [] where
  head := by simp
  goesOn := .nil

theorem append (h : OnlyInside c cs) (h' : OnlyInside c ds) : OnlyInside c (cs ++ ds) where
  head := by
    cases cs with
    | nil => exact h'.head
    | cons a cs => exact h.head
  goesOn := h.goesOn.append h'

theorem of_notMem (h : c ∉ cs) : OnlyInside c cs where
  head hhead := h (List.mem_of_head? hhead)
  goesOn := by
    refine (List.pairwise_of_forall_mem_list fun a _ b hb hbc ↦ ?_).isChain
    subst hbc
    exact absurd hb h

theorem of_word (hhead : cs.head? ≠ some c) (h : ∀ a ∈ cs, Text.isWordChar a = true) :
    OnlyInside c cs where
  head := hhead
  goesOn := .of_word h

end OnlyInside

/-- Each time that the character stands in what the pattern covers it goes on a word. -/
def Shuns (p : Pattern) (c : Char) : Prop :=
  ∀ ⦃r r' : Reached⦄, p.Reaches r r' → ∃ cs, OnlyInside c cs ∧ r.place.Passes cs r'.place

namespace Shuns

theorem nothing (c : Char) : Shuns nothing c := by
  rintro r r' rfl
  exact ⟨[], .nil c, .refl _⟩

theorem wordEdge (c : Char) : Shuns wordEdge c := by
  rintro r r' ⟨rfl, -⟩
  exact ⟨[], .nil c, .refl _⟩

theorem run {accepts : Char → Bool} (h : accepts c = false) : Shuns (run accepts) c := by
  rintro r r' ⟨cs, hcs, hpasses, -⟩
  refine ⟨cs, .of_notMem fun hmem ↦ ?_, hpasses⟩
  exact absurd (hcs c hmem) (by rw [h]; exact Bool.false_ne_true)

theorem one {accepts : Char → Bool} (h : accepts c = false) : Shuns (one accepts) c := by
  rintro r r' ⟨d, hd, hpasses, -⟩
  refine ⟨[d], .of_notMem fun hmem ↦ ?_, hpasses⟩
  obtain rfl := List.mem_singleton.1 hmem
  exact absurd hd (by rw [h]; exact Bool.false_ne_true)

theorem both (hp : p.Shuns c) (hq : q.Shuns c) : Shuns (both p q) c := by
  rintro r r' ⟨r₁, h, h'⟩
  obtain ⟨cs, hcs, hpasses⟩ := hp h
  obtain ⟨ds, hds, hpasses'⟩ := hq h'
  exact ⟨cs ++ ds, hcs.append hds, hpasses.trans hpasses'⟩

theorem either (hp : p.Shuns c) (hq : q.Shuns c) : Shuns (either p q) c := by
  rintro r r' (h | h)
  · exact hp h
  · exact hq h

theorem oneOf {ps : List Pattern} (h : ∀ p ∈ ps, p.Shuns c) : (oneOf ps).Shuns c := by
  induction ps with
  | nil => exact nothing c
  | cons p ps ih =>
    obtain ⟨hp, hps⟩ := List.forall_mem_cons.1 h
    cases ps with
    | nil => exact hp
    | cons q ps => exact hp.either (ih hps)

theorem blanks1 (h : Text.isBlank c = false) : Shuns blanks1 c :=
  (one h).both (run h)

theorem word {s : String}
    (h : s.toList.head? ≠ some c ∧ ∀ a ∈ s.toList, Text.isWordChar a = true) : (word s).Shuns c :=
  fun _ _ hreaches ↦ ⟨s.toList, .of_word h.1 h.2, hreaches.of_word⟩

/-- A word that begins with a character of a class. -/
theorem wordOf {accepts : Char → Bool} (h : accepts c = false)
    (hword : ∀ a, accepts a = true → Text.isWordChar a = true) :
    Shuns (.both (.one accepts) (.run Text.isWordChar)) c := by
  rintro r r' ⟨r₁, ⟨d, hd, hpasses, -⟩, cs, hcs, hpasses', -⟩
  refine ⟨d :: cs, .of_word ?_ (List.forall_mem_cons.2 ⟨hword d hd, hcs⟩), hpasses.trans hpasses'⟩
  rintro ⟨⟩
  exact absurd hd (by rw [h]; exact Bool.false_ne_true)

end Shuns

/-- The pattern begins at the edge of a word with this character, and each other time that the
character stands in what it covers it goes on a word. -/
def OpensWord (p : Pattern) (c : Char) : Prop :=
  ∀ ⦃r r' : Reached⦄, p.Reaches r r' → r.place.atWordEdge = true ∧
    ∃ cs, r.place.Passes (c :: cs) r'.place ∧ GoesOn c (c :: cs)

theorem opensWord_word {s : String} (hs : s.toList = c :: cs)
    (hword : ∀ a ∈ s.toList, Text.isWordChar a = true) (hq : q.Shuns c) :
    (both wordEdge (both (word s) q)).OpensWord c := by
  rintro r r' ⟨_, ⟨rfl, hedge⟩, r₁, h, h'⟩
  obtain ⟨ds, hds, hpasses⟩ := hq h'
  have hcs := h.of_word
  rw [hs] at hcs hword
  exact ⟨hedge, cs ++ ds, hcs.trans hpasses, (GoesOn.of_word hword).append hds⟩

namespace OpensWord

theorem both (hp : p.OpensWord c) (hq : q.Shuns c) : OpensWord (both p q) c := by
  rintro r r' ⟨r₁, h, h'⟩
  obtain ⟨hedge, cs, hpasses, hgoesOn⟩ := hp h
  obtain ⟨ds, hds, hpasses'⟩ := hq h'
  exact ⟨hedge, cs ++ ds, hpasses.trans hpasses', hgoesOn.append hds⟩

/-- **A pattern that begins with a word is separate** if no other word in it begins like this. -/
theorem separate (hp : p.OpensWord c) (hc : Text.isWordChar c = true) : p.Separate where
  ne_nil {r r' cs'} h hpasses := by
    obtain ⟨-, cs, hcs, -⟩ := hp h
    rw [hpasses.unique hcs]
    exact List.cons_ne_nil _ _
  inside {r r' r₁ r₂ front back} h hfront hback hne hne' h' := by
    obtain ⟨-, cs, hcs, hgoesOn⟩ := hp h
    obtain ⟨hedge, ds, hds, -⟩ := hp h'
    rw [← (hfront.trans hback).unique hcs] at hgoesOn
    -- the way inside begins with the character, and a word character stands before it
    obtain ⟨back, rfl⟩ := hds.eq_cons_of_passes hback hne'
    obtain ⟨front, w, rfl⟩ := (List.eq_nil_or_concat' front).resolve_left hne
    rw [List.append_assoc, List.singleton_append] at hgoesOn
    have hw : Text.isWordChar w = true := (List.isChain_append_cons_cons.1 hgoesOn).2.1 rfl
    rw [Place.atWordEdge, hds.ahead, hfront.before] at hedge
    simp [hw, hc] at hedge

end OpensWord

end Pattern

end ChangeContext
