import ChangeContext.Proofs.Pattern.Occurrences
import ChangeContext.Proofs.Style.Votes

/-!
# The vote on names

Names are voted on by letter transitions: a small letter and a capital behind it, or two small letters
with an underscore between them.  Transitions of the first kind never share a character, so all of
them are counted.  Those of the second kind can share a letter: in `a_b_c` the search for them finds
`a_b` and goes on behind it, and `b_c` is passed over.

So where transitions with an underscore stand in a chain, each sharing a letter with the next, every
other one of the chain is counted, beginning with the first.  The number of transitions that lead up
to a place without a break, `leadingUp`, tells which of them it is.
-/

set_option autoImplicit false

namespace ChangeContext

namespace Style

open Pattern
open Place (between)

/-! ## Places of transitions -/

/-- A capital behind a small letter stands ahead. -/
def camelAhead : List Char → Bool
  | a :: b :: _ => isSmall a && isCapital b
  | _ => false

/-- Two small letters with an underscore between them stand ahead. -/
def snakeAhead : List Char → Bool
  | a :: u :: b :: _ => isSmall a && u == '_' && isSmall b
  | _ => false

/-- The number of transitions with an underscore that lead up to a place, each sharing a letter with
the next, where the last shares the letter that the place is at.  What stands before the place is
given nearest character first. -/
def leadingUp : List Char → Nat
  | u :: a :: before => if u == '_' && isSmall a then leadingUp before + 1 else 0
  | _ => 0

/-- The number of places from one on where the test holds of what stands before, nearest character
first, and what stands ahead. -/
def placesFrom (test : List Char → List Char → Bool) : (before ahead : List Char) → Nat
  | _, [] => 0
  | before, c :: rest =>
    placesFrom test (c :: before) rest + if test before (c :: rest) then 1 else 0

/-- The places of a text where a small letter is directly followed by a capital. -/
def camelPlaces (text : List Char) : Nat :=
  placesFrom (fun _ ahead ↦ camelAhead ahead) [] text

/-- The places of a text where a small letter, an underscore and a small letter follow each other. -/
def snakePlaces (text : List Char) : Nat :=
  placesFrom (fun _ ahead ↦ snakeAhead ahead) [] text

/-- Those of them to which an odd number of transitions leads up. -/
def passedOver (text : List Char) : Nat :=
  placesFrom (fun before ahead ↦ snakeAhead ahead && leadingUp before % 2 == 1) [] text

/-! ## Transitions to a capital -/

section Camel

variable {before ahead : List Char}

theorem isCapital_eq_false {c : Char} (h : isSmall c = true) : isCapital c = false := by
  rw [isSmall, Bool.and_eq_true, decide_eq_true_eq] at h
  rw [isCapital, Bool.and_eq_false_iff, decide_eq_false_iff_not, decide_eq_false_iff_not]
  exact .inr fun hz ↦ absurd (Char.le_trans h.1 hz) (by decide)

theorem fitsAt_camelTransition (before ahead : List Char) :
    camelTransition.fitsAt before ahead = camelAhead ahead := by
  rw [Bool.eq_iff_iff]
  constructor
  · intro h
    obtain ⟨found, hfound⟩ := Option.isSome_iff_exists.1 h
    rw [matchAt?, camelTransition, fits_both] at hfound
    obtain ⟨a, _, rfl, ha, hsecond⟩ := of_fits_one hfound
    obtain ⟨b, rest, rfl, hb, -⟩ := of_fits_one hsecond
    rw [camelAhead, ha, hb, Bool.true_and]
  · intro h
    rcases ahead with _ | ⟨a, _ | ⟨b, rest⟩⟩
    · exact absurd h Bool.false_ne_true
    · exact absurd h Bool.false_ne_true
    · obtain ⟨ha, hb⟩ := Bool.and_eq_true_iff.1 h
      rw [fitsAt, matchAt?, camelTransition, fits_both, fits_one_of_accepts ha,
        fits_one_of_accepts hb]
      rfl

/-- No transition to a capital begins inside another one: it would begin with the capital. -/
theorem separate_camelTransition : camelTransition.Separate where
  ne_nil {r r' cs} h hpasses := by
    obtain ⟨a, cs', -, hcs⟩ := h.exists_passes_cons
    rw [hpasses.unique hcs]
    exact List.cons_ne_nil _ _
  inside {r r' r₁ r₂ front back} h hfront hback hne hne' h' := by
    obtain ⟨_, ⟨a, -, hfirst, -⟩, b, hb, hsecond, -⟩ := h
    obtain ⟨c, cs, hc, hahead⟩ := h'.exists_passes_cons
    have hcs : front ++ back = [a, b] := (hfront.trans hback).unique (hfirst.trans hsecond)
    obtain ⟨back, rfl⟩ := hahead.eq_cons_of_passes hback hne'
    obtain ⟨d, front, rfl⟩ := List.exists_cons_of_ne_nil hne
    obtain ⟨-, hcs⟩ := List.cons.inj hcs
    obtain ⟨rfl, rfl, rfl⟩ : front = [] ∧ c = b ∧ back = [] := by
      cases front <;> simp_all
    rw [isCapital_eq_false hc] at hb
    exact Bool.false_ne_true hb

/-- **All transitions to a capital are counted.** -/
theorem count_camelTransition (text : List Char) :
    camelTransition.count text = camelPlaces text := by
  have hplaces : ∀ ahead before, camelTransition.occurrencesFrom before ahead =
      placesFrom (fun _ ahead ↦ camelAhead ahead) before ahead := by
    intro ahead
    induction ahead with
    | nil => intro before; rw [occurrencesFrom_nil, fitsAt_camelTransition]; rfl
    | cons c rest ih =>
      intro before
      rw [occurrencesFrom_cons, fitsAt_camelTransition, ih, placesFrom]
  rw [separate_camelTransition.count_eq_occurrences, occurrences_eq, hplaces, camelPlaces]

end Camel

/-! ## Transitions with an underscore -/

section Snake

variable {before ahead rest : List Char} {a b c : Char}

theorem snakeAhead_eq_true_iff :
    snakeAhead ahead = true ↔
      ∃ a b rest, ahead = a :: '_' :: b :: rest ∧ isSmall a = true ∧ isSmall b = true := by
  constructor
  · intro h
    rcases ahead with _ | ⟨a, _ | ⟨u, _ | ⟨b, rest⟩⟩⟩
    · exact absurd h Bool.false_ne_true
    · exact absurd h Bool.false_ne_true
    · exact absurd h Bool.false_ne_true
    · obtain ⟨hau, hb⟩ := Bool.and_eq_true_iff.1 h
      obtain ⟨ha, hu⟩ := Bool.and_eq_true_iff.1 hau
      obtain rfl : u = '_' := beq_iff_eq.1 hu
      exact ⟨a, b, rest, rfl, ha, hb⟩
  · rintro ⟨a, b, rest, rfl, ha, hb⟩
    rw [snakeAhead, ha, hb]
    rfl

theorem isSmall_of_snakeAhead (h : snakeAhead (a :: rest) = true) : isSmall a = true := by
  obtain ⟨_, _, _, heq, ha, -⟩ := snakeAhead_eq_true_iff.1 h
  rwa [(List.cons.inj heq).1]

theorem matchAt?_snakeTransition_eq_none (h : snakeAhead ahead = false) :
    snakeTransition.matchAt? (between before ahead) = none := by
  by_contra hsome
  obtain ⟨found, hfound⟩ := Option.ne_none_iff_exists'.1 hsome
  rw [matchAt?, snakeTransition, fits_seq_cons] at hfound
  obtain ⟨a, _, rfl, ha, hfound⟩ := of_fits_one hfound
  rw [fits_seq_cons] at hfound
  obtain ⟨_, rfl, hfound⟩ := of_fits_char hfound
  obtain ⟨b, rest, rfl, hb, -⟩ := of_fits_one hfound
  rw [snakeAhead_eq_true_iff.2 ⟨a, b, rest, rfl, ha, hb⟩] at h
  exact Bool.false_ne_true h.symm

theorem exists_matchAt?_snakeTransition (before rest : List Char) (ha : isSmall a = true)
    (hb : isSmall b = true) :
    ∃ m, snakeTransition.matchAt? (between before (a :: '_' :: b :: rest)) =
      some (m, between (b :: '_' :: a :: before) rest) := by
  rw [matchAt?, snakeTransition, fits_seq_cons, fits_one_of_accepts ha, fits_seq_cons,
    fits_char_cons, fits_seq_cons, fits_one_of_accepts hb]
  exact ⟨_, rfl⟩

/-- A search that has come to this place takes a transition that begins there, and has not taken one
that begins at the character before. -/
structure Fresh (before ahead : List Char) : Prop where
  even : snakeAhead ahead = true → leadingUp before % 2 = 0
  odd : ∀ a before', before = a :: before' → snakeAhead (a :: ahead) = true →
    leadingUp before' % 2 = 1

theorem fresh_nil (ahead : List Char) : Fresh [] ahead where
  even _ := rfl
  odd _ _ h := absurd h (List.cons_ne_nil _ _).symm

/-- What leads up to a place within a transition: one more than to where the transition begins. -/
theorem leadingUp_cons_cons (before : List Char) (ha : isSmall a = true) :
    leadingUp ('_' :: a :: before) = leadingUp before + 1 := by
  rw [leadingUp, ha]
  rfl

/-- Nothing leads up to a place behind anything but an underscore. -/
theorem leadingUp_cons_of_ne (before : List Char) (hc : c ≠ '_') : leadingUp (c :: before) = 0 := by
  cases before with
  | nil => rfl
  | cons a before => rw [leadingUp, beq_eq_false_iff_ne.2 hc]; rfl

/-- The search goes on to the next place where no transition begins. -/
theorem Fresh.next (h : Fresh before (c :: rest)) (hc : snakeAhead (c :: rest) = false) :
    Fresh (c :: before) rest where
  even hrest := by
    by_cases hu : c = '_'
    · subst hu
      rcases before with _ | ⟨a, before⟩
      · rfl
      · by_cases ha : isSmall a = true
        · -- the transition that ends where the search is was not taken
          obtain ⟨b, d, rest, rfl, hb, -⟩ := snakeAhead_eq_true_iff.1 hrest
          have hodd := h.odd a before rfl (snakeAhead_eq_true_iff.2 ⟨a, b, _, rfl, ha, hb⟩)
          rw [leadingUp_cons_cons before ha]
          omega
        · rw [leadingUp, Bool.eq_false_iff.2 ha]
          rfl
    · rw [leadingUp_cons_of_ne before hu]
  odd a before' heq ha := by
    obtain ⟨rfl, rfl⟩ := List.cons.inj heq
    rw [hc] at ha
    exact absurd ha Bool.false_ne_true

/-- The search goes on behind a transition that it has taken. -/
theorem Fresh.behind (h : Fresh before (a :: '_' :: b :: rest)) (ha : isSmall a = true)
    (hb : isSmall b = true) : Fresh (b :: '_' :: a :: before) rest where
  even _ := by
    have hne : b ≠ '_' := by
      rintro rfl
      exact absurd hb (by decide)
    rw [leadingUp_cons_of_ne _ hne]
  odd a' before' heq _ := by
    obtain ⟨rfl, rfl⟩ := List.cons.inj heq
    have heven := h.even (snakeAhead_eq_true_iff.2 ⟨a, b, rest, rfl, ha, hb⟩)
    rw [leadingUp_cons_cons before ha]
    omega

/-- What the search takes from a place on and what it passes over are all the transitions. -/
theorem length_scan_snakeTransition (h : Fresh before ahead) :
    (snakeTransition.scan before ahead).length +
        placesFrom (fun before ahead ↦ snakeAhead ahead && leadingUp before % 2 == 1) before ahead =
      placesFrom (fun _ ahead ↦ snakeAhead ahead) before ahead := by
  induction hn : ahead.length using Nat.strong_induction_on generalizing before ahead with
  | _ n ih =>
    subst hn
    rcases ahead with _ | ⟨c, rest⟩
    · rw [scan_nil (matchAt?_snakeTransition_eq_none rfl)]
      rfl
    · by_cases hc : snakeAhead (c :: rest) = true
      · have heven := h.even hc
        obtain ⟨a, b, rest, heq, ha, hb⟩ := snakeAhead_eq_true_iff.1 hc
        obtain ⟨rfl, rfl⟩ := List.cons.inj heq
        obtain ⟨m, hm⟩ := exists_matchAt?_snakeTransition before rest ha hb
        have hinside : snakeAhead ('_' :: b :: rest) = false :=
          Bool.eq_false_iff.2 fun hu ↦ absurd (isSmall_of_snakeAhead hu) (by decide)
        have hbehind := ih rest.length (by simp only [List.length_cons]; omega) (h.behind ha hb) rfl
        have hscan : snakeTransition.scan before (c :: '_' :: b :: rest) =
            m :: snakeTransition.scan (b :: '_' :: c :: before) rest :=
          scan_of_matchAt? (List.cons_ne_nil c ['_', b]) hm
        have hodd : leadingUp ('_' :: c :: before) % 2 = 1 := by
          rw [leadingUp_cons_cons before ha]
          omega
        rw [hscan, List.length_cons]
        simp only [placesFrom, hc, hinside, heven, hodd, beq_self_eq_true, Nat.reduceBEq, Bool.and_true,
          Bool.and_false, Bool.false_and, Bool.false_eq_true, if_true, if_false]
        omega
      · have hc' := Bool.eq_false_iff.2 hc
        rw [scan_cons (matchAt?_snakeTransition_eq_none hc'), placesFrom, placesFrom, hc',
          Bool.false_and, if_neg Bool.false_ne_true]
        exact ih rest.length (Nat.lt_succ_self _) (h.next hc') rfl

/-- **The transitions with an underscore that are counted are those that are not passed over.** -/
theorem count_snakeTransition (text : List Char) :
    snakeTransition.count text + passedOver text = snakePlaces text :=
  length_scan_snakeTransition (fresh_nil text)

example : snakePlaces "a_b_c_d".toList = 3 ∧ passedOver "a_b_c_d".toList = 1 := by decide

end Snake

/-! ## The vote -/

/-- **Names are snake case just if more transitions with an underscore are found than transitions to
a capital.**  Of the former those are not found that others overlap: it is every other one where they
stand in a chain. -/
theorem naming_detect (contents : List String) :
    (detect contents).naming =
      if (contents.map fun c ↦ camelPlaces c.toList).sum +
            (contents.map fun c ↦ passedOver c.toList).sum <
          (contents.map fun c ↦ snakePlaces c.toList).sum
      then .snakeCase else .camelCase := by
  have hcamel := Votes.IsTotal.sampledVotes (f := Votes.camelTransitions) ⟨rfl, fun _ _ ↦ rfl⟩ rfl
    contents
  have hsnake := Votes.IsTotal.sampledVotes (f := Votes.snakeTransitions) ⟨rfl, fun _ _ ↦ rfl⟩ rfl
    contents
  have hfound : (contents.map fun c ↦ snakeTransition.count c.toList).sum +
      (contents.map fun c ↦ passedOver c.toList).sum =
        (contents.map fun c ↦ snakePlaces c.toList).sum := by
    rw [← List.sum_map_add]
    simp only [count_snakeTransition]
  simp only [Votes.ofContent, count_camelTransition] at hcamel hsnake
  rw [detect_eq, ofVotes, hcamel, hsnake]
  exact if_congr (by omega) rfl rfl

/-- One transition to a capital outvotes two with an underscore that overlap. -/
theorem naming_overlapping :
    (detect ["a_b_c aB"]).naming = .camelCase ∧
      camelPlaces "a_b_c aB".toList < snakePlaces "a_b_c aB".toList := by
  decide +kernel

end Style

end ChangeContext
