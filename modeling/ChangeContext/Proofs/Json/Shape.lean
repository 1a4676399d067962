import ChangeContext.Json.Decode
import Mathlib.Data.List.Forall2

/-!
# What readers accept

What a reader of JSON accepts is told here without the reader, by what the value has to look like.
A reader goes through a record field by field and stops at the first that is wrong, but the shape of a
record asks the same of all fields at once (`Json.IsRecord`), so it does not matter where in a document
something is wrong.

A reader recognizes a shape when it has an answer for the values of this shape and for no others.  For
a record this comes from its fields one by one: `isSome_field_iff` peels one field off, and
`recognizes_record` has the rest.
-/

set_option autoImplicit false

namespace ChangeContext

namespace Json

/-! ## Shapes -/

/-- A text that names characters. -/
def IsText (v : Json) : Prop :=
  ∃ s, v = text s

/-- A truth value. -/
def IsBool (v : Json) : Prop :=
  ∃ b, v = bool b

/-- A numeral for a natural number of 64 bits. -/
def IsWord (v : Json) : Prop :=
  ∃ n < 18446744073709551616, v = nat n

/-- One of these words, as a text or as the name of a null. -/
def IsOneOf (words : List String) (v : Json) : Prop :=
  ∃ w ∈ words, v = text w ∨ v = object [(some w, null)]

/-- A list of such values. -/
def IsList (P : Json → Prop) (v : Json) : Prop :=
  ∃ items, v = array items ∧ ∀ i ∈ items, P i

/-- An object with such values under names of any kind. -/
def IsTable (P : Json → Prop) (v : Json) : Prop :=
  ∃ members, v = object members ∧ ∀ m ∈ members, m.1.isSome = true ∧ P m.2

/-- A field of a record: its name, and what it may hold, `none` being a field that is absent. -/
structure Field where
  name : String
  Holds : Option Json → Prop

/-- A field that has to be there. -/
def Field.required (name : String) (P : Json → Prop) : Field :=
  ⟨name, fun o ↦ ∃ v, o = some v ∧ P v⟩

/-- A field that may be absent or null. -/
def Field.optional (name : String) (P : Json → Prop) : Field :=
  ⟨name, fun o ↦ ∀ v, o = some v → v = null ∨ P v⟩

/-- The values of the members of this name. -/
def valuesOf (name : String) (members : List (Option String × Json)) : List Json :=
  (members.filter fun m ↦ m.1 == some name).map (·.2)

/-- A record of these fields: an object in which each of them stands at most once and holds what it
may, or an array of their values in order. -/
inductive IsRecord (fields : List Field) : Json → Prop
  | byName {members : List (Option String × Json)} (named : ∀ m ∈ members, m.1.isSome = true)
    (each : ∀ f ∈ fields, ∃ o, valuesOf f.name members = o.toList ∧ f.Holds o) :
    IsRecord fields (object members)
  | byPosition {items : List Json} (each : List.Forall₂ (fun f i ↦ f.Holds (some i)) fields items) :
    IsRecord fields (array items)

/-! ## Readers -/

/-- The reader has an answer for the values of this shape, and for no others. -/
def Recognizes {α : Type} (read : Json → Option α) (P : Json → Prop) : Prop :=
  ∀ v, (read v).isSome = true ↔ P v

theorem recognizes_text : Recognizes asText? IsText := by
  intro v
  cases v with
  | string s => cases s <;> simp [asText?, IsText, text]
  | _ => simp [asText?, IsText, text]

theorem recognizes_bool : Recognizes asBool? IsBool := by
  intro v
  cases v <;> simp [asBool?, IsBool]

theorem asNatBelow?_eq_some_iff {bound n : Nat} {v : Json} :
    asNatBelow? bound v = some n ↔ n < bound ∧ v = nat n := by
  rw [asNatBelow?.eq_def]
  split
  next m =>
    rw [nat, integer.injEq]
    split
    next h => grind
    next h => grind
  next v hv =>
    simp only [reduceCtorEq, false_iff, not_and]
    rintro - rfl
    exact hv n rfl

theorem recognizes_nat : Recognizes asNat? IsWord := by
  intro v
  simp [Option.isSome_iff_exists, asNat?, asNatBelow?_eq_some_iff, IsWord]

theorem recognizes_choice {α : Type} (choices : List (String × α)) :
    Recognizes (asChoice? choices) (IsOneOf (choices.map (·.1))) := by
  have hlookup (s : String) : (choices.lookup s).isSome = true ↔ s ∈ choices.map (·.1) := by
    induction choices with
    | nil => simp
    | cons c rest ih =>
      rw [List.lookup_cons, List.map_cons, List.mem_cons, ← ih]
      by_cases h : s = c.1
      · simp [h]
      · simp [h, beq_eq_false_iff_ne.2 h]
  intro v
  rw [asChoice?.eq_def]
  split
  next s => simp [hlookup, IsOneOf, text]
  next s => simp [hlookup, IsOneOf, text]
  next v htext hobject =>
    simp only [Option.isSome_none, Bool.false_eq_true, false_iff]
    rintro ⟨w, -, rfl | rfl⟩
    · exact htext w rfl
    · exact hobject w rfl

section Combinators

variable {α β : Type} {P : Json → Prop} {read : Json → Option α}

theorem isSome_mapM_iff {γ : Type} (f : γ → Option α) (l : List γ) :
    (l.mapM f).isSome = true ↔ ∀ x ∈ l, (f x).isSome = true := by
  induction l with
  | nil => simp
  | cons x l ih =>
    rw [List.mapM_cons, List.forall_mem_cons, ← ih]
    cases f x <;> cases l.mapM f <;> simp

theorem Recognizes.list (h : Recognizes read P) : Recognizes (asList? read) (IsList P) := by
  intro v
  cases v with
  | array items => simp [asList?, isSome_mapM_iff, IsList, h _]
  | _ => simp [asList?, IsList]

theorem Recognizes.members (h : Recognizes read P) : Recognizes (asMembers? read) (IsTable P) := by
  intro v
  cases v with
  | object members =>
    have hmember (m : Option String × Json) :
        (m.1.bind fun k ↦ (read m.2).bind fun a ↦ some (k, a)).isSome = true ↔
          m.1.isSome = true ∧ P m.2 := by
      rw [← h]
      obtain ⟨_ | k, v⟩ := m <;> cases read v <;> simp
    have hiff : IsTable P (object members) ↔ ∀ m ∈ members, m.1.isSome = true ∧ P m.2 := by
      simp [IsTable]
    rw [hiff]
    exact (isSome_mapM_iff _ _).trans (forall₂_congr fun m _ ↦ hmember m)
  | _ => simp [asMembers?, IsTable]

theorem Recognizes.map (h : Recognizes read P) (f : α → β) :
    Recognizes (fun v ↦ (read v).map f) P := by
  intro v
  rw [Option.isSome_map]
  exact h v

/-- What is read in one field does not matter to whether the others can be read. -/
theorem isSome_field_iff {f : Field} {fields : List Field} {o : Option Json}
    {values : List (Option Json)} {x : Option α} {g : α → Option β}
    (hx : x.isSome = true ↔ f.Holds o)
    (hg : ∀ a, (g a).isSome = true ↔ List.Forall₂ Field.Holds fields values) :
    (x.bind g).isSome = true ↔ List.Forall₂ Field.Holds (f :: fields) (o :: values) := by
  rw [List.forall₂_cons, ← hx]
  cases x with
  | none => simp
  | some a => simp [hg a]

/-- The same for a field of which only one value is any good to the rest. -/
theorem isSome_field_iff_of_only {f : Field} {fields : List Field} {o : Option Json}
    {values : List (Option Json)} {x : Option α} {g : α → Option β} (a : α)
    (hx : x = some a ↔ f.Holds o)
    (hg : (g a).isSome = true ↔ List.Forall₂ Field.Holds fields values)
    (hother : ∀ b, b ≠ a → g b = none) :
    (x.bind g).isSome = true ↔ List.Forall₂ Field.Holds (f :: fields) (o :: values) := by
  rw [List.forall₂_cons, ← hx, ← hg]
  cases x with
  | none => simp
  | some b =>
    by_cases hb : b = a
    · simp [hb]
    · simp [hb, hother b hb]

theorem Recognizes.required (h : Recognizes read P) (name : String) (o : Option Json) :
    (required? read o).isSome = true ↔ (Field.required name P).Holds o := by
  cases o with
  | none => simp [required?, Field.required]
  | some v => simp [required?, Field.required, h v]

theorem Recognizes.absent (h : Recognizes read P) (name : String) (o : Option Json) :
    (absent? read o).isSome = true ↔ (Field.optional name P).Holds o := by
  cases o with
  | none => simp [absent?, Field.optional]
  | some v =>
    have hiff : (Field.optional name P).Holds (some v) ↔ v = null ∨ P v := by
      simp [Field.optional]
    rw [absent?, asOption?.eq_def, hiff]
    split
    next => simp
    next hnull => rw [Option.isSome_map, h, or_iff_right hnull]

end Combinators

/-! ## Records -/

theorem valuesOf_eq_toList_iff {name : String} {members : List (Option String × Json)}
    {o : Option Json} :
    valuesOf name members = o.toList ↔
      occurrences name members ≤ 1 ∧ (members.find? fun m ↦ m.1 == some name).map (·.2) = o := by
  rw [valuesOf, occurrences, ← List.head?_filter]
  generalize members.filter (fun m ↦ m.1 == some name) = found
  match found with
  | [] => cases o <;> simp
  | [m] => cases o <;> simp
  | m :: n :: rest => cases o <;> simp

theorem forall₂_map_right_iff {fields : List Field} {find : String → Option Json} :
    List.Forall₂ Field.Holds fields ((fields.map (·.name)).map find) ↔
      ∀ f ∈ fields, f.Holds (find f.name) := by
  rw [List.map_map, List.forall₂_map_right_iff, List.forall₂_same]
  rfl

/-- **A record is recognized by its fields.** -/
theorem recognizes_record {α : Type} (fields : List Field) {build : List (Option Json) → Option α}
    (h : ∀ values, values.length = fields.length →
      ((build values).isSome = true ↔ List.Forall₂ Field.Holds fields values)) :
    Recognizes (fun v ↦ (v.fields? (fields.map (·.name))).bind build) (IsRecord fields) := by
  intro v
  cases v with
  | object members =>
    simp only [fields?]
    split
    next hfine =>
      rw [Bool.and_eq_true, List.all_eq_true, List.all_eq_true, List.forall_mem_map] at hfine
      rw [Option.bind_some, h _ (by simp), forall₂_map_right_iff]
      constructor
      · intro hall
        exact .byName hfine.1 fun f hf ↦
          ⟨_, valuesOf_eq_toList_iff.2 ⟨of_decide_eq_true (hfine.2 f hf), rfl⟩, hall f hf⟩
      · rintro ⟨-, heach⟩ f hf
        obtain ⟨o, hvalues, hholds⟩ := heach f hf
        rwa [(valuesOf_eq_toList_iff.1 hvalues).2]
    next hfine =>
      simp only [Option.bind_none, Option.isSome_none, Bool.false_eq_true, false_iff]
      rintro ⟨hnamed, heach⟩
      refine hfine ?_
      rw [Bool.and_eq_true, List.all_eq_true, List.all_eq_true, List.forall_mem_map]
      refine ⟨hnamed, fun f hf ↦ ?_⟩
      obtain ⟨o, hvalues, -⟩ := heach f hf
      exact decide_eq_true (valuesOf_eq_toList_iff.1 hvalues).1
  | array items =>
    simp only [fields?, List.length_map]
    have hiff : IsRecord fields (array items) ↔
        List.Forall₂ (fun f i ↦ Field.Holds f (some i)) fields items :=
      ⟨fun h ↦ by cases h; assumption, .byPosition⟩
    split
    next hlength =>
      rw [Option.bind_some, h _ (by rw [List.length_map, hlength]), List.forall₂_map_right_iff, hiff]
    next hlength =>
      simp only [Option.bind_none, Option.isSome_none, Bool.false_eq_true, false_iff, hiff]
      exact fun hall ↦ hlength hall.length_eq.symm
  | _ =>
    simp only [fields?, Option.bind_none, Option.isSome_none, Bool.false_eq_true, false_iff]
    intro h
    cases h

end Json

end ChangeContext
