import ChangeContext.Bundle.Codec
import ChangeContext.Proofs.Instant.Text
import ChangeContext.Proofs.Json.Record
import ChangeContext.Proofs.NameMap

/-!
# Bundles survive JSON

A bundle that was written as JSON is read back as it was, part by part.  What can go wrong is only
what JSON has no room for: a number of more than 64 bits, and an instant that the calendar does not
have.  `Bundle.Fits` says that a bundle has neither, and every bundle that was ever read fits.

Every record is treated the same way.  Its fields are found by `Json.fields?_record`, and then each
of them is read by the codec of its own part.
-/

set_option autoImplicit false

namespace ChangeContext

/-! ## Single values -/

theorem Path.codec : Json.Codec (fun _ ↦ True) Path.toJson Path.ofJson? where
  reads _ _ := rfl
  yields _ _ _ := trivial

/-- An instant survives as long as the calendar has it. -/
theorem Instant.codec : Json.Codec Instant.Valid Instant.toJson Instant.ofJson? where
  reads t h := by
    rw [ofJson?, toJson, Json.codec_text.reads _ trivial, Option.bind_some, read?_toText h]
  yields v t h := by
    rw [ofJson?] at h
    obtain ⟨text, -, hread⟩ := Option.bind_eq_some_iff.1 h
    exact valid_of_read? hread

namespace Style

/-- A choice survives as long as its word is the word for nothing else. -/
theorem codec_choice {α : Type} [BEq α] {words : List (String × α)}
    (h : ∀ a, words.lookup (wordFor words a) = some a) :
    Json.Codec (fun _ ↦ True) (fun a ↦ .text (wordFor words a)) (Json.asChoice? words) where
  reads a _ := h a
  yields _ _ _ := trivial

theorem codec_indentation :
    Json.Codec (fun _ ↦ True) (fun a ↦ .text (wordFor indentations a))
      (Json.asChoice? indentations) :=
  codec_choice fun a ↦ by cases a <;> decide

theorem codec_quotes :
    Json.Codec (fun _ ↦ True) (fun a ↦ .text (wordFor quoteKinds a)) (Json.asChoice? quoteKinds) :=
  codec_choice fun a ↦ by cases a <;> decide

theorem codec_asyncStyle :
    Json.Codec (fun _ ↦ True) (fun a ↦ .text (wordFor asyncStyles a))
      (Json.asChoice? asyncStyles) :=
  codec_choice fun a ↦ by cases a <;> decide

theorem codec_naming :
    Json.Codec (fun _ ↦ True) (fun a ↦ .text (wordFor namings a)) (Json.asChoice? namings) :=
  codec_choice fun a ↦ by cases a <;> decide

theorem codec : Json.Codec (fun s ↦ Json.FitsWord s.indentSize) toJson ofJson? where
  reads s h := by
    rw [ofJson?]
    refine Option.bind_eq_some_iff.2 ⟨_, Json.fields?_record _ (by simp), ?_⟩
    refine Option.bind_eq_some_iff.2 ⟨_, codec_indentation.required trivial, ?_⟩
    refine Option.bind_eq_some_iff.2 ⟨_, Json.codec_nat.required h, ?_⟩
    refine Option.bind_eq_some_iff.2 ⟨_, codec_quotes.required trivial, ?_⟩
    refine Option.bind_eq_some_iff.2 ⟨_, Json.codec_bool.required trivial, ?_⟩
    refine Option.bind_eq_some_iff.2 ⟨_, codec_asyncStyle.required trivial, ?_⟩
    refine Option.bind_eq_some_iff.2 ⟨_, codec_naming.required trivial, ?_⟩
    rfl
  yields v s h := by
    rw [ofJson?] at h
    obtain ⟨fields, -, h⟩ := Option.bind_eq_some_iff.1 h
    split at h
    next =>
      obtain ⟨_, -, h⟩ := Option.bind_eq_some_iff.1 h
      obtain ⟨size, hsize, h⟩ := Option.bind_eq_some_iff.1 h
      obtain ⟨_, -, h⟩ := Option.bind_eq_some_iff.1 h
      obtain ⟨_, -, h⟩ := Option.bind_eq_some_iff.1 h
      obtain ⟨_, -, h⟩ := Option.bind_eq_some_iff.1 h
      obtain ⟨_, -, h⟩ := Option.bind_eq_some_iff.1 h
      exact Option.some_inj.1 h ▸ Json.codec_nat.of_required hsize
    next => simp at h

end Style

/-! ## Files and counts -/

namespace FileRecord

/-- The size has 64 bits and the calendar has the time of the last change. -/
structure Fits (r : FileRecord) : Prop where
  size : Json.FitsWord r.size
  modified : ∀ t ∈ r.modified, t.Valid

instance (r : FileRecord) : Decidable r.Fits :=
  decidable_of_iff (Json.FitsWord r.size ∧ ∀ t ∈ r.modified, t.Valid)
    ⟨fun h ↦ ⟨h.1, h.2⟩, fun h ↦ ⟨h.size, h.modified⟩⟩

theorem codec : Json.Codec Fits toJson ofJson? where
  reads r h := by
    rw [ofJson?]
    refine Option.bind_eq_some_iff.2 ⟨_, Json.fields?_record _ (by simp), ?_⟩
    refine Option.bind_eq_some_iff.2 ⟨_, Path.codec.required trivial, ?_⟩
    refine Option.bind_eq_some_iff.2 ⟨_, Json.codec_text.required trivial, ?_⟩
    refine Option.bind_eq_some_iff.2 ⟨_, Json.codec_text.required trivial, ?_⟩
    refine Option.bind_eq_some_iff.2 ⟨_, Json.codec_nat.required h.size, ?_⟩
    refine Option.bind_eq_some_iff.2
      ⟨_, Instant.codec.absent (fun _ heq ↦ by cases heq) h.modified, ?_⟩
    refine Option.bind_eq_some_iff.2 ⟨_, Json.codec_bool.required trivial, ?_⟩
    rfl
  yields v r h := by
    rw [ofJson?] at h
    obtain ⟨fields, -, h⟩ := Option.bind_eq_some_iff.1 h
    split at h
    next =>
      obtain ⟨_, -, h⟩ := Option.bind_eq_some_iff.1 h
      obtain ⟨_, -, h⟩ := Option.bind_eq_some_iff.1 h
      obtain ⟨_, -, h⟩ := Option.bind_eq_some_iff.1 h
      obtain ⟨size, hsize, h⟩ := Option.bind_eq_some_iff.1 h
      obtain ⟨modified, hmodified, h⟩ := Option.bind_eq_some_iff.1 h
      obtain ⟨_, -, h⟩ := Option.bind_eq_some_iff.1 h
      exact Option.some_inj.1 h ▸
        ⟨Json.codec_nat.of_required hsize, Instant.codec.of_absent hmodified⟩
    next => simp at h

end FileRecord

namespace RankedItem

theorem codec : Json.Codec (fun i ↦ Json.FitsWord i.count) toJson ofJson? where
  reads i h := by
    rw [ofJson?]
    refine Option.bind_eq_some_iff.2 ⟨_, Json.fields?_record _ (by simp), ?_⟩
    refine Option.bind_eq_some_iff.2 ⟨_, Json.codec_text.required trivial, ?_⟩
    refine Option.bind_eq_some_iff.2 ⟨_, Json.codec_nat.required h, ?_⟩
    rfl
  yields v i h := by
    rw [ofJson?] at h
    obtain ⟨fields, -, h⟩ := Option.bind_eq_some_iff.1 h
    split at h
    next =>
      obtain ⟨_, -, h⟩ := Option.bind_eq_some_iff.1 h
      obtain ⟨count, hcount, h⟩ := Option.bind_eq_some_iff.1 h
      exact Option.some_inj.1 h ▸ Json.codec_nat.of_required hcount
    next => simp at h

end RankedItem

/-! ## The project -/

namespace ProjectFlags

theorem codec : Json.Codec (fun _ ↦ True) toJson ofJson? where
  reads f _ := by
    rw [ofJson?]
    refine Option.bind_eq_some_iff.2 ⟨_, Json.fields?_record _ (by simp), ?_⟩
    refine Option.bind_eq_some_iff.2 ⟨_, Json.codec_bool.required trivial, ?_⟩
    refine Option.bind_eq_some_iff.2 ⟨_, Json.codec_bool.required trivial, ?_⟩
    refine Option.bind_eq_some_iff.2
      ⟨_, Json.codec_text.absent (fun _ heq ↦ by cases heq) fun _ _ ↦ trivial, ?_⟩
    refine Option.bind_eq_some_iff.2 ⟨_, Json.codec_text.list.required fun _ _ ↦ trivial, ?_⟩
    rfl
  yields _ _ _ := trivial

end ProjectFlags

namespace StructureSummary

/-- All numbers of files have 64 bits. -/
structure Fits (s : StructureSummary) : Prop where
  counts : ∀ e ∈ s.fileCounts.toList, Json.FitsWord e.2
  total : Json.FitsWord s.totalFiles

instance (s : StructureSummary) : Decidable s.Fits :=
  decidable_of_iff ((∀ e ∈ s.fileCounts.toList, Json.FitsWord e.2) ∧ Json.FitsWord s.totalFiles)
    ⟨fun h ↦ ⟨h.1, h.2⟩, fun h ↦ ⟨h.counts, h.total⟩⟩

/-- The members of a record of numbers are read back in order. -/
theorem asMembers?_record {l : List (String × Nat)} (h : ∀ e ∈ l, Json.FitsWord e.2) :
    Json.asMembers? Json.asNat? (.record (l.map fun e ↦ (e.1, .nat e.2))) = some l := by
  rw [Json.record, Json.asMembers?, List.map_map]
  induction l with
  | nil => rfl
  | cons e l ih =>
    have he := Json.codec_nat.reads e.2 (h e (List.mem_cons_self ..))
    rw [List.map_cons, List.mapM_cons, ih fun d hd ↦ h d (List.mem_cons_of_mem _ hd)]
    simp only [Function.comp_apply, he]
    rfl

/-- Only numbers of 64 bits are read from an object of numbers. -/
theorem fitsWord_of_asMembers? {v : Json} {l : List (String × Nat)}
    (h : Json.asMembers? Json.asNat? v = some l) : ∀ e ∈ l, Json.FitsWord e.2 := by
  rw [Json.asMembers?.eq_def] at h
  split at h
  next members =>
    induction members generalizing l with
    | nil =>
      obtain rfl : [] = l := Option.some_inj.1 h
      simp
    | cons m members ih =>
      rw [List.mapM_cons] at h
      obtain ⟨a, ha, h⟩ := Option.bind_eq_some_iff.1 h
      obtain ⟨rest, hrest, h⟩ := Option.bind_eq_some_iff.1 h
      obtain rfl : a :: rest = l := Option.some_inj.1 h
      obtain ⟨name, -, ha⟩ := Option.bind_eq_some_iff.1 ha
      obtain ⟨n, hn, ha⟩ := Option.bind_eq_some_iff.1 ha
      obtain rfl : (name, n) = a := Option.some_inj.1 ha
      intro e he
      rcases List.mem_cons.1 he with rfl | he
      · exact Json.codec_nat.yields _ _ hn
      · exact ih hrest e he
  next => simp at h

theorem codec : Json.Codec Fits toJson ofJson? where
  reads s h := by
    rw [ofJson?]
    refine Option.bind_eq_some_iff.2 ⟨_, Json.fields?_record _ (by simp), ?_⟩
    refine Option.bind_eq_some_iff.2 ⟨_, Path.codec.list.required fun _ _ ↦ trivial, ?_⟩
    refine Option.bind_eq_some_iff.2 ⟨_, asMembers?_record h.counts, ?_⟩
    refine Option.bind_eq_some_iff.2 ⟨_, Json.codec_nat.required h.total, ?_⟩
    rw [NameMap.ofList_of_perm (List.Perm.refl _)]
    rfl
  yields v s h := by
    rw [ofJson?] at h
    obtain ⟨fields, -, h⟩ := Option.bind_eq_some_iff.1 h
    split at h
    next =>
      obtain ⟨_, -, h⟩ := Option.bind_eq_some_iff.1 h
      obtain ⟨counts, hcounts, h⟩ := Option.bind_eq_some_iff.1 h
      obtain ⟨total, htotal, h⟩ := Option.bind_eq_some_iff.1 h
      obtain ⟨v, -, hcounts⟩ := Option.bind_eq_some_iff.1 hcounts
      refine Option.some_inj.1 h ▸ ⟨fun e he ↦ ?_, Json.codec_nat.of_required htotal⟩
      have hmem := NameMap.mem_of_get?_ofList (NameMap.get?_eq_some_iff.2 he)
      exact fitsWord_of_asMembers? hcounts e hmem
    next => simp at h

end StructureSummary

/-! ## Bundles -/

namespace Bundle

/-- No number has more than 64 bits, and the calendar has every instant. -/
structure Fits (b : Bundle) : Prop where
  related : ∀ r ∈ b.relatedFiles, r.Fits
  similar : ∀ r ∈ b.similarFiles, r.Fits
  style : Json.FitsWord b.style.indentSize
  imports : ∀ i ∈ b.commonImports, Json.FitsWord i.count
  patterns : ∀ i ∈ b.commonPatterns, Json.FitsWord i.count
  layout : b.layout.Fits
  assembledAt : b.assembledAt.Valid

instance (b : Bundle) : Decidable b.Fits :=
  decidable_of_iff
    ((∀ r ∈ b.relatedFiles, r.Fits) ∧ (∀ r ∈ b.similarFiles, r.Fits) ∧
      Json.FitsWord b.style.indentSize ∧ (∀ i ∈ b.commonImports, Json.FitsWord i.count) ∧
      (∀ i ∈ b.commonPatterns, Json.FitsWord i.count) ∧ b.layout.Fits ∧ b.assembledAt.Valid)
    ⟨fun ⟨related, similar, style, imports, patterns, layout, assembledAt⟩ ↦
        ⟨related, similar, style, imports, patterns, layout, assembledAt⟩,
      fun h ↦ ⟨h.related, h.similar, h.style, h.imports, h.patterns, h.layout, h.assembledAt⟩⟩

/-- A bundle with nothing in it fits. -/
theorem fits_default : (default : Bundle).Fits := by decide

/-- **A bundle that fits is read back from its JSON, and only bundles that fit are ever read.** -/
theorem codec : Json.Codec Fits toJson ofJson? where
  reads b h := by
    rw [ofJson?]
    refine Option.bind_eq_some_iff.2 ⟨_, Json.fields?_record _ (by simp), ?_⟩
    refine Option.bind_eq_some_iff.2 ⟨_, Json.codec_text.required trivial, ?_⟩
    refine Option.bind_eq_some_iff.2 ⟨_, FileRecord.codec.list.required h.related, ?_⟩
    refine Option.bind_eq_some_iff.2 ⟨_, FileRecord.codec.list.required h.similar, ?_⟩
    refine Option.bind_eq_some_iff.2 ⟨_, Style.codec.required h.style, ?_⟩
    refine Option.bind_eq_some_iff.2 ⟨_, RankedItem.codec.list.required h.imports, ?_⟩
    refine Option.bind_eq_some_iff.2 ⟨_, RankedItem.codec.list.required h.patterns, ?_⟩
    refine Option.bind_eq_some_iff.2 ⟨_, ProjectFlags.codec.required trivial, ?_⟩
    refine Option.bind_eq_some_iff.2 ⟨_, StructureSummary.codec.required h.layout, ?_⟩
    refine Option.bind_eq_some_iff.2 ⟨_, Instant.codec.required h.assembledAt, ?_⟩
    rfl
  yields v b h := by
    rw [ofJson?] at h
    obtain ⟨fields, -, h⟩ := Option.bind_eq_some_iff.1 h
    split at h
    next =>
      obtain ⟨_, -, h⟩ := Option.bind_eq_some_iff.1 h
      obtain ⟨related, hrelated, h⟩ := Option.bind_eq_some_iff.1 h
      obtain ⟨similar, hsimilar, h⟩ := Option.bind_eq_some_iff.1 h
      obtain ⟨style, hstyle, h⟩ := Option.bind_eq_some_iff.1 h
      obtain ⟨imports, himports, h⟩ := Option.bind_eq_some_iff.1 h
      obtain ⟨patterns, hpatterns, h⟩ := Option.bind_eq_some_iff.1 h
      obtain ⟨_, -, h⟩ := Option.bind_eq_some_iff.1 h
      obtain ⟨layout, hlayout, h⟩ := Option.bind_eq_some_iff.1 h
      obtain ⟨assembledAt, hassembledAt, h⟩ := Option.bind_eq_some_iff.1 h
      obtain rfl := Option.some_inj.1 h
      exact {
        related := FileRecord.codec.list.of_required hrelated
        similar := FileRecord.codec.list.of_required hsimilar
        style := Style.codec.of_required hstyle
        imports := RankedItem.codec.list.of_required himports
        patterns := RankedItem.codec.list.of_required hpatterns
        layout := StructureSummary.codec.of_required hlayout
        assembledAt := Instant.codec.of_required hassembledAt }
    next => simp at h

end Bundle

end ChangeContext
