import ChangeContext.Proofs.Bundle.Shape
import ChangeContext.Proofs.Cache.Keying

/-!
# Taking over a snapshot as a whole or not at all

A snapshot is taken over just if the file holds text, the text is JSON, and the value is in every part
what a snapshot looks like (`Json.IsSnapshot`), down to the last field of the last file record.  If
anything is wrong anywhere, the cache stays as it is.  Otherwise what the cache held before is gone
without a trace: the entries and the counters are those of the snapshot.
-/

set_option autoImplicit false

namespace ChangeContext

open Json (IsText IsWord IsList IsRecord Field Recognizes isSome_field_iff)

namespace Cache

/-! ## What a snapshot looks like -/

/-- The fields of an entry. -/
def Entry.fields : List Field :=
  [.required "key" IsText,
    .required "files" (IsList IsText),
    .required "staleness_hash" IsText,
    .required "bundle" (IsRecord Bundle.fields),
    .required "created_at" IsInstant]

theorem Entry.recognizes : Recognizes Entry.ofJson? (IsRecord Entry.fields) := by
  refine Json.recognizes_record Entry.fields fun values hlength ↦ ?_
  match values, hlength with
  | [_, _, _, _, _], _ =>
    refine isSome_field_iff (Json.recognizes_text.required _ _) fun _ ↦ ?_
    refine isSome_field_iff (Path.recognizes.list.required _ _) fun _ ↦ ?_
    refine isSome_field_iff (Json.recognizes_text.required _ _) fun _ ↦ ?_
    refine isSome_field_iff (Bundle.recognizes.required _ _) fun _ ↦ ?_
    refine isSome_field_iff (Instant.recognizes.required _ _) fun _ ↦ ?_
    simp

/-- The fields of the counters. -/
def Counters.fields : List Field :=
  [.required "hits" IsWord,
    .required "misses" IsWord]

theorem Counters.recognizes : Recognizes Counters.ofJson? (IsRecord Counters.fields) := by
  refine Json.recognizes_record Counters.fields fun values hlength ↦ ?_
  match values, hlength with
  | [_, _], _ =>
    refine isSome_field_iff (Json.recognizes_nat.required _ _) fun _ ↦ ?_
    refine isSome_field_iff (Json.recognizes_nat.required _ _) fun _ ↦ ?_
    simp

/-- The fields of a snapshot, whose version has to be the one that is supported. -/
def Snapshot.fields : List Field :=
  [.required "version" (· = .nat 1),
    .required "exported_at" IsInstant,
    .required "stats" (IsRecord Counters.fields),
    .required "entries" (IsList (IsRecord Entry.fields))]

theorem Snapshot.recognizes : Recognizes Snapshot.ofJson? (IsRecord Snapshot.fields) := by
  refine Json.recognizes_record Snapshot.fields fun values hlength ↦ ?_
  match values, hlength with
  | [version, _, _, _], _ =>
    -- the version is compared last, when all other fields have been read
    refine Json.isSome_field_iff_of_only 1 ?_ ?_ fun n hn ↦ ?_
    · simp [Json.required?, Option.bind_eq_some_iff, Json.asNatBelow?_eq_some_iff, Field.required]
    · refine isSome_field_iff (Instant.recognizes.required _ _) fun _ ↦ ?_
      refine isSome_field_iff (Counters.recognizes.required _ _) fun _ ↦ ?_
      refine isSome_field_iff (Entry.recognizes.list.required _ _) fun _ ↦ ?_
      simp [snapshotVersion]
    · simp [snapshotVersion, hn]

/-! ## Taking a snapshot over -/

/-- These bytes are a snapshot: they are text, the text is JSON, and the value looks like a snapshot in
every part. -/
def IsSnapshot (bytes : ByteArray) : Prop :=
  ∃ text v, String.fromUTF8? bytes = some text ∧ Json.read? text = some v ∧
    IsRecord Snapshot.fields v

section Import

variable {c c' : Cache} {t t' : FileTree} {path path' : Path}

/-- The text of a file is that of a snapshot just if its bytes are a snapshot. -/
theorem isSome_ofText?_readText?_iff :
    ((t.readText? path).bind Snapshot.ofText?).isSome = true ↔
      ∃ bytes modified, t.file? path = some (bytes, modified) ∧ IsSnapshot bytes := by
  have htext (s : String) : (Snapshot.ofText? s).isSome = true ↔
      ∃ v, Json.read? s = some v ∧ IsRecord Snapshot.fields v := by
    rw [Snapshot.ofText?]
    cases Json.read? s with
    | none => simp
    | some v => simpa using Snapshot.recognizes v
  rw [FileTree.readText?]
  cases hfile : t.file? path with
  | none => simp
  | some f =>
    obtain ⟨bytes, modified⟩ := f
    rw [Option.bind_some]
    cases hbytes : String.fromUTF8? bytes with
    | none => simp [IsSnapshot, hbytes]
    | some text => simp [IsSnapshot, hbytes, htext]

/-- **A snapshot is taken over just if nothing is wrong with it**, whatever the cache is like. -/
theorem isSome_importFrom?_iff (c : Cache) (t : FileTree) (path : Path) :
    (c.importFrom? t path).isSome = true ↔
      ∃ bytes modified, t.file? path = some (bytes, modified) ∧ IsSnapshot bytes := by
  rw [importFrom?, Option.isSome_map, isSome_ofText?_readText?_iff]

/-- What the cache held before does not matter, and neither does the place of the file. -/
theorem exists_importFrom?_of_same_text (himport : c.importFrom? t path = some c') (d : Cache)
    (hsame : t'.readText? path' = t.readText? path) :
    ∃ d', d.importFrom? t' path' = some d' ∧ d'.entries = c'.entries ∧ d'.counters = c'.counters := by
  obtain ⟨s, hs, rfl⟩ := Option.map_eq_some_iff.1 himport
  exact ⟨d.restore s, by rw [importFrom?, hsame, hs, Option.map_some], rfl, rfl⟩

end Import

/-- **A snapshot is taken over as a whole or not at all.**  It is taken over just if there is a file and
its bytes are a snapshot.  If they are not, an engine that is told to take it over says so, and neither
its cache nor any file is changed; nor is its cache when it is opened with such a snapshot.  If they are,
the entries and the counters are those of the snapshot, of several entries under one key the last, and
any other cache that takes over the same text has the same entries and the same counters. -/
theorem importFrom?_as_a_whole (c : Cache) (t : FileTree) (path : Path) :
    ((c.importFrom? t path).isSome = true ↔
      ∃ bytes modified, t.file? path = some (bytes, modified) ∧ IsSnapshot bytes) ∧
    (c.importFrom? t path = none → ∀ p : Project,
      (∀ clock, (⟨p, c⟩ : Engine).act t clock (.importFrom path) =
        (.ok s!"Snapshot {path.text} could not be read; cache unchanged\n", ⟨p, c⟩, t)) ∧
      ((⟨p, c⟩ : Engine).snapshotPath = path → (⟨p, c⟩ : Engine).loadSnapshot t = ⟨p, c⟩)) ∧
    (∀ c', c.importFrom? t path = some c' →
      (∀ (p : Project) clock, ∃ t', (⟨p, c⟩ : Engine).act t clock (.importFrom path) =
        (.ok s!"Imported cache from {path.text}\n", ⟨p, c'⟩, t')) ∧
      (∃ s, (t.readText? path).bind Snapshot.ofText? = some s ∧ c'.counters = s.counters ∧
        ∀ k, c'.entries.get? k = s.last? k) ∧
      ∀ (d : Cache) t' path', t'.readText? path' = t.readText? path →
        ∃ d', d.importFrom? t' path' = some d' ∧ d'.entries = c'.entries ∧
          d'.counters = c'.counters) := by
  refine ⟨isSome_importFrom?_iff c t path, fun hnone p ↦ ⟨fun clock ↦ ?_, ?_⟩,
    fun c' himport ↦ ⟨fun p clock ↦ ?_, ?_, fun d t' path' ↦ ?_⟩⟩
  · rw [Engine.act, hnone]
  · rintro rfl
    rw [Engine.loadSnapshot_eq, hnone, Option.getD_none]
  · rw [Engine.act, himport]
    exact ⟨_, rfl⟩
  · obtain ⟨s, hs, rfl⟩ := Option.map_eq_some_iff.1 himport
    exact ⟨s, hs, rfl, get?_restore c s⟩
  · exact exists_importFrom?_of_same_text himport d

end Cache

end ChangeContext
