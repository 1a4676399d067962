import ChangeContext.Proofs.Assembly.Limits
import ChangeContext.Proofs.Cache.Keying
import ChangeContext.Proofs.Engine.Restart

/-!
# Bundles beyond the limits

An engine keeps to its settings when it assembles a bundle, but its cache may know bundles that were
assembled under other settings.  They can get there in no other way than in a snapshot, so whatever an
engine answers keeps within its settings or was, but for the intent, in a snapshot that it has taken
over (`bundle_within_or_takenOver`).  Where settings are made stricter this is what happens: the next
engine answers with bundles as large as they were before (`not_within_of_stricter`).
-/

set_option autoImplicit false

namespace ChangeContext

namespace Cache

/-- The entry counts in the snapshot that is in this file. -/
def InSnapshot (t : FileTree) (path : Path) (x : Entry) : Prop :=
  ∃ s, (t.readText? path).bind Snapshot.ofText? = some s ∧ s.last? x.key = some x

variable {c c' : Cache} {t : FileTree} {path : Path} {P : Bundle → Prop}

theorem holds_importFrom? (himport : c.importFrom? t path = some c')
    (h : ∀ x, InSnapshot t path x → P x.bundle) : c'.Holds P := by
  obtain ⟨s, hs, rfl⟩ := Option.map_eq_some_iff.1 himport
  intro k x hx
  rw [get?_restore] at hx
  exact h x ⟨s, hs, (Snapshot.key_of_last? hx).symm ▸ hx⟩

end Cache

namespace Engine

/-- **In step with its snapshot, an engine holds the entries that count there.** -/
theorem InStep.inSnapshot_iff {e : Engine} {t : FileTree} (h : e.InStep t) {x : Cache.Entry} :
    Cache.InSnapshot t e.snapshotPath x ↔ e.cache.entries.get? x.key = some x := by
  have hcache := congrArg cache h.reopened
  rw [loadSnapshot_eq] at hcache
  constructor
  · rintro ⟨s, hs, hlast⟩
    have himport : (fresh e.project).cache.importFrom? t (fresh e.project).snapshotPath =
        some ((fresh e.project).cache.restore s) := Option.map_eq_some_iff.2 ⟨s, hs, rfl⟩
    rw [himport] at hcache
    rw [← hcache]
    exact (Cache.get?_restore _ s x.key).trans hlast
  · intro hx
    cases himport : (fresh e.project).cache.importFrom? t (fresh e.project).snapshotPath with
    | none =>
      rw [himport] at hcache
      rw [← hcache] at hx
      cases hx
    | some c =>
      obtain ⟨s, hs, rfl⟩ := Option.map_eq_some_iff.1 himport
      rw [himport] at hcache
      rw [← hcache] at hx
      exact ⟨s, hs, (Cache.get?_restore _ s x.key).symm.trans hx⟩

/-- The task has the engine take this entry over from a snapshot. -/
def Task.TakesOver (e : Engine) (t : FileTree) (x : Cache.Entry) : Task → Prop
  | .lookAfter action =>
    (e.cacheSettings.persist = false ∧ Cache.InSnapshot t e.snapshotPath x) ∨
      ∃ path, action = .importFrom path ∧ Cache.InSnapshot t path x
  | _ => False

/-- This holds of whatever a project assembles, and the intent does not matter to it. -/
structure Lasting (p : Project) (P : Bundle → Prop) : Prop where
  assembled : ∀ t now intent requests, P (p.assemble t now intent requests)
  withIntent : ∀ b intent, P b → P { b with intent := intent }

/-! ## One task -/

section Task

variable {e : Engine} {t : FileTree} {clock : Clock} {P : Bundle → Prop}

theorem holds_loadSnapshot (h : e.cache.Holds P)
    (htaken : ∀ x, Cache.InSnapshot t e.snapshotPath x → P x.bundle) :
    (e.loadSnapshot t).cache.Holds P := by
  rw [loadSnapshot_eq]
  cases himport : e.cache.importFrom? t e.snapshotPath with
  | none => exact h
  | some c => exact Cache.holds_importFrom? himport htaken

theorem project_act (e : Engine) (t : FileTree) (clock : Clock) (action : CacheAction) :
    (e.act t clock action).2.1.project = e.project := by
  cases action with
  | importFrom path =>
    rw [act]
    split <;> rfl
  | _ => rfl

theorem holds_act {action : CacheAction} (h : e.cache.Holds P)
    (htaken : ∀ path x, action = .importFrom path → Cache.InSnapshot t path x → P x.bundle) :
    (e.act t clock action).2.1.cache.Holds P := by
  cases action with
  | stats => exact h
  | clear => exact Cache.holds_ofLimits _
  | cleanUp =>
    have hstep : (e.cache.step ⟨t, clock.asked, .cleanUp⟩).Holds P :=
      h.step (by simp [Cache.Event.stored?])
    exact hstep
  | exportTo path => exact h
  | importFrom path =>
    cases himport : e.cache.importFrom? t path with
    | none =>
      rw [act, himport]
      exact h
    | some c =>
      rw [act, himport]
      exact Cache.holds_importFrom? himport fun x ↦ htaken path x rfl

theorem project_perform (e : Engine) (t : FileTree) (clock : Clock) (task : Task) :
    (e.perform t clock task).2.1.project = e.project := by
  cases task with
  | lookAfter action =>
    rw [perform, cacheCommand]
    refine (project_act ..).trans ?_
    split
    · rfl
    · exact project_loadSnapshot e t
  | _ => rfl

/-- **What lasts and holds of the bundles in the cache** holds of the bundle that is answered and of those
in the cache afterwards. -/
theorem holds_prepare {intent : String} {files : List Path} (h : e.cache.Holds P)
    (hlasting : Lasting e.project P) :
    P (e.prepare t clock intent files).1 ∧ (e.prepare t clock intent files).2.1.cache.Holds P :=
  Project.holds_bundleFor h (hlasting.assembled ..) (hlasting.withIntent · intent)

theorem holds_perform {task : Task} (h : e.cache.Holds P) (hlasting : Lasting e.project P)
    (htaken : ∀ x, task.TakesOver e t x → P x.bundle) :
    (e.perform t clock task).2.1.cache.Holds P := by
  cases task with
  | prepare intent files => exact (holds_prepare h hlasting).2
  | references text => exact h
  | analyze old new => exact h
  | lookAfter action =>
    rw [perform, cacheCommand]
    refine holds_act ?_ fun path x haction hx ↦ htaken x (.inr ⟨path, haction, hx⟩)
    split
    next => exact h
    next hpersist =>
      exact holds_loadSnapshot h fun x hx ↦ htaken x (.inl ⟨by simpa using hpersist, hx⟩)

/-- Only who asks for a bundle is answered with one. -/
theorem exists_prepare_of_perform {task : Task} {b : Bundle}
    (hb : (e.perform t clock task).1 = .bundle b) :
    ∃ intent files, b = (e.prepare t clock intent files).1 := by
  cases task with
  | prepare intent files => exact ⟨intent, files, (Answer.bundle.inj hb).symm⟩
  | _ => cases hb

/-- Without a cache everything is assembled. -/
theorem within_prepare_of_not_enabled (henabled : e.cacheSettings.enabled = false) (intent : String)
    (files : List Path) :
    (e.prepare t clock intent files).1.Within e.project.settings.context := by
  have hmisses : e.project.Misses t e.cache clock
      (e.project.requests t (e.project.mentions t intent) files) := fun htrue ↦
    absurd (henabled.symm.trans htrue) Bool.false_ne_true
  have hanswer : (e.prepare t clock intent files).1 = _ := Project.bundleFor_of_misses hmisses intent
  rw [hanswer]
  exact Project.within_assemble ..

end Task

/-! ## After any turns -/

/-- The engine and the files after these turns. -/
def after (e : Engine) (t : FileTree) (turns : List Turn) : Engine × FileTree :=
  turns.foldl (fun s turn ↦ (turn.carryOut s.1 s.2).2) (e, t)

/-- The engine that was opened on these files took the entry over then, or in one of these turns. -/
def TakenOver (e : Engine) (t : FileTree) (turns : List Turn) (x : Cache.Entry) : Prop :=
  (e.cacheSettings.persist = true ∧ Cache.InSnapshot t e.snapshotPath x) ∨
    ∃ earlier turn later, turns = earlier ++ turn :: later ∧
      turn.task.TakesOver (e.after t earlier).1 (turn.change (e.after t earlier).2) x

section Run

variable {o : Opening} {e : Engine} {t : FileTree} {P : Bundle → Prop}

theorem after_append_singleton (e : Engine) (t : FileTree) (turns : List Turn) (turn : Turn) :
    e.after t (turns ++ [turn]) =
      (turn.carryOut (e.after t turns).1 (e.after t turns).2).2 := by
  rw [after, List.foldl_append]
  rfl

/-- What was taken over remains so. -/
theorem TakenOver.append {turns : List Turn} {x : Cache.Entry} (h : TakenOver e t turns x)
    (more : List Turn) : TakenOver e t (turns ++ more) x := by
  rcases h with hopened | ⟨earlier, turn, later, rfl, htakes⟩
  · exact .inl hopened
  · exact .inr ⟨earlier, turn, later ++ more, by simp, htakes⟩

theorem project_after (e : Engine) (t : FileTree) (turns : List Turn) :
    (e.after t turns).1.project = e.project := by
  induction turns using List.reverseRecOn with
  | nil => rfl
  | append_singleton turns turn ih =>
    rw [after_append_singleton, ← ih]
    exact project_perform ..

/-- Right after an engine was opened, its cache holds what it has taken over. -/
theorem holds_of_launch (hlaunch : o.launch t = .ok e)
    (htaken : ∀ x, TakenOver e t [] x → P x.bundle) : e.cache.Holds P := by
  have heq := eq_of_launch hlaunch
  by_cases hpersist : e.cacheSettings.persist = true
  · rw [if_pos hpersist] at heq
    rw [heq]
    exact holds_loadSnapshot (Cache.holds_ofLimits _) fun x hx ↦ htaken x (.inl ⟨hpersist, hx⟩)
  · rw [if_neg hpersist] at heq
    rw [heq]
    exact Cache.holds_ofLimits _

/-- **After any turns the cache holds what was assembled and what was taken over.** -/
theorem holds_after (hlaunch : o.launch t = .ok e) (turns : List Turn)
    (hlasting : Lasting e.project P) (htaken : ∀ x, TakenOver e t turns x → P x.bundle) :
    (e.after t turns).1.cache.Holds P := by
  induction turns using List.reverseRecOn with
  | nil => exact holds_of_launch hlaunch htaken
  | append_singleton turns turn ih =>
    have hbefore : (e.after t turns).1.cache.Holds P := ih fun x hx ↦ htaken x (hx.append [turn])
    rw [← project_after e t turns] at hlasting
    rw [after_append_singleton]
    exact holds_perform hbefore hlasting fun x hx ↦ htaken x (.inr ⟨turns, turn, [], rfl, hx⟩)

end Run

/-- **A bundle keeps within the settings of its engine, or it was in a snapshot.**  Whatever an engine
has been asked to do since it was opened and whatever has become of the files meanwhile: if a bundle
that it answers does not keep within its settings, then it has a cache, and the bundle is, but for the
intent, that of an entry which it has taken over from a snapshot, when it was opened or since.  So if
all entries that it has taken over keep within its settings, all its answers do. -/
theorem bundle_within_or_takenOver {o : Opening} {t : FileTree} {e : Engine}
    (hlaunch : o.launch t = .ok e) (turns : List Turn) (turn : Turn) {b : Bundle}
    (hb : (turn.carryOut (e.after t turns).1 (e.after t turns).2).1 = .bundle b) :
    (b.Within e.project.settings.context ∨
      e.cacheSettings.enabled = true ∧
        ∃ x, TakenOver e t turns x ∧ b = { x.bundle with intent := b.intent }) ∧
    ((∀ x, TakenOver e t turns x → x.bundle.Within e.project.settings.context) →
      b.Within e.project.settings.context) := by
  have hproject := project_after e t turns
  let P (b : Bundle) : Prop := b.Within e.project.settings.context ∨
    ∃ x, TakenOver e t turns x ∧ b = { x.bundle with intent := b.intent }
  have hlasting : Lasting e.project P := by
    refine ⟨fun t' now intent requests ↦ .inl (Project.within_assemble ..), fun b intent hb ↦ ?_⟩
    rcases hb with hb | ⟨x, hx, heq⟩
    · exact .inl (hb.withIntent intent)
    · exact .inr ⟨x, hx, by rw [heq]⟩
  have hcache : (e.after t turns).1.cache.Holds P :=
    holds_after hlaunch turns hlasting fun x hx ↦ .inr ⟨x, hx, rfl⟩
  obtain ⟨intent, files, rfl⟩ := exists_prepare_of_perform hb
  have hanswer : P ((e.after t turns).1.prepare (turn.change (e.after t turns).2) turn.clock intent
      files).1 := (holds_prepare hcache (hproject ▸ hlasting)).1
  constructor
  · rcases hanswer with hwithin | htaken
    · exact .inl hwithin
    · cases henabled : e.cacheSettings.enabled with
      | true => exact .inr ⟨rfl, htaken⟩
      | false =>
        rw [cacheSettings, ← hproject] at henabled
        exact .inl (hproject ▸ within_prepare_of_not_enabled henabled intent files)
  · intro hall
    rcases hanswer with hwithin | ⟨x, hx, heq⟩
    · exact hwithin
    · rw [heq]
      exact (hall x hx).withIntent _

/-- What comes of putting the bundle together, where the snapshot is to be written. -/
theorem carryOut_preparing {e : Engine} {t : FileTree} {requests : List Request} {b : Bundle}
    {c : Cache} (hkeeps : (e.cacheSettings.persist && e.cacheSettings.enabled) = true)
    (hrequests : e.project.requests t (e.project.mentions t "note") [⟨"a.txt"⟩] = requests)
    (hbundle : e.project.bundleFor t e.cache (.still midnight) "note" requests = (b, c)) :
    preparing.carryOut e t =
      (.bundle b, ⟨e.project, c⟩, saveSnapshot ⟨e.project, c⟩ t (.still midnight)) := by
  have hperform : preparing.carryOut e t =
      let r := e.project.bundleFor t e.cache (.still midnight) "note"
        (e.project.requests t (e.project.mentions t "note") [⟨"a.txt"⟩])
      (.bundle r.1, ⟨e.project, r.2⟩, if e.cacheSettings.persist && e.cacheSettings.enabled then
        saveSnapshot ⟨e.project, r.2⟩ t (.still midnight) else t) := rfl
  rw [hperform, hrequests, hbundle, hkeeps]
  rfl

/-- A project of one file with an arrow in it, and two files of settings, of which one wants no
patterns. -/
def twoSettings : FileTree where
  nodes := [(["w"], .directory),
    (["w", "Patchwright.toml"], .file "[cache]\npersist = true\n".toUTF8 midnight),
    (["w", "strict.toml"],
      .file "[cache]\npersist = true\n[context]\ntop_k = 0\n".toUTF8 midnight),
    (["w", "p"], .directory), (["w", "p", "a.txt"], .file "=>".toUTF8 midnight)]
  here := ["w"]

/-- The same project with the other settings. -/
def strictProject : Project :=
  ⟨⟨"/w/p"⟩, { cache := { persist := true }, context := { topK := 0 } }⟩

/-- An engine with these settings. -/
def strictly : Opening := ⟨some ⟨"strict.toml"⟩, some ⟨"p"⟩⟩

/-- The requests for the file. -/
def oneRequest : List Request := [⟨⟨"/w/p/a.txt"⟩, true⟩]

/-- The bundle for the file with the usual settings. -/
def arrowBundle : Bundle :=
  oneFileProject.assemble twoSettings midnight "note" oneRequest

/-- The cache after the bundle was put together. -/
def arrowCache : Cache :=
  ((fresh oneFileProject).cache.get twoSettings midnight (Request.paths oneRequest)).2.set twoSettings
    midnight (Request.paths oneRequest) arrowBundle

/-- The files after that. -/
def afterLenient : FileTree :=
  saveSnapshot ⟨oneFileProject, arrowCache⟩ twoSettings (.still midnight)

theorem requests_note : ∀ t ∈ [twoSettings, afterLenient],
    oneFileProject.requests t (oneFileProject.mentions t "note") [⟨"a.txt"⟩] = oneRequest := by
  decide +kernel

/-- The lenient engine finds nothing in its cache. -/
theorem bundleFor_lenient :
    oneFileProject.bundleFor twoSettings (fresh oneFileProject).cache (.still midnight) "note"
      oneRequest = (arrowBundle, arrowCache) := by
  have hmisses := Project.misses_ofLimits oneFileProject twoSettings
    (fresh oneFileProject).cache.limits (.still midnight) oneRequest rfl (List.cons_ne_nil _ _)
  rcases Project.bundleFor_cases oneFileProject twoSettings (fresh oneFileProject).cache
    (.still midnight) "note" oneRequest with ⟨hnot, -⟩ | ⟨-, b, hb, -⟩ | ⟨-, -, heq⟩
  · rcases hnot with hnot | hnot
    · cases hnot
    · cases hnot
  · exact absurd (hmisses.symm.trans hb) (Option.some_ne_none b).symm
  · exact heq

theorem inStep_afterLenient : (⟨oneFileProject, arrowCache⟩ : Engine).InStep afterLenient := by
  have hsound : arrowCache.Sound := by
    have hfits : (oneFileProject.assemble twoSettings (Clock.still midnight).assembled "note"
        oneRequest).Fits := by decide +kernel
    have hsound : (oneFileProject.bundleFor twoSettings (fresh oneFileProject).cache
        (.still midnight) "note" oneRequest).2.Sound :=
      (sound_bundleFor (Cache.sound_ofLimits _) (by decide) hfits).1
    rwa [bundleFor_lenient] at hsound
  refine inStep_saveSnapshot hsound ?_ (by decide) (by decide +kernel)
  exact ((Cache.limits_set ..).trans (Cache.limits_step _ ⟨twoSettings, midnight, .get _⟩)).symm

/-- Who opens an engine on these files takes the cache over, with either settings. -/
theorem launch_afterLenient :
    fromAbove.launch afterLenient = .ok ⟨oneFileProject, arrowCache⟩ ∧
      strictly.launch afterLenient = .ok ⟨strictProject, arrowCache⟩ := by
  have hlenient : Settings.loadOrFirst afterLenient fromAbove.settings =
      .ok oneFileProject.settings := by decide +kernel
  have hstrict : Settings.loadOrFirst afterLenient strictly.settings =
      .ok strictProject.settings := by decide +kernel
  have hroot : fromAbove.projectRoot afterLenient = oneFileProject.root := by decide +kernel
  have hsame : strictly.projectRoot afterLenient = fromAbove.projectRoot afterLenient := rfl
  have htaken (p : Project) (hp : p.root = oneFileProject.root)
      (hcache : p.settings.cache = oneFileProject.settings.cache) :=
    inStep_afterLenient.loadSnapshot_fresh hp hcache
  constructor
  · rw [launch_eq_ok hlenient hroot rfl, htaken oneFileProject rfl rfl]
  · rw [launch_eq_ok hstrict (hsame.trans hroot) rfl, htaken strictProject rfl rfl]

/-- The bundle is still in the cache. -/
theorem get_arrowCache :
    (arrowCache.get afterLenient midnight (Request.paths oneRequest)).1 = some arrowBundle := by
  have hset : Path.canonicalSet (Request.paths oneRequest) = [⟨"/w/p/a.txt"⟩] :=
    Path.canonicalSet_singleton _
  have hread : ∀ p ∈ Path.canonicalSet (Request.paths oneRequest),
      (twoSettings.file? p).isSome = true := by
    rw [hset, List.forall_mem_singleton]
    rfl
  have hsame : ∀ p ∈ Path.canonicalSet (Request.paths oneRequest),
      afterLenient.file? p = twoSettings.file? p := by
    rw [hset, List.forall_mem_singleton]
    rfl
  obtain ⟨state, hstate⟩ := Cache.exists_state? hread
  refine Cache.get_set_eq_some _ arrowBundle rfl hstate ⟨?_, ?_⟩
  · decide
  · rw [Cache.state?_congr hsame, hstate]

/-- An engine that has the bundle in its cache answers with it. -/
theorem bundleFor_arrowCache {p : Project} (henabled : p.settings.cache.enabled = true) :
    p.bundleFor afterLenient arrowCache (.still midnight) "note" oneRequest =
      ({ arrowBundle with intent := "note" },
        (arrowCache.get afterLenient midnight (Request.paths oneRequest)).2) := by
  rcases Project.bundleFor_cases p afterLenient arrowCache (.still midnight) "note" oneRequest with
    ⟨hnot, -⟩ | ⟨-, b, hb, heq⟩ | ⟨-, hnone, -⟩
  · rcases hnot with hnot | hnot
    · cases henabled.symm.trans hnot
    · cases hnot
  · obtain rfl := Option.some_inj.1 (hb.symm.trans get_arrowCache)
    exact heq
  · cases hnone.symm.trans get_arrowCache

/-- To look at the cache changes nothing. -/
theorem after_looking {e : Engine} (hpersist : e.cacheSettings.persist = true) (t : FileTree) :
    e.after t [looking] = (e, t) := by
  have hlooking : looking.carryOut e t =
      let r := (if e.cacheSettings.persist then e else e.loadSnapshot t).act t looking.clock .stats
      (.report r.1, r.2) := rfl
  rw [after, List.foldl_cons, List.foldl_nil, hlooking, if_pos hpersist]
  rfl

theorem holds_arrowCache : arrowCache.Holds (·.Within oneFileProject.settings.context) := by
  have hholds : (oneFileProject.bundleFor twoSettings (fresh oneFileProject).cache (.still midnight)
      "note" oneRequest).2.Holds (·.Within oneFileProject.settings.context) :=
    (Project.holds_bundleFor (Cache.holds_ofLimits _) (Project.within_assemble ..)
      fun b hb ↦ Bundle.Within.withIntent hb "note").2
  rwa [bundleFor_lenient] at hholds

/-- Whatever the second engine has taken over keeps within its settings, which are those of the first. -/
theorem within_of_takenOver_again {x : Cache.Entry}
    (h : TakenOver ⟨oneFileProject, arrowCache⟩ afterLenient [looking] x) :
    x.bundle.Within oneFileProject.settings.context := by
  rcases h with ⟨-, hx⟩ | ⟨earlier, turn, later, hturn, htakes⟩
  · exact holds_arrowCache x.key x (inStep_afterLenient.inSnapshot_iff.1 hx)
  · have hmem : turn ∈ [looking] := by
      rw [hturn]
      simp
    obtain rfl := List.mem_singleton.1 hmem
    rcases htakes with ⟨hpersist, -⟩ | ⟨path, haction, -⟩
    · rw [cacheSettings, project_after] at hpersist
      cases hpersist
    · cases haction

/-- The bundle of the first engine is taken over by the second. -/
theorem exists_takenOver_again :
    ∃ x, TakenOver ⟨oneFileProject, arrowCache⟩ afterLenient [looking] x ∧
      x.bundle = arrowBundle := by
  obtain ⟨x, hx, -, hbundle⟩ := Cache.get_fst_eq_some_iff.1 get_arrowCache
  have hkey := inStep_afterLenient.sound.key _ x hx
  exact ⟨x, .inl ⟨rfl, inStep_afterLenient.inSnapshot_iff.2 (hkey ▸ hx)⟩, hbundle⟩

/-- An engine that has taken nothing over keeps within its settings.  One that has taken over the bundle of
an engine with the same settings answers with it, after a turn, and keeps within them too. -/
theorem bundle_within_or_takenOver_oneFile :
    (fromAbove.launch oneFile = .ok (fresh oneFileProject) ∧
      (preparing.carryOut ((fresh oneFileProject).after oneFile []).1
        ((fresh oneFileProject).after oneFile []).2).1 = .bundle oneFileBundle ∧
      oneFileBundle.Within oneFileProject.settings.context) ∧
    (fromAbove.launch afterLenient = .ok ⟨oneFileProject, arrowCache⟩ ∧
      (∃ x, TakenOver ⟨oneFileProject, arrowCache⟩ afterLenient [looking] x ∧
        x.bundle = arrowBundle) ∧
      (preparing.carryOut ((⟨oneFileProject, arrowCache⟩ : Engine).after afterLenient [looking]).1
        ((⟨oneFileProject, arrowCache⟩ : Engine).after afterLenient [looking]).2).1 =
          .bundle { arrowBundle with intent := "note" } ∧
      ({ arrowBundle with intent := "note" } : Bundle).Within oneFileProject.settings.context) := by
  have hanswer : (preparing.carryOut (fresh oneFileProject) oneFile).1 = .bundle oneFileBundle :=
    congrArg Prod.fst (carryOut_preparing rfl rfl (Prod.ext
      (Project.bundleFor_of_misses (Project.misses_ofLimits _ _ _ _ _) "note") rfl))
  have hcarried := carryOut_preparing (e := ⟨oneFileProject, arrowCache⟩) rfl
    (requests_note _ (by simp)) (bundleFor_arrowCache rfl)
  have hagain : (preparing.carryOut
      ((⟨oneFileProject, arrowCache⟩ : Engine).after afterLenient [looking]).1
      ((⟨oneFileProject, arrowCache⟩ : Engine).after afterLenient [looking]).2).1 =
        .bundle { arrowBundle with intent := "note" } := by
    rw [after_looking rfl]
    exact congrArg Prod.fst hcarried
  refine ⟨⟨launch_oneFile, hanswer,
    (bundle_within_or_takenOver launch_oneFile [] preparing hanswer).2 fun x hx ↦ ?_⟩,
    launch_afterLenient.1, exists_takenOver_again, hagain,
    (bundle_within_or_takenOver launch_afterLenient.1 [looking] preparing hagain).2 fun x hx ↦
      within_of_takenOver_again hx⟩
  rcases hx with ⟨-, hx⟩ | ⟨earlier, turn, later, hnil, -⟩
  · cases (inStep_of_launch launch_oneFile rfl).inSnapshot_iff.1 hx
  · simp at hnil

/-! ## Stricter settings -/

/-- **An engine with stricter settings answers with what was put together under the old ones**: it
wants no patterns at all, and there is one. -/
theorem not_within_of_stricter :
    strictly.launch (preparing.carryOut (fresh oneFileProject) twoSettings).2.2 =
        .ok ⟨strictProject, (preparing.carryOut (fresh oneFileProject) twoSettings).2.1.cache⟩ ∧
      ∃ b, (preparing.carryOut
          ⟨strictProject, (preparing.carryOut (fresh oneFileProject) twoSettings).2.1.cache⟩
          (preparing.carryOut (fresh oneFileProject) twoSettings).2.2).1 = .bundle b ∧
        ¬ b.Within strictProject.settings.context := by
  have hlenient : preparing.carryOut (fresh oneFileProject) twoSettings =
      (.bundle arrowBundle, ⟨oneFileProject, arrowCache⟩, afterLenient) :=
    carryOut_preparing rfl (requests_note _ (by simp)) bundleFor_lenient
  have hstrict := carryOut_preparing (e := ⟨strictProject, arrowCache⟩) rfl
    (requests_note _ (by simp)) (bundleFor_arrowCache rfl)
  rw [hlenient]
  refine ⟨launch_afterLenient.2, { arrowBundle with intent := "note" }, congrArg Prod.fst hstrict,
    fun hwithin ↦ ?_⟩
  have hmany : arrowBundle.commonPatterns.length = 1 := by decide +kernel
  have hfew : arrowBundle.commonPatterns.length ≤ 0 := hwithin.patterns
  omega

end Engine

end ChangeContext
