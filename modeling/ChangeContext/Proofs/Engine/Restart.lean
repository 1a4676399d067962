import ChangeContext.Proofs.Assembly.Lookup
import ChangeContext.Proofs.Engine.Snapshot

/-!
# Opening an engine anew

Where the settings ask for a snapshot, it should make no difference whether one engine carries out a
sequence of tasks or whether engines are opened anew in between.  A sequence is a list of turns: what
happens to the files before, whether an engine is opened anew, what the clock shows, and the task.

What a turn has to respect for this is said by `Turn.Undisturbed`: the settings and the root stay
what they are, nobody else changes what is read at the place of the snapshot, and the engine can
write there.  One thing more is needed.  The path of the snapshot may lead nowhere only because a
directory on the way is not there, and writing the cache to some other place may make that
directory (`Turn.Apart`).

The invariant is that the engine is in step with its snapshot (`inStep_perform`).
-/

set_option autoImplicit false

namespace ChangeContext

namespace Engine

/-! ## Tasks -/

/-- What an engine can be asked to do. -/
inductive Task where
  | prepare (intent : String) (files : List Path)
  | references (text : String)
  | analyze (old new : Path)
  | lookAfter (action : CacheAction)

/-- What comes of a task. -/
inductive Answer where
  | bundle (b : Bundle)
  | references (report : String)
  | analysis (a : Diff.Analysis)
  | report (r : Except Failure String)
deriving DecidableEq

/-- Carry out a task. -/
def perform (e : Engine) (t : FileTree) (clock : Clock) : Task → Answer × Engine × FileTree
  | .prepare intent files =>
    let (bundle, e, t) := e.prepare t clock intent files
    (.bundle bundle, e, t)
  | .references text => (.references (e.references t text), e, t)
  | .analyze old new => (.analysis (analyze t old new), e, t)
  | .lookAfter action =>
    let (report, e, t) := e.cacheCommand t clock action
    (.report report, e, t)

/-- The task ends with writing the snapshot. -/
def Task.Saves (e : Engine) (t : FileTree) : Task → Prop
  | .prepare _ _ => e.cacheSettings.enabled = true
  | .lookAfter .clear | .lookAfter .cleanUp => True
  | .lookAfter (.importFrom path) => (e.cache.importFrom? t path).isSome
  | _ => False

/-- The bundle that is put together for a task has room in a snapshot. -/
def Task.Fits (e : Engine) (t : FileTree) (clock : Clock) : Task → Prop
  | .prepare intent files =>
    (e.project.assemble t clock.assembled intent
      (e.project.requests t (e.project.mentions t intent) files)).Fits
  | _ => True

/-- The directories that are made for a task do not let the path of the snapshot lead to a file. -/
def Task.Apart (e : Engine) (t : FileTree) : Task → Prop
  | .lookAfter (.exportTo path) =>
    t.file? e.snapshotPath = none → (Cache.makeParent t path).1.file? e.snapshotPath = none
  | _ => True

/-! ## One task -/

section Task

variable {e : Engine} {t : FileTree} {clock : Clock} {task : Task}

/-- The cache stays sound and keeps its limits when a bundle is put together. -/
theorem sound_bundleFor {p : Project} {c : Cache} {intent : String} {requests : List Request}
    (hc : c.Sound) (hstored : clock.stored.Valid)
    (hfits : (p.assemble t clock.assembled intent requests).Fits) :
    (p.bundleFor t c clock intent requests).2.Sound ∧
      (p.bundleFor t c clock intent requests).2.limits = c.limits := by
  let asking : Cache.Event := ⟨t, clock.asked, .get (Request.paths requests)⟩
  let storing : Cache.Event :=
    ⟨t, clock.stored, .set (Request.paths requests) (p.assemble t clock.assembled intent requests)⟩
  have hget : (c.step asking).Sound := hc.step (by simp [asking, Cache.Event.stored?])
  have hset : ((c.step asking).step storing).Sound := by
    refine hget.step fun e he ↦ ?_
    obtain ⟨state, -, rfl⟩ := (Cache.stored?_eq_some_iff rfl).1 he
    exact ⟨hfits, hstored⟩
  have hlimits : (c.step asking).limits = c.limits := Cache.limits_step _ _
  rcases Project.bundleFor_cases p t c clock intent requests with
    ⟨-, heq⟩ | ⟨-, b, -, heq⟩ | ⟨-, -, heq⟩
  · rw [heq]
    exact ⟨hc, rfl⟩
  · rw [heq]
    exact ⟨hget, hlimits⟩
  · rw [heq]
    exact ⟨hset, (Cache.limits_step (c.step asking) storing).trans hlimits⟩

/-- A task that has changed the cache and written the snapshot leaves the engine in step. -/
theorem inStep_of_saved {r : Engine × FileTree} {c : Cache} (h : e.InStep t)
    (hr : r = (⟨e.project, c⟩, saveSnapshot ⟨e.project, c⟩ t clock)) (hsound : c.Sound)
    (hlimits : c.limits = e.cache.limits) (hwritten : clock.written.Valid)
    (hsaved : (r.1.cache.exportTo t clock.written e.snapshotPath).2 = true) :
    r.1.InStep r.2 ∧ r.1.project = e.project := by
  subst hr
  dsimp only at hsaved ⊢
  have hlimits : (fresh e.project).cache.limits = c.limits := h.limits.trans hlimits.symm
  have hstep : InStep ⟨e.project, c⟩ (saveSnapshot ⟨e.project, c⟩ t clock) :=
    inStep_saveSnapshot hsound hlimits hwritten hsaved
  exact ⟨hstep, rfl⟩

theorem inStep_prepare {intent : String} {files : List Path} (h : e.InStep t)
    (hpersist : e.cacheSettings.persist = true) (hstored : clock.stored.Valid)
    (hwritten : clock.written.Valid) (hfits : (Task.prepare intent files).Fits e t clock)
    (hsaved : e.cacheSettings.enabled = true →
      ((e.prepare t clock intent files).2.1.cache.exportTo t clock.written e.snapshotPath).2 =
        true) :
    (e.prepare t clock intent files).2.1.InStep (e.prepare t clock intent files).2.2 ∧
      (e.prepare t clock intent files).2.1.project = e.project := by
  have hprepare : (e.prepare t clock intent files).2 =
      let c := (e.project.collect t e.cache clock intent (e.project.mentions t intent) files).2
      (⟨e.project, c⟩, if e.cacheSettings.persist && e.cacheSettings.enabled then
        saveSnapshot ⟨e.project, c⟩ t clock else t) := rfl
  rw [hpersist, Bool.true_and] at hprepare
  cases henabled : e.cacheSettings.enabled with
  | true =>
    obtain ⟨hsound, hlimits⟩ := sound_bundleFor h.sound hstored hfits
    rw [henabled] at hprepare
    exact inStep_of_saved h hprepare hsound hlimits hwritten (hsaved henabled)
  | false =>
    have hleft : (e.project.collect t e.cache clock intent (e.project.mentions t intent)
        files).2 = e.cache := by
      have henabled : e.project.settings.cache.enabled = false := henabled
      rw [Project.collect, Project.bundleFor, henabled]
      rfl
    rw [henabled, hleft] at hprepare
    rw [hprepare]
    exact ⟨h, rfl⟩

theorem inStep_act {action : CacheAction} (h : e.InStep t) (hwritten : clock.written.Valid)
    (hapart : (Task.lookAfter action).Apart e t)
    (hsaved : (Task.lookAfter action).Saves e t →
      ((e.act t clock action).2.1.cache.exportTo t clock.written e.snapshotPath).2 = true) :
    (e.act t clock action).2.1.InStep (e.act t clock action).2.2 ∧
      (e.act t clock action).2.1.project = e.project := by
  cases action with
  | stats => exact ⟨h, rfl⟩
  | clear =>
    exact inStep_of_saved h rfl (Cache.sound_ofLimits e.cache.limits) rfl hwritten (hsaved trivial)
  | cleanUp =>
    have hsound : (e.cache.step ⟨t, clock.asked, .cleanUp⟩).Sound :=
      h.sound.step fun _ hnew ↦ by simp [Cache.Event.stored?] at hnew
    exact inStep_of_saved h rfl hsound rfl hwritten (hsaved trivial)
  | exportTo path => exact ⟨inStep_exportTo h hwritten hapart, rfl⟩
  | importFrom path =>
    cases himport : e.cache.importFrom? t path with
    | none =>
      have hleft : (e.act t clock (.importFrom path)).2 = (e, t) := by rw [act, himport]
      rw [hleft]
      exact ⟨h, rfl⟩
    | some c =>
      have htaken : (e.act t clock (.importFrom path)).2 =
          (⟨e.project, c⟩, saveSnapshot ⟨e.project, c⟩ t clock) := by rw [act, himport]
      have hsaves : (Task.lookAfter (.importFrom path)).Saves e t := by
        simp [Task.Saves, himport]
      exact inStep_of_saved h htaken (Cache.sound_importFrom? himport)
        (Cache.limits_importFrom? himport) hwritten (hsaved hsaves)

/-- **A task leaves the engine in step with its snapshot**, and with the same project. -/
theorem inStep_perform (h : e.InStep t) (hpersist : e.cacheSettings.persist = true)
    (hstored : clock.stored.Valid) (hwritten : clock.written.Valid)
    (hfits : task.Fits e t clock) (hapart : task.Apart e t)
    (hsaved : task.Saves e t →
      ((e.perform t clock task).2.1.cache.exportTo t clock.written e.snapshotPath).2 = true) :
    (e.perform t clock task).2.1.InStep (e.perform t clock task).2.2 ∧
      (e.perform t clock task).2.1.project = e.project := by
  cases task with
  | prepare intent files =>
    have hperform : (e.perform t clock (.prepare intent files)).2 =
        (e.prepare t clock intent files).2 := rfl
    rw [hperform] at hsaved ⊢
    exact inStep_prepare h hpersist hstored hwritten hfits hsaved
  | references text => exact ⟨h, rfl⟩
  | analyze old new => exact ⟨h, rfl⟩
  | lookAfter action =>
    have hperform : (e.perform t clock (.lookAfter action)).2 = (e.act t clock action).2 := by
      rw [perform, cacheCommand, if_pos hpersist]
    rw [hperform] at hsaved ⊢
    exact inStep_act h hwritten hapart hsaved

end Task

/-! ## Turns -/

/-- How an engine is opened: where the settings and the root of the project are. -/
structure Opening where
  settings : Option Path
  root : Option Path

/-- A task, and what comes before it. -/
structure Turn where
  /-- What happens to the files before the task. -/
  change : FileTree → FileTree
  /-- An engine is opened anew for the task. -/
  reopens : Bool
  clock : Clock
  task : Task

/-- The turn without opening an engine anew. -/
def Turn.continued (turn : Turn) : Turn :=
  { turn with reopens := false }

/-- What comes of the turn when the engine goes on. -/
def Turn.carryOut (turn : Turn) (e : Engine) (t : FileTree) : Answer × Engine × FileTree :=
  e.perform (turn.change t) turn.clock turn.task

/-- At every turn, as long as one engine carries all of them out. -/
def AtEveryTurn (P : Turn → Engine → FileTree → Prop) : List Turn → Engine → FileTree → Prop
  | [], _, _ => True
  | turn :: rest, e, t =>
    P turn e t ∧ AtEveryTurn P rest (turn.carryOut e t).2.1 (turn.carryOut e t).2.2

namespace Opening

/-- Open an engine. -/
def launch (o : Opening) (t : FileTree) : Except Failure Engine :=
  Engine.launch t o.settings o.root

/-- The root of the project as it is given. -/
def givenRoot (o : Opening) (t : FileTree) : Path :=
  o.root.getD (FileTree.pathOf t.here)

/-- The root of the project, without links if it is there. -/
def projectRoot (o : Opening) (t : FileTree) : Path :=
  (t.canonical? (o.givenRoot t)).getD (o.givenRoot t)

/-- The engine for a turn: the one that is there, unless one is to be opened anew. -/
def engineFor (o : Opening) (turn : Turn) (e : Engine) (t : FileTree) : Except Failure Engine :=
  if turn.reopens then o.launch (turn.change t) else .ok e

/-- Carry out turns with an engine, which is replaced by a new one where a turn asks for it. -/
def resume (o : Opening) : List Turn → Engine → FileTree →
    Except Failure (List Answer × Engine × FileTree)
  | [], e, t => return ([], e, t)
  | turn :: rest, e, t => do
    let e ← o.engineFor turn e t
    let (answer, e, t) := turn.carryOut e t
    let (answers, e, t) ← o.resume rest e t
    return (answer :: answers, e, t)

/-- Open an engine and carry out turns. -/
def run (o : Opening) (turns : List Turn) (t : FileTree) :
    Except Failure (List Answer × Engine × FileTree) := do
  o.resume turns (← o.launch t) t

end Opening

/-- Nothing gets in the way of the engine and its snapshot during a turn. -/
structure Turn.Undisturbed (o : Opening) (turn : Turn) (e : Engine) (t : FileTree) : Prop where
  /-- The settings read as they did when the engine was opened. -/
  settings : Settings.loadOrFirst (turn.change t) o.settings = .ok e.project.settings
  /-- The root leads to the same directory. -/
  root : o.projectRoot (turn.change t) = e.project.root
  /-- Nobody else changes what is read at the place of the snapshot. -/
  snapshot : (turn.change t).readText? e.snapshotPath = t.readText? e.snapshotPath
  /-- The snapshot can be written where it has to be. -/
  saved : turn.task.Saves e (turn.change t) →
    ((turn.carryOut e t).2.1.cache.exportTo (turn.change t) turn.clock.written e.snapshotPath).2 =
      true
  /-- The calendar has the time when an entry is stored. -/
  stored : turn.clock.stored.Valid
  /-- The calendar has the time when the snapshot is written. -/
  written : turn.clock.written.Valid
  /-- All numbers have 64 bits and the calendar has all instants. -/
  fits : turn.task.Fits e (turn.change t) turn.clock

/-- The directories that are made during a turn do not let the path of the snapshot lead to a
file. -/
def Turn.Apart (turn : Turn) (e : Engine) (t : FileTree) : Prop :=
  turn.task.Apart e (turn.change t)

/-! ## Runs -/

section Run

variable {o : Opening} {e : Engine} {t : FileTree} {turn : Turn} {turns : List Turn}

theorem launch_eq_ok {p : Project} (hsettings : Settings.loadOrFirst t o.settings = .ok p.settings)
    (hroot : o.projectRoot t = p.root) (hpersist : p.settings.cache.persist = true) :
    o.launch t = .ok ((fresh p).loadSnapshot t) := by
  have hp : (⟨o.projectRoot t, p.settings⟩ : Project) = p := by rw [hroot]
  rw [Opening.launch, Engine.launch, hsettings, ← hp]
  exact congrArg Except.ok (if_pos hpersist)

/-- An engine that was opened has taken its snapshot over, or begins with nothing. -/
theorem eq_of_launch (h : o.launch t = .ok e) :
    e = if e.cacheSettings.persist then (fresh e.project).loadSnapshot t else fresh e.project := by
  cases hsettings : Settings.loadOrFirst t o.settings with
  | error f =>
    rw [Opening.launch, Engine.launch, hsettings] at h
    simp [bind, Except.bind] at h
  | ok settings =>
    have heq : e = if settings.cache.persist then
        (fresh ⟨o.projectRoot t, settings⟩).loadSnapshot t
        else fresh ⟨o.projectRoot t, settings⟩ := by
      rw [Opening.launch, Engine.launch, hsettings] at h
      exact (Except.ok.inj h).symm
    have hproject : e.project = ⟨o.projectRoot t, settings⟩ := by
      rw [heq]
      split
      · exact project_loadSnapshot ..
      · rfl
    rw [cacheSettings, hproject]
    exact heq

/-- An engine that was opened is in step with its snapshot. -/
theorem inStep_of_launch (h : o.launch t = .ok e) (hpersist : e.cacheSettings.persist = true) :
    e.InStep t := by
  have heq := eq_of_launch h
  rw [if_pos hpersist] at heq
  rw [heq]
  exact inStep_loadSnapshot _ t

/-- **Opening an engine anew gives the engine that is there.** -/
theorem launch_change (h : e.InStep t) (hpersist : e.cacheSettings.persist = true)
    (hturn : turn.Undisturbed o e t) : o.launch (turn.change t) = .ok e := by
  rw [launch_eq_ok hturn.settings hturn.root hpersist]
  exact congrArg Except.ok (h.congr hturn.snapshot).reopened

theorem resume_cons {rest : List Turn} {e' : Engine} (h : o.engineFor turn e t = .ok e') :
    o.resume (turn :: rest) e t =
      (o.resume rest (turn.carryOut e' t).2.1 (turn.carryOut e' t).2.2).map
        fun r ↦ ((turn.carryOut e' t).1 :: r.1, r.2) := by
  rw [Opening.resume, h]
  rfl

theorem run_pair {f s : Turn} {e' : Engine} (hlaunch : o.launch t = .ok e)
    (hfirst : f.reopens = false)
    (hsecond : o.engineFor s (f.carryOut e t).2.1 (f.carryOut e t).2.2 = .ok e') :
    o.run [f, s] t =
      .ok ([(f.carryOut e t).1, (s.carryOut e' (f.carryOut e t).2.2).1],
        (s.carryOut e' (f.carryOut e t).2.2).2) := by
  have hkept : o.engineFor f e t = .ok e := if_neg (by simp [hfirst])
  rw [Opening.run, hlaunch]
  exact (resume_cons hkept).trans (congrArg (Except.map _) (resume_cons hsecond))

theorem resume_eq_resume_continued (h : e.InStep t) (hpersist : e.cacheSettings.persist = true)
    (hundisturbed : AtEveryTurn (Turn.Undisturbed o) turns e t)
    (hapart : AtEveryTurn Turn.Apart turns e t) :
    o.resume turns e t = o.resume (turns.map Turn.continued) e t := by
  induction turns generalizing e t with
  | nil => rfl
  | cons turn rest ih =>
    obtain ⟨hturn, hrest⟩ := hundisturbed
    obtain ⟨hturnApart, hrestApart⟩ := hapart
    have hopened : o.engineFor turn e t = .ok e := by
      rw [Opening.engineFor]
      split
      · exact launch_change h hpersist hturn
      · rfl
    have hkept : o.engineFor turn.continued e t = .ok e := if_neg Bool.false_ne_true
    obtain ⟨hstep, hproject⟩ := inStep_perform (h.congr hturn.snapshot) hpersist hturn.stored
      hturn.written hturn.fits hturnApart hturn.saved
    have hpersist' : (turn.carryOut e t).2.1.cacheSettings.persist = true := by
      rw [cacheSettings, Turn.carryOut, hproject]
      exact hpersist
    have hresume := ih hstep hpersist' hrest hrestApart
    rw [List.map_cons, resume_cons hopened, resume_cons hkept]
    exact congrArg (Except.map _) hresume

/-- **Opening engines anew makes no difference**: where nothing gets in the way, the same answers
are given, and the same engine and the same files are there in the end. -/
theorem run_eq_run_continued (o : Opening) (turns : List Turn) (t : FileTree)
    (h : ∀ e, o.launch t = .ok e → e.cacheSettings.persist = true ∧
      AtEveryTurn (Turn.Undisturbed o) turns e t ∧ AtEveryTurn Turn.Apart turns e t) :
    o.run turns t = o.run (turns.map Turn.continued) t := by
  rw [Opening.run, Opening.run]
  cases hlaunch : o.launch t with
  | error f => rfl
  | ok e =>
    obtain ⟨hpersist, hundisturbed, hapart⟩ := h e hlaunch
    exact resume_eq_resume_continued (inStep_of_launch hlaunch hpersist) hpersist hundisturbed
      hapart

end Run

theorem readText?_change {f : Turn} (h : f.change = id) (t : FileTree) (p : Path) :
    (f.change t).readText? p = t.readText? p := by
  rw [h, id]

/-- The time of all turns below. -/
def midnight : Instant := ⟨0, 0⟩

/-- An engine for the directory `p` below, with the settings at the usual places. -/
def fromAbove : Opening := ⟨none, some ⟨"p"⟩⟩

/-- A project of one file. -/
def oneFile : FileTree where
  nodes := [(["w"], .directory),
    (["w", "Patchwright.toml"], .file "[cache]\npersist = true\n".toUTF8 midnight),
    (["w", "p"], .directory), (["w", "p", "a.txt"], .file "x".toUTF8 midnight)]
  here := ["w"]

/-- The project there. -/
def oneFileProject : Project := ⟨⟨"/w/p"⟩, { cache := { persist := true } }⟩

/-- A bundle for the file is put together. -/
def preparing : Turn := ⟨id, false, .still midnight, .prepare "note" [⟨"a.txt"⟩]⟩

/-- A new engine is asked what its cache holds. -/
def looking : Turn := ⟨id, true, .still midnight, .lookAfter .stats⟩

/-- The bundle for the file. -/
def oneFileBundle : Bundle :=
  oneFileProject.assemble oneFile midnight "note"
    (oneFileProject.requests oneFile (oneFileProject.mentions oneFile "note") [⟨"a.txt"⟩])

/-- The settings are the same before the snapshot is written and after. -/
theorem settings_oneFile :
    ∀ t ∈ [oneFile, (preparing.carryOut (fresh oneFileProject) oneFile).2.2],
      Settings.loadOrFirst t fromAbove.settings = .ok oneFileProject.settings := by
  decide +kernel

theorem launch_oneFile : fromAbove.launch oneFile = .ok (fresh oneFileProject) := by
  have hnone : oneFile.pathExists (fresh oneFileProject).snapshotPath = false := rfl
  have hlaunch := launch_eq_ok (settings_oneFile oneFile (by simp)) rfl rfl
  rwa [loadSnapshot_of_not_pathExists hnone] at hlaunch

theorem undisturbed_oneFile :
    AtEveryTurn (Turn.Undisturbed fromAbove) [preparing, looking] (fresh oneFileProject)
      oneFile := by
  have hfits : oneFileBundle.Fits := by decide +kernel
  refine ⟨?_, ?_, trivial⟩
  · exact {
      settings := settings_oneFile _ (by simp [preparing])
      root := rfl
      snapshot := readText?_change rfl _ _
      saved := fun _ ↦ by decide +kernel
      stored := by decide
      written := by decide
      fits := hfits }
  · exact {
      settings := settings_oneFile _ (by simp [looking])
      root := by decide +kernel
      snapshot := readText?_change rfl _ _
      saved := fun h ↦ h.elim
      stored := by decide
      written := by decide
      fits := trivial }

/-- The bundle is put together by one engine and counted by another. -/
theorem run_eq_run_continued_oneFile :
    fromAbove.launch oneFile = .ok (fresh oneFileProject) ∧
      fromAbove.run [preparing, looking] oneFile =
        fromAbove.run [preparing.continued, looking.continued] oneFile := by
  refine ⟨launch_oneFile, run_eq_run_continued _ _ _ fun e he ↦ ?_⟩
  obtain rfl := Except.ok.inj (launch_oneFile.symm.trans he)
  exact ⟨rfl, undisturbed_oneFile, trivial, trivial, trivial⟩

/-! ## A snapshot behind a directory that is not there

Without `Turn.Apart` the engines may differ.  Here the path of the snapshot leads through a directory
that is not there, so the first engine begins with an empty cache.  Writing the cache to a file in
that directory makes it, and the next engine finds a snapshot that has been there all along. -/

/-- A snapshot that was left behind. -/
def leftBehind : String :=
  "\x7b\"version\":1,\"exported_at\":\"2020-01-01T00:00:00Z\"," ++
    "\"stats\":\x7b\"hits\":5,\"misses\":0\x7d,\"entries\":[]\x7d"

/-- A project with that snapshot. -/
def detour : FileTree where
  nodes := [(["w"], .directory),
    (["w", "Patchwright.toml"],
      .file "[cache]\npersist = true\nsnapshot_path = \"a/../s.json\"\n".toUTF8 midnight),
    (["w", "p"], .directory), (["w", "p", "s.json"], .file leftBehind.toUTF8 midnight)]
  here := ["w"]

/-- The project there. -/
def detourProject : Project :=
  ⟨⟨"/w/p"⟩, { cache := { persist := true, snapshotPath := ⟨"a/../s.json"⟩ } }⟩

/-- The cache is written to a file in the directory that is not there. -/
def exporting : Turn := ⟨id, false, .still midnight, .lookAfter (.exportTo ⟨"p/a/x.json"⟩)⟩

/-- The files after that. -/
def afterExport : FileTree := (exporting.carryOut (fresh detourProject) detour).2.2

/-- The engine that finds the snapshot. -/
def aware : Engine := ⟨detourProject, ⟨(fresh detourProject).cache.limits, ∅, ⟨5, 0⟩⟩⟩

theorem settings_detour : ∀ t ∈ [detour, afterExport],
    Settings.loadOrFirst t fromAbove.settings = .ok detourProject.settings := by
  decide +kernel

theorem launch_detour : fromAbove.launch detour = .ok (fresh detourProject) := by
  have hnone : detour.pathExists (fresh detourProject).snapshotPath = false := rfl
  have hlaunch := launch_eq_ok (settings_detour detour (by simp)) rfl rfl
  rwa [loadSnapshot_of_not_pathExists hnone] at hlaunch

theorem launch_afterExport : fromAbove.launch afterExport = .ok aware := by
  have himport : (fresh detourProject).cache.importFrom? afterExport
      (fresh detourProject).snapshotPath = some aware.cache := by decide +kernel
  have hlaunch := launch_eq_ok (settings_detour afterExport (by simp)) rfl rfl
  rwa [loadSnapshot_eq, himport] at hlaunch

theorem undisturbed_detour :
    AtEveryTurn (Turn.Undisturbed fromAbove) [exporting, looking] (fresh detourProject)
      detour := by
  refine ⟨?_, ?_, trivial⟩
  · exact {
      settings := settings_detour detour (by simp)
      root := rfl
      snapshot := readText?_change rfl _ _
      saved := fun h ↦ h.elim
      stored := by decide
      written := by decide
      fits := trivial }
  · exact {
      settings := settings_detour afterExport (by simp)
      root := rfl
      snapshot := readText?_change rfl _ _
      saved := fun h ↦ h.elim
      stored := by decide
      written := by decide
      fits := trivial }

/-- **Without `Turn.Apart`, opening engines anew may make a difference.** -/
theorem not_run_eq_run_continued_of_undisturbed :
    ¬ ∀ (o : Opening) (turns : List Turn) (t : FileTree),
      (∀ e, o.launch t = .ok e → e.cacheSettings.persist = true ∧
        e.cacheSettings.enabled = true ∧ AtEveryTurn (Turn.Undisturbed o) turns e t) →
      o.run turns t = o.run (turns.map Turn.continued) t := by
  intro h
  have hrun := h fromAbove [exporting, looking] detour fun e he ↦ by
    obtain rfl := Except.ok.inj (launch_detour.symm.trans he)
    exact ⟨rfl, rfl, undisturbed_detour⟩
  have hreopened := run_pair (f := exporting) (s := looking) launch_detour rfl launch_afterExport
  have hkept := run_pair (f := exporting.continued) (s := looking.continued) launch_detour rfl rfl
  -- the two runs tell different numbers of hits in their second answers
  have hruns := hreopened.symm.trans (hrun.trans hkept)
  have hanswers := congrArg Prod.fst (Except.ok.inj hruns)
  have hlooks := (List.cons.inj (List.cons.inj hanswers).2).1
  have hne : (looking.carryOut aware afterExport).1 ≠
      (looking.continued.carryOut (exporting.carryOut (fresh detourProject) detour).2.1
        afterExport).1 := by decide +kernel
  exact hne hlooks

end Engine

end ChangeContext
