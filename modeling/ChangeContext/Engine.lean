import ChangeContext.Assembly.Basic
import ChangeContext.Cache.Snapshot
import ChangeContext.Diff.Encoding
import ChangeContext.Failure
import ChangeContext.Report.Bundle
import ChangeContext.Report.Diff
import ChangeContext.Report.Mention
import ChangeContext.Settings.Document

/-!
# The engine

An engine works on one project with one cache.  It carries out commands: putting together the
context of an intent, listing the files a text mentions, comparing two files, and looking after the
cache.  A command answers with its result or with the text it prints, and leaves a new engine and a
new file tree behind.

Where the settings ask for it, the cache outlives the engine in a snapshot: the engine takes it over
when it is opened and writes it after every command that may have changed the cache.  Without that
setting only the commands that look after the cache touch the snapshot, and they take it over first,
so that there is something to look after.
-/

set_option autoImplicit false

namespace ChangeContext

/-- A project and the cache for it. -/
structure Engine where
  project : Project
  cache : Cache
deriving DecidableEq

/-- What can be done to look after the cache. -/
inductive CacheAction where
  | stats
  | clear
  | cleanUp
  | exportTo (path : Path)
  | importFrom (path : Path)
deriving DecidableEq, Inhabited

namespace Engine

/-- The settings of the cache. -/
def cacheSettings (e : Engine) : CacheSettings :=
  e.project.settings.cache

/-- The place of the snapshot. -/
def snapshotPath (e : Engine) : Path :=
  e.project.root.join e.cacheSettings.snapshotPath

/-- Take over the snapshot, if there is one. -/
def loadSnapshot (e : Engine) (t : FileTree) : Engine :=
  if t.pathExists e.snapshotPath then
    { e with cache := (e.cache.importFrom? t e.snapshotPath).getD e.cache }
  else e

/-- Write the snapshot; if it cannot be written, the directories made for it remain. -/
def saveSnapshot (e : Engine) (t : FileTree) (clock : Clock) : FileTree :=
  (e.cache.exportTo t clock.written e.snapshotPath).1

/-- An engine with an empty cache. -/
def fresh (p : Project) : Engine where
  project := p
  cache := Cache.ofLimits ⟨p.settings.cache.maxAgeSecs, p.settings.cache.maxEntries⟩

/-- Open an engine for the project at `root`, or here. -/
def launch (t : FileTree) (settings : Option Path) (root : Option Path) :
    Except Failure Engine := do
  let settings ← Settings.loadOrFirst t settings
  let root := root.getD (FileTree.pathOf t.here)
  let e := fresh ⟨(t.canonical? root).getD root, settings⟩
  return if settings.cache.persist then e.loadSnapshot t else e

/-! ## Context -/

/-- Put together the bundle for an intent and further files. -/
def prepare (e : Engine) (t : FileTree) (clock : Clock) (intent : String) (files : List Path) :
    Bundle × Engine × FileTree :=
  let (bundle, cache) :=
    e.project.collect t e.cache clock intent (e.project.mentions t intent) files
  let e := { e with cache := cache }
  let keeps := e.cacheSettings.persist && e.cacheSettings.enabled
  (bundle, e, if keeps then e.saveSnapshot t clock else t)

/-- Print the bundle for an intent, as JSON or for reading. -/
def context (e : Engine) (t : FileTree) (clock : Clock) (intent : String) (files : List Path)
    (json : Bool) : String × Engine × FileTree :=
  let (bundle, e, t) := e.prepare t clock intent files
  (if json then bundle.toJson.indented ++ "\n" else bundle.report, e, t)

/-! ## Mentions and differences -/

/-- Print the files that a text mentions. -/
def references (e : Engine) (t : FileTree) (text : String) : String :=
  Mention.report (e.project.mentions t text)

/-- Compare two files; one that cannot be read counts as empty. -/
def analyze (t : FileTree) (old new : Path) : Diff.Analysis :=
  Diff.Analysis.ofTexts ((t.readText? old).getD "") ((t.readText? new).getD "")
    (some new)

/-- Print the comparison of two files, as JSON or for reading. -/
def diff (t : FileTree) (old new : Path) (json : Bool) : String :=
  let a := analyze t old new
  if json then a.toJson.indented ++ "\n" else a.report

/-! ## Looking after the cache -/

/-- Print the counters of a cache and the space it takes. -/
def statsReport (c : Cache) : String :=
  s!"entries: {c.entries.size}\nhits:    {c.counters.hits}\nmisses:  {c.counters.misses}\n" ++
    s!"size:    ~{c.byteSize} bytes\n"

/-- Carry out an action on the cache as it is. -/
def act (e : Engine) (t : FileTree) (clock : Clock) :
    CacheAction → Except Failure String × Engine × FileTree
  | .stats => (.ok (statsReport e.cache), e, t)
  | .clear =>
    let e := { e with cache := e.cache.clear }
    (.ok "Cache cleared\n", e, e.saveSnapshot t clock)
  | .cleanUp =>
    let (removed, cache) := e.cache.cleanUp clock.asked
    let e := { e with cache := cache }
    (.ok s!"Removed {removed} expired entries\n", e, e.saveSnapshot t clock)
  | .exportTo path =>
    let (t, written) := e.cache.exportTo t clock.written path
    (if written then .ok s!"Exported cache to {path.text}\n" else .error .file, e, t)
  | .importFrom path =>
    match e.cache.importFrom? t path with
    | some cache =>
      let e := { e with cache := cache }
      (.ok s!"Imported cache from {path.text}\n", e, e.saveSnapshot t clock)
    | none => (.ok s!"Snapshot {path.text} could not be read; cache unchanged\n", e, t)

/-- Carry out an action on the cache, the snapshot taken over. -/
def cacheCommand (e : Engine) (t : FileTree) (clock : Clock) (action : CacheAction) :
    Except Failure String × Engine × FileTree :=
  (if e.cacheSettings.persist then e else e.loadSnapshot t).act t clock action

end Engine

end ChangeContext
