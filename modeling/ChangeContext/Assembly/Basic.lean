import ChangeContext.Assembly.Common
import ChangeContext.Assembly.Similar
import ChangeContext.Cache.Basic
import ChangeContext.Instant.Clock
import ChangeContext.Inventory
import ChangeContext.Profile

/-!
# Assembling a bundle

A bundle is assembled from the requests: the related files are loaded, similar files are looked for,
the habits, imports and idioms of all of them are counted, and the project is profiled and its
layout taken down.  None of this depends on the intent, which is only noted.

Assembling looks at many files, so the bundle is remembered for the next request of the same files.
Without any file there would be nothing that tells when the bundle is out of date, so such a bundle
is never remembered.
-/

set_option autoImplicit false

namespace ChangeContext

namespace Project

/-- Assemble the bundle for these requests. -/
def assemble (p : Project) (t : FileTree) (now : Instant) (intent : String)
    (requests : List Request) : Bundle :=
  let related := Request.records t requests
  let similar := Similar.files p t related (requests.map (·.path))
  let sample := related ++ similar
  { intent := intent
    relatedFiles := related
    similarFiles := similar
    style := Style.detect (sample.map (·.content))
    commonImports := (Common.imports sample).top p.settings.context.topK
    commonPatterns := (Common.patterns sample).top p.settings.context.topK
    project := ProjectFlags.ofTree t p.root
    layout := (Inventory.scan t p.ignored p.settings.context.scanDepth p.root).summary
    assembledAt := now }

/-- The bundle for these requests, from the cache if it has one. -/
def bundleFor (p : Project) (t : FileTree) (c : Cache) (clock : Clock) (intent : String)
    (requests : List Request) : Bundle × Cache :=
  if p.settings.cache.enabled && !requests.isEmpty then
    let files := requests.map (·.path)
    match c.get t clock.asked files with
    | (some bundle, c) => ({ bundle with intent := intent }, c)
    | (none, c) =>
      let bundle := p.assemble t clock.assembled intent requests
      (bundle, c.set t clock.stored files bundle)
  else (p.assemble t clock.assembled intent requests, c)

/-- The bundle for an intent: for the files it mentions and for further targets. -/
def collect (p : Project) (t : FileTree) (c : Cache) (clock : Clock) (intent : String)
    (mentions : List Mention) (targets : List Path) : Bundle × Cache :=
  p.bundleFor t c clock intent (p.requests t mentions targets)

end Project

end ChangeContext
