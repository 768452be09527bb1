import ReadBarrier.CacheReady
import ReadBarrier.CacheSignal.Dump
import ReadBarrier.TrackedFunction
import ReadBarrier.UnitStore

/-!
Dumps of what refers to read signals, given how a signal itself is shown.
-/

namespace ReadBarrier

open Text

variable {σ : Type} (signal : SignalRef σ → Dump)

def WorkUnit.Kind.variantName : WorkUnit.Kind → String
  | .prerender => "Prerender"
  | .prerenderPpr => "PrerenderPpr"
  | .prerenderLegacy => "PrerenderLegacy"
  | .request => "Request"
  | .cache => "Cache"
  | .unstableCache => "UnstableCache"

def WorkUnit.dump : WorkUnit σ → Dump
  | .prerender s => .record "Prerender" [("cache_signal", .option (s.map signal))]
  | unit => .raw unit.kind.variantName

def ReadLease.dump (lease : ReadLease σ) : Dump :=
  .record "ReadLease" [("signal", signal lease.signal)]

def CacheReady.dump (r : CacheReady) : Dump :=
  .record "CacheReady"
    [("signal", signal (.cache r.signal)), ("waiter", .option (r.ticket.map .nat))]

/-- The dump of a scoped future, given the one of its inner future. -/
def Scoped.dump {φ : Type} (inner : Dump) (s : Scoped σ φ) : Dump :=
  .record "Scoped" [("unit", s.unit.dump signal), ("future", inner)]

omit signal in
def TrackedImport.dump {φ : Type} (t : TrackedImport σ φ) : Dump :=
  .partialRecord "TrackedImport" [("tracking", .bool t.isTracking)]

def TrackedFunction.dumpNamed (name : String) : Dump :=
  .partialRecord "TrackedFunction" [("name", .string name)]

end ReadBarrier
