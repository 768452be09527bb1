import ReadBarrier.Dumps
import ReadBarrier.Scenario.Stage

/-!
Dumps of the objects of a scenario.
-/

namespace ReadBarrier.Scenario

open Text

variable {ν : Type}

def signalDump (w : World (host ν)) : SignalRef Double → Dump
  | .cache i => ((w.caches[i]?).map (·.dump)).getD (.raw "CacheSignal")
  | .foreign (.recording i) =>
    (((stageOf w).recordings[i]?).map (·.dump)).getD (.raw "RecordingSignal")
  | .foreign (.probe _) => .raw "Probe"

def Work.dump? (w : World (host ν)) : Work ν → Option Dump
  | .tracked t => some t.dump
  | .inScope s => some (s.dump (signalDump w) (.raw "Inner"))
  | .cacheReady r => some (r.dump (signalDump w))
  | _ => none

def Object.dump? (w : World (host ν)) : Object ν → Option Dump
  | .signal s => some (signalDump w s)
  | .lease l => some (l.dump (signalDump w))
  | .future work => work.dump? w
  | .function name _ => some (TrackedFunction.dumpNamed name)
  | .table t => some t.dump
  | .instrumenter i => some i.dump
  | _ => none

end ReadBarrier.Scenario
