import ReadBarrier.CacheSignal
import ReadBarrier.Text.Dump

/-!
Dumps of counting signals. Of a waker only its presence is shown.
-/

namespace ReadBarrier

open Text

def Waiter.dump {ω : Type} (w : Waiter ω) : Dump := .call "" [.nat w.ticket, .raw "Waker"]

def CacheSignal.dump {ω : Type} (s : CacheSignal ω) : Dump :=
  .record "CacheSignal" [("state", .record "Mutex" [("data", .record "CacheSignalState"
    [("pending", .nat s.pending), ("total", .nat s.total),
      ("waiters", .list (s.waiters.map (·.dump))), ("next_waiter_id", .nat s.nextTicket)])])]

end ReadBarrier
