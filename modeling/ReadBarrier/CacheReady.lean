import ReadBarrier.Error
import ReadBarrier.World

/-!
Calls on the library's own counting signals, by number, and futures that wait for one of them to be
quiescent.
-/

namespace ReadBarrier

/-- A future that is ready as soon as a poll finds no read outstanding on its signal. -/
structure CacheReady where
  signal : Nat
  /-- The number of its entry in the signal's list of waiters. The entry may be gone. -/
  ticket : Option Nat := none

namespace CacheReady

variable {H : Host}

def poll (r : CacheReady) (waker : H.Waker) : Run H (Outcome H Unit × CacheReady) := do
  match (← get).caches[r.signal]? with
  | none => return (.ok .pending, r)
  | some s =>
    let (answer, ticket, s) := s.pollReady r.ticket waker
    modify fun w => { w with caches := w.caches.set r.signal s }
    return (.ok answer, { r with ticket })

def discard (r : CacheReady) : Act H Unit :=
  modify fun w => match w.caches[r.signal]? with
    | none => w
    | some s => { w with caches := w.caches.set r.signal (s.abandon r.ticket) }

end CacheReady

/-- Ends a read on a counting signal, or refuses to if none is outstanding. -/
def tryEndRead {H : Host} [Foreign H] (signal : Nat) : Act H (Except Error Unit) := do
  match ((← get).caches[signal]?).bind (·.endRead?) with
  | none => return .error .unpairedEndRead
  | some _ =>
    settle [.call (.endRead signal)]
    return .ok ()

def newCacheSignal {H : Host} : Act H Nat :=
  modifyGet fun w => (w.caches.length, { w with caches := w.caches ++ [{}] })

end ReadBarrier
