import ReadBarrier.WorkUnit
import ReadBarrier.CacheSignal.Cascade

/-!
The world in which tracked code runs, and the actions on it.

The library shares a process with code that it does not know: read signals, wakers, imports,
functions, loaders. A `Host` names the types which that code brings along, and `Foreign` says what
its signals and wakers do. An action may change the world and then either answer or panic; a panic
keeps the changes made before it.
-/

namespace ReadBarrier

/-- The types that code outside the library brings into the world. -/
structure Host where
  Signal : Type
  Waker : Type
  /-- What it writes into the log. -/
  Note : Type
  Payload : Type
  State : Type

/-- One work unit on the stack of a thread, under the number of the guard that entered it. -/
structure Entry (σ : Type) where
  guard : Nat
  unit : WorkUnit σ

structure UnitStore (σ : Type) where
  /-- The entries, innermost first. -/
  entries : List (Entry σ) := []
  /-- How many look-ups of the current unit are in progress. Meanwhile the entries are fixed. The
  drop of a unit that was taken off the stack counts as well. -/
  borrows : Nat := 0

/-- The current unit, which is the innermost one. -/
def UnitStore.current? {σ : Type} (s : UnitStore σ) : Option (WorkUnit σ) :=
  s.entries.head?.map (·.unit)

inductive Event (H : Host) where
  | cache (occurrence : Occurrence H.Waker)
  | leaseBegun (signal : SignalRef H.Signal)
  | leaseEnded (signal : SignalRef H.Signal)
  | callEntered (name : String)
  /-- A call of a tracked function returned or unwound. -/
  | callExited (name : String)
  /-- An instrumentation pass did nothing because it is switched off. -/
  | passDisabled
  /-- An instrumentation pass wrapped a loader. -/
  | wrapped (global : String) (name : String)
  | note (note : H.Note)

structure World (H : Host) where
  /-- The work units of the running thread. -/
  units : UnitStore H.Signal := {}
  /-- The number of the next guard, on any thread. -/
  nextGuard : Nat := 1
  /-- The library's counting signals. -/
  caches : Bank H.Waker := []
  /-- The log, newest event first. -/
  history : List (Event H) := []
  state : H.State

/-- Why an action did not answer. -/
inductive Panic (H : Host) where
  | thrown (payload : H.Payload)
  /-- A work unit was entered or left while the store was borrowed. -/
  | storeBorrowed

/-- Computations on the world that always answer. -/
abbrev Run (H : Host) := StateM (World H)

/-- Computations on the world that answer or panic. -/
abbrev Act (H : Host) := ExceptT (Panic H) (Run H)

/-- How a poll comes out. The polls below answer with an outcome and the future afterwards, which
outlives a panic. -/
abbrev Outcome (H : Host) (α : Type) := Except (Panic H) (Poll α)

/-- An outcome after a cleanup that came out as `cleanup`. A panic in the cleanup takes the place of
an answer, not of an earlier panic. -/
def Outcome.after {H : Host} {α : Type} (cleanup : Except (Panic H) Unit) :
    Outcome H α → Outcome H α
  | .ok answer => cleanup.map fun _ => answer
  | .error p => .error p

namespace Act

variable {H : Host} {α : Type}

/-- Runs `body` and hands a panic in it back as a value. -/
def attempt (body : Act H α) : Act H (Except (Panic H) α) :=
  ExceptT.mk (Except.ok <$> body.run)

/-- Runs `cleanup` after `body`, whether that answered or panicked. A panic in `body` goes on
afterwards. -/
def always (body : Act H α) (cleanup : Act H Unit) : Act H α := do
  match ← body.attempt with
  | .ok a =>
    cleanup
    return a
  | .error p =>
    let _ ← cleanup.attempt
    throw p

/-- Runs `cleanup` after `body` only if that panicked; the panic goes on afterwards. -/
def onPanic (body : Act H α) (cleanup : Act H Unit) : Act H α := do
  match ← body.attempt with
  | .ok a => return a
  | .error p =>
    let _ ← cleanup.attempt
    throw p

def record (event : Event H) : Act H Unit :=
  modify fun w => { w with history := event :: w.history }

end Act

/-- What the signals and wakers of foreign code do. -/
class Foreign (H : Host) where
  beginRead : H.Signal → Act H Unit
  endRead : H.Signal → Act H Unit
  /-- What comes of a signal when a guard is dropped whose unit may have been the last to hold it. -/
  retire : H.Signal → Act H Unit := fun _ => pure ()
  reactions : Reactions H.Waker

section Signals

variable {H : Host} [Foreign H]

/-- Does duties on the counting signals and logs what happens. -/
def World.settle (w : World H) (duties : List (Duty H.Waker)) : World H :=
  let (caches, happened) := Cascade.settle Foreign.reactions w.caches duties
  { w with caches, history := (happened.map .cache).reverse ++ w.history }

def settle (duties : List (Duty H.Waker)) : Act H Unit := modify (·.settle duties)

def wake (waker : H.Waker) : Act H Unit := settle [.wake waker]

def SignalRef.beginRead : SignalRef H.Signal → Act H Unit
  | .cache i => settle [.call (.beginRead i)]
  | .foreign s => Foreign.beginRead s

/-- Ends a read on a signal. On a counting signal with no read outstanding this is only logged. -/
def SignalRef.endRead : SignalRef H.Signal → Act H Unit
  | .cache i => settle [.call (.endRead i)]
  | .foreign s => Foreign.endRead s

def SignalRef.retire : SignalRef H.Signal → Act H Unit
  | .cache _ => pure ()
  | .foreign s => Foreign.retire s

end Signals

end ReadBarrier
