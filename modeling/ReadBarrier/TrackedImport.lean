import ReadBarrier.Completion
import ReadBarrier.Error
import ReadBarrier.ReadLease

/-!
Tracked imports: futures that keep a read outstanding until they are done.

The read begins when the import is tracked, on the signal of the unit current at that moment, before
the import itself starts. It ends in the poll in which the inner future becomes ready or, if that
never happens, when the tracked import is discarded, after the inner future. In between the current
unit does not matter.
-/

namespace ReadBarrier

/-- What can be turned into a future of type `φ`: `start` does so, and `discard` gives it up
unstarted. -/
class Import (H : Host) (ι : Type) (φ : outParam Type) where
  start : ι → Act H φ
  discard : ι → Act H Unit

/-- A future with the read that it keeps outstanding, if any. -/
structure TrackedImport (σ φ : Type) where
  inner : φ
  lease : Option (ReadLease σ)

namespace TrackedImport

variable {H : Host} [Foreign H] {ι φ α : Type}

def isTracking {σ : Type} (t : TrackedImport σ φ) : Bool := t.lease.isSome

/-- Polls a tracked import, given the poll of its inner future. When that becomes ready, the read
ends before the answer is passed on. -/
def poll (t : TrackedImport H.Signal φ) (inner : Run H (Outcome H α × φ)) :
    Run H (Outcome H α × TrackedImport H.Signal φ) := do
  match ← inner with
  | (.ok (.ready value), rest) =>
    let ended ← (ReadLease.releaseAny t.lease).run
    return (Outcome.after ended (.ok (.ready value)), ⟨rest, none⟩)
  | (unfinished, rest) => return (unfinished, { t with inner := rest })

/-- Discards a tracked import, given how its inner future is discarded: that one first, then the
lease. -/
def discard (t : TrackedImport H.Signal φ) (inner : Act H Unit) : Act H Unit :=
  inner.always (ReadLease.releaseAny t.lease)

end TrackedImport

section Track

variable {H : Host} [Foreign H] {ι φ α : Type} [Import H ι φ]

/-- Counts an import as outstanding work of the current unit. -/
def trackImport (source : ι) : Act H (TrackedImport H.Signal φ) := do
  let lease ← ReadLease.beginCurrent.onPanic (Import.discard source)
  let inner ← (Import.start source).onPanic (ReadLease.releaseAny lease)
  return { inner, lease }

/-- Counts an import that is only made once the read has begun. -/
def trackImportWith (make : Act H ι) : Act H (TrackedImport H.Signal φ) := do
  let lease ← ReadLease.beginCurrent
  let inner ← (make >>= Import.start).onPanic (ReadLease.releaseAny lease)
  return { inner, lease }

/-- Counts an import whose shape is known at run time only. A value that is already there is not
pending work; it is refused, and nothing is counted. -/
def trackCompletion? : Completion α ι → Act H (Except Error (TrackedImport H.Signal φ))
  | .pending source => .ok <$> trackImport source
  | .ready _ => return .error (.invariant "expected a pending import, got a ready value")

end Track

end ReadBarrier
