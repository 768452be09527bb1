import ReadBarrier.UnitStore

/-!
Leases: one begun read each, ended when the lease is released.
-/

namespace ReadBarrier

/-- One begun read on a signal, not yet ended. -/
structure ReadLease (σ : Type) where
  signal : SignalRef σ

namespace ReadLease

variable {H : Host} [Foreign H]

def begin (signal : SignalRef H.Signal) : Act H (ReadLease H.Signal) := do
  signal.beginRead
  Act.record (.leaseBegun signal)
  return ⟨signal⟩

/-- Begins a read on the signal of the current unit, if it has one. The signal is looked up first
and called afterwards, so it never runs during a look-up. -/
def beginCurrent : Act H (Option (ReadLease H.Signal)) := do
  match ← withCurrent fun unit => pure (unit.bind WorkUnit.signal?) with
  | none => return none
  | some signal => some <$> begin signal

def release (lease : ReadLease H.Signal) : Act H Unit := do
  lease.signal.endRead
  Act.record (.leaseEnded lease.signal)

/-- Ends the read of a lease that may be absent. -/
def releaseAny : Option (ReadLease H.Signal) → Act H Unit
  | none => pure ()
  | some lease => lease.release

end ReadLease

end ReadBarrier
