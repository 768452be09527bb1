import ReadBarrier.World

/-!
The ambient work unit of a thread.

Entered units stand on a stack, and the innermost is current. A guard takes its own entry off, so
guards may go in any order. While the current unit is being looked at, the stack is fixed: to enter
or leave a unit then panics, and the stack stays as it is.

A scoped future enters its unit for each of its polls only, so that its unit is never current for
anyone else.
-/

namespace ReadBarrier

variable {H : Host} {α φ : Type}

/-- The right to take one entry off the stack again. -/
structure Guard where
  number : Nat
  deriving DecidableEq

/-- Makes a unit current until the guard is left. -/
def WorkUnit.enter (unit : WorkUnit H.Signal) : Act H Guard := do
  let number ← modifyGet fun w => (w.nextGuard, { w with nextGuard := w.nextGuard + 1 })
  if (← get).units.borrows = 0 then
    modify fun w => { w with units.entries := ⟨number, unit⟩ :: w.units.entries }
    return ⟨number⟩
  else throw .storeBorrowed

/-- Takes the guard's own entry off the stack, if it is there. -/
def Guard.leave (guard : Guard) : Act H Unit := do
  if (← get).units.borrows = 0 then
    modify fun w =>
      { w with units.entries := w.units.entries.eraseP (·.guard == guard.number) }
  else throw .storeBorrowed

/-- Runs `body` while the store is borrowed. -/
def borrowing (body : Act H α) : Act H α := do
  modify fun w => { w with units.borrows := w.units.borrows + 1 }
  body.always (modify fun w => { w with units.borrows := w.units.borrows - 1 })

/-- Shows `look` the current unit, in place. -/
def withCurrent (look : Option (WorkUnit H.Signal) → Act H α) : Act H α := do
  let unit := (← get).units.current?
  borrowing (look unit)

/-- The signal of the unit that the guard entered, if that is on the stack and carries one. -/
def UnitStore.signalOf? {σ : Type} (s : UnitStore σ) (guard : Guard) : Option (SignalRef σ) :=
  (s.entries.find? (·.guard == guard.number)).bind (·.unit.signal?)

/-- Drops the guard: takes its own entry off the stack, and then drops the unit in it, for which
the store stays borrowed. The guards of `WorkUnit.run` and `Scoped.poll` are only left, since their
unit outlives them. -/
def Guard.drop [Foreign H] (guard : Guard) : Act H Unit := do
  let signal? := (← get).units.signalOf? guard
  guard.leave
  match signal? with
  | none => pure ()
  | some signal => borrowing signal.retire

def currentUnit : Act H (Option (WorkUnit H.Signal)) := withCurrent pure

def WorkUnit.run (unit : WorkUnit H.Signal) (body : Act H α) : Act H α := do
  let guard ← unit.enter
  body.always guard.leave

/-- Runs `body` on a thread of its own, which starts with no units. -/
def onFreshThread (body : Act H α) : Act H α := do
  let units ← modifyGet fun w => (w.units, { w with units := {} })
  body.always (modify fun w => { w with units })

/-- A future together with the unit in which it is polled. -/
structure Scoped (σ φ : Type) where
  unit : WorkUnit σ
  inner : φ

/-- Polls a scoped future, given the poll of its inner one: the unit is current during that poll
only. If the unit cannot be entered, the inner future is not polled. -/
def Scoped.poll (future : Scoped H.Signal φ) (inner : Run H (Outcome H α × φ)) :
    Run H (Outcome H α × Scoped H.Signal φ) := do
  match ← future.unit.enter.run with
  | .error p => return (.error p, future)
  | .ok guard =>
    let (answer, rest) ← inner
    let left ← guard.leave.run
    return (Outcome.after left answer, { future with inner := rest })

end ReadBarrier
