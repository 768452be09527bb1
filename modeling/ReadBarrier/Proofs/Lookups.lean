import ReadBarrier.Proofs.Guards

/-!
What may be done with units during a look-up, and what is left of it afterwards.

A call that would change the stack panics during a look-up, and the stack stays as it is. But a
guard that is dropped then is gone, and nobody is left to take off its entry: that is orphaned.
-/

namespace ReadBarrier

open Act

variable {H : Host} {α β φ : Type}

/-! ### Worlds in which a look-up is in progress, and worlds in which none is -/

namespace World

variable {w : World H}

/-- Whatever would enter or leave a unit panics, and the stack stays as it is. No body is run and no
inner future is polled. The current unit may be looked at. -/
structure Rigid (w : World H) : Prop where
  current : exec currentUnit w = (.ok w.units.current?, w)
  signal : exec (withCurrent fun unit => pure (unit.bind WorkUnit.signal?)) w = (.ok w.signal?, w)
  enter : ∀ unit : WorkUnit H.Signal, exec unit.enter w = (.error .storeBorrowed, w.passed)
  leave : ∀ guard : Guard, exec guard.leave w = (.error .storeBorrowed, w)
  run : ∀ {α : Type} (unit : WorkUnit H.Signal) (body : Act H α),
    exec (unit.run body) w = (.error .storeBorrowed, w.passed)
  poll : ∀ {α φ : Type} (future : Scoped H.Signal φ) (inner : Run H (Outcome H α × φ)),
    (future.poll inner).run w = ((.error .storeBorrowed, future), w.passed)

theorem rigid_of_borrowed (hborrowed : 0 < w.units.borrows) : w.Rigid where
  current := exec_withCurrent_pure id w
  signal := exec_withCurrent_pure _ w
  enter unit := exec_enter_of_borrowed hborrowed unit
  leave guard := exec_leave_of_borrowed hborrowed guard
  run unit body := exec_run_of_borrowed hborrowed unit body
  poll future inner := run_poll_of_borrowed hborrowed future inner

/-- The world with the next guard's entry on the stack. -/
def pushed (w : World H) (unit : WorkUnit H.Signal) : World H :=
  { w with
    units := { w.units with entries := ⟨w.nextGuard, unit⟩ :: w.units.entries }
    nextGuard := w.nextGuard + 1 }

/-- The world without the entry of this number on the stack. -/
def erased (w : World H) (number : Nat) : World H :=
  { w with units := { w.units with entries := w.units.entries.eraseP (·.guard == number) } }

/-- Units are entered and left, and bodies and inner futures run in theirs. -/
structure Pliant (w : World H) : Prop where
  idle : w.units.borrows = 0
  current : exec currentUnit w = (.ok w.units.current?, w)
  signal : exec (withCurrent fun unit => pure (unit.bind WorkUnit.signal?)) w = (.ok w.signal?, w)
  enter : ∀ unit : WorkUnit H.Signal, exec unit.enter w = (.ok ⟨w.nextGuard⟩, w.pushed unit)
  leave : ∀ guard : Guard, exec guard.leave w = (.ok (), w.erased guard.number)
  run : ∀ {α : Type} (unit : WorkUnit H.Signal) (body : Act H α),
    let inside := exec body (w.pushed unit)
    inside.2.units.borrows = 0 →
      exec (unit.run body) w = (inside.1, inside.2.erased w.nextGuard)
  poll : ∀ {α φ : Type} (future : Scoped H.Signal φ) (inner : Run H (Outcome H α × φ)),
    let inside := inner.run (w.pushed future.unit)
    inside.2.units.borrows = 0 →
      (future.poll inner).run w =
        ((inside.1.1, ⟨future.unit, inside.1.2⟩), inside.2.erased w.nextGuard)

theorem pliant_of_idle (hidle : w.units.borrows = 0) : w.Pliant where
  idle := hidle
  current := exec_withCurrent_pure id w
  signal := exec_withCurrent_pure _ w
  enter unit := exec_enter hidle unit
  leave guard := exec_leave hidle guard
  run _ _ := fun hv => exec_run hidle rfl hv
  poll future inner := fun hv => run_poll future inner hidle rfl hv

/-- The world when `n` more look-ups are in progress. -/
def borrowedBy (w : World H) (n : Nat) : World H :=
  { w with units := { w.units with borrows := w.units.borrows + n } }

def returnedBy (w : World H) (n : Nat) : World H :=
  { w with units := { w.units with borrows := w.units.borrows - n } }

theorem rigid_borrowedBy (w : World H) (n : Nat) : (w.borrowedBy (n + 1)).Rigid :=
  rigid_of_borrowed (Nat.succ_pos _)

theorem borrowed_borrowedBy (w : World H) (n : Nat) :
    w.borrowed.borrowedBy n = w.borrowedBy (n + 1) := by
  have hborrows : w.units.borrows + 1 + n = w.units.borrows + (n + 1) := by omega
  change ({ w with units := { w.units with borrows := w.units.borrows + 1 + n } } : World H) = _
  rw [hborrows]
  rfl

theorem returnedBy_borrowedBy (w : World H) (n : Nat) : (w.borrowedBy n).returnedBy n = w := by
  have hborrows : w.units.borrows + n - n = w.units.borrows := Nat.add_sub_cancel ..
  change ({ w with units := { w.units with borrows := w.units.borrows + n - n } } : World H) = _
  rw [hborrows]

end World

/-- Shows `look` the current unit in a look-up within `depth` others. -/
def lookups : Nat → (Option (WorkUnit H.Signal) → Act H α) → Act H α
  | 0, look => withCurrent look
  | depth + 1, look => withCurrent fun _ => lookups depth look

/-- However deep it is, the innermost look-up shows what the outermost does. -/
theorem exec_lookups (depth : Nat) (look : Option (WorkUnit H.Signal) → Act H α) (w : World H) :
    exec (lookups depth look) w =
      ((exec (look w.units.current?) (w.borrowedBy (depth + 1))).1,
        (exec (look w.units.current?) (w.borrowedBy (depth + 1))).2.returnedBy (depth + 1)) := by
  induction depth generalizing w with
  | zero => exact exec_withCurrent look w
  | succ depth ih =>
    rw [lookups, exec_withCurrent, ih, World.borrowed_borrowedBy]
    rfl

/-! ### Who holds the guards -/

/-- What became of a guard. -/
inductive Hold where
  /-- Somebody has it, and may drop it. -/
  | held
  /-- It is that of a body which is not over. -/
  | running
  /-- It was dropped and took its entry off. -/
  | dropped
  /-- It was dropped during a look-up. Its entry is still there. -/
  | orphaned
  deriving DecidableEq

/-- The same host with the guards' holds beside its state, in the order of the roster. -/
abbrev Host.handed (H : Host) : Host := { H with State := List Hold × H.State }

namespace World

def hands (w : World H.handed.desked) : List Hold := w.state.2.1

def rehand (w : World H.handed.desked) (f : List Hold → List Hold) : World H.handed.desked :=
  { w with state := (w.state.1, (f w.hands, w.state.2.2)) }

@[simp] theorem desk_rehand (w : World H.handed.desked) (f : List Hold → List Hold) :
    (w.rehand f).desk = w.desk := rfl

theorem rehand_rehand (w : World H.handed.desked) (f g : List Hold → List Hold) :
    (w.rehand f).rehand g = w.rehand fun hands => g (f hands) := rfl

/-- The thread of the world with nothing on its stack, before its first guard. -/
def emptied (w : World H.handed.desked) : World H.handed.desked :=
  { w with units := {}, state := ({}, ([], w.state.2.2)) }

end World

def regrip (f : List Hold → List Hold) : Run H.handed.desked Unit := modify (·.rehand f)

/-- Enters a unit and holds on to its guard. -/
def takeUnit (unit : WorkUnit H.Signal) : Act H.handed.desked Nat := do
  let key ← enterUnit (H := H.handed) unit
  regrip (H := H) (· ++ [.held])
  return key

/-- Drops a guard if it is held. From then on nobody holds it, whether its entry came off or not. -/
def dropHeld (key : Nat) : Act H.handed.desked Unit := do
  if (← get).hands[key]? = some .held then
    regrip (H := H) (·.set key .orphaned)
    leaveUnit (H := H.handed) key
    regrip (H := H) (·.set key .dropped)

/-- Runs `body`, to which the unit just entered belongs. -/
def inOwnUnit (body : Run H.handed.desked (Outcome H.handed.desked β × φ)) :
    Run H.handed.desked (Outcome H.handed.desked β × φ) := do
  regrip (H := H) (· ++ [.running])
  body

/-- Makes a call at the end of which the next guard is dropped, if it was entered. -/
def spending (call : Run H.handed.desked α) : Run H.handed.desked α := do
  let key ← nextKey (H := H.handed)
  let result ← call
  regrip (H := H) (·.set key .dropped)
  return result

/-- Something else that is done or that happens meanwhile. It enters and drops no guards here. -/
structure Digression (H : Host) extends Detour H.handed where
  hands : ∀ w : World H.handed.desked, (act w).hands = w.hands

/-- What code does with units, in look-ups and outside of them. Each call is given with what is done
next, which depends on how the call came out. -/
inductive Conduct (H : Host) (β φ : Type) where
  | done (outcome : Outcome H.handed.desked β) (rest : φ)
  | enter (unit : WorkUnit H.Signal)
      (next : Except (Panic H.handed.desked) Nat → Conduct H β φ)
  /-- Drops the guard of this key, if it is held. -/
  | drop (key : Nat) (next : Except (Panic H.handed.desked) Unit → Conduct H β φ)
  /-- Looks at the current unit. The callback may do all that code does outside of it. -/
  | look (callback : Option (WorkUnit H.Signal) → Conduct H β φ)
      (next : Except (Panic H.handed.desked) (Poll β × φ) → Conduct H β φ)
  | run (unit : WorkUnit H.Signal) (body : Conduct H β φ)
      (next : Except (Panic H.handed.desked) (Poll β × φ) → Conduct H β φ)
  /-- Polls a scoped future, of which `body` is that poll. -/
  | poll (future : Scoped H.Signal φ) (body : Conduct H β φ)
      (next : Outcome H.handed.desked β × φ → Conduct H β φ)
  | aside (digression : Digression H) (next : Conduct H β φ)

/-- After each call it is written down how the thread stands, in look-ups too. -/
def Conduct.play : Conduct H β φ → Run H.handed.desked (Outcome H.handed.desked β × φ)
  | .done outcome rest => return (outcome, rest)
  | .enter unit next => do
    let outcome ← observed (H := H.handed) (takeUnit unit).run
    (next outcome).play
  | .drop key next => do
    let outcome ← observed (H := H.handed) (dropHeld key).run
    (next outcome).play
  | .look callback next => do
    let outcome ← observed (H := H.handed)
      (withCurrent (H := H.handed.desked) fun unit =>
        bodyOf (H := H.handed) (callback unit).play).run
    (next outcome).play
  | .run unit body next => do
    let outcome ← observed (H := H.handed)
      (spending (runUnit (H := H.handed) unit (inOwnUnit body.play)))
    (next outcome).play
  | .poll future body next => do
    let result ← observed (H := H.handed)
      (spending (pollScoped (H := H.handed) future (inOwnUnit body.play)))
    (next result).play
  | .aside digression next => do
    observed (H := H.handed) (modify digression.act)
    next.play

/-! ### How the calls come out -/

section Calls

variable {v w : World H.handed.desked}

theorem exec_leaveUnit_of_borrowed {w : World H.desked} (hborrowed : 0 < w.units.borrows) {key : Nat}
    {slot : Slot H.Signal} (hslot : w.desk.roster[key]? = some slot) :
    exec (leaveUnit key) w = (.error .storeBorrowed, w) := by
  rw [leaveUnit, exec_bind, exec_get]
  simp only
  rw [hslot]
  simp only [exec_bind, exec_leave_of_borrowed (H := H.desked) hborrowed]

theorem exec_takeUnit (hidle : w.units.borrows = 0) (unit : WorkUnit H.Signal) :
    exec (takeUnit unit) w =
      (.ok w.desk.roster.length, (w.entered unit).rehand (· ++ [.held])) := by
  rw [takeUnit, exec_bind, exec_enterUnit (H := H.handed) hidle]
  rfl

theorem exec_takeUnit_of_borrowed (hborrowed : 0 < w.units.borrows) (unit : WorkUnit H.Signal) :
    exec (takeUnit unit) w = (.error .storeBorrowed, w.passed) := by
  have hkey : exec (liftM (nextKey (H := H.handed)) : Act H.handed.desked Nat) w =
      (.ok w.desk.roster.length, w) := rfl
  rw [takeUnit, exec_bind, enterUnit, exec_bind, hkey]
  simp only [exec_bind, exec_enter_of_borrowed (H := H.handed.desked) hborrowed]

theorem exec_dropHeld_of_ne {key : Nat} (hne : w.hands[key]? ≠ some .held) :
    exec (dropHeld key) w = (.ok (), w) := by
  rw [dropHeld, exec_bind, exec_get]
  simp only
  rw [if_neg hne]
  rfl

/-- A guard that is held is out of the hands before its entry comes off. -/
theorem exec_dropHeld_of_held {key : Nat} (hheld : w.hands[key]? = some .held) :
    exec (dropHeld key) w =
      match exec (leaveUnit (H := H.handed) key) (w.rehand (·.set key .orphaned)) with
      | (.ok (), v) => (.ok (), v.rehand (·.set key .dropped))
      | (.error p, v) => (.error p, v) := by
  rw [dropHeld, exec_bind, exec_get]
  simp only
  rw [if_pos hheld, exec_bind]
  change exec (leaveUnit (H := H.handed) key >>= fun _ => _) (w.rehand (·.set key .orphaned)) = _
  rw [exec_bind]
  rcases exec (leaveUnit (H := H.handed) key) (w.rehand (·.set key .orphaned)) with ⟨_ | ⟨⟩, v⟩ <;>
    rfl

theorem exec_dropHeld (hidle : w.units.borrows = 0) {key : Nat} {slot : Slot H.Signal}
    (hslot : w.desk.roster[key]? = some slot) (hheld : w.hands[key]? = some .held) :
    exec (dropHeld key) w =
      (.ok (), (w.dropped key slot.entry.guard).rehand (·.set key .dropped)) := by
  have hleave : exec (leaveUnit (H := H.handed) key) (w.rehand (·.set key .orphaned)) =
      (.ok (), (w.dropped key slot.entry.guard).rehand (·.set key .orphaned)) := by
    rw [exec_leaveUnit (H := H.handed) (w := w.rehand _) hidle, World.desk_rehand, hslot]
    rfl
  rw [exec_dropHeld_of_held hheld, hleave]
  simp only [World.rehand_rehand, List.set_set]

theorem exec_dropHeld_of_borrowed (hborrowed : 0 < w.units.borrows) {key : Nat}
    {slot : Slot H.Signal} (hslot : w.desk.roster[key]? = some slot)
    (hheld : w.hands[key]? = some .held) :
    exec (dropHeld key) w = (.error .storeBorrowed, w.rehand (·.set key .orphaned)) := by
  rw [exec_dropHeld_of_held hheld,
    exec_leaveUnit_of_borrowed (H := H.handed) (w := w.rehand _) hborrowed hslot]

/-- To tick off the next guard changes nothing if none was entered. -/
theorem World.jot_passed (w : World H.desked) :
    (w.passed.jot fun d => { d with roster := Roster.drop d.roster w.desk.roster.length }) =
      w.passed := by
  have hdrop : Roster.drop w.desk.roster w.desk.roster.length = w.desk.roster :=
    List.modify_eq_self (Nat.le_refl _)
  change ({ w with
    nextGuard := w.nextGuard + 1
    state := ({ w.desk with roster := Roster.drop w.desk.roster w.desk.roster.length },
      w.state.2) } : World H.desked) = _
  rw [hdrop]
  rfl

theorem World.rehand_passed (w : World H.handed.desked)
    (h : w.hands.length = w.desk.roster.length) :
    (w.passed.rehand (·.set w.desk.roster.length .dropped)) = w.passed := by
  have hset : w.hands.set w.desk.roster.length .dropped = w.hands :=
    List.set_eq_of_length_le (Nat.le_of_eq h)
  change ({ w.passed with
    state := (w.desk, (w.hands.set w.desk.roster.length .dropped, w.state.2.2)) } :
      World H.handed.desked) = _
  rw [hset]
  rfl

/-- Neither the unit is entered nor the body run. -/
theorem run_runUnit_of_borrowed {w : World H.desked} (hborrowed : 0 < w.units.borrows)
    (unit : WorkUnit H.Signal) (body : Run H.desked (Outcome H.desked β × φ)) :
    (runUnit unit body).run w = (.error .storeBorrowed, w.passed) := by
  have hrun := exec_run_of_borrowed (H := H.desked) hborrowed unit do
    noteEntered (H := H) w.nextGuard unit
    bodyOf body
  rw [run_runUnit_eq, hrun]
  exact congrArg (_, ·) w.jot_passed

theorem run_pollScoped_of_borrowed {w : World H.desked} (hborrowed : 0 < w.units.borrows)
    (future : Scoped H.Signal φ) (body : Run H.desked (Outcome H.desked β × φ)) :
    (pollScoped future body).run w = ((.error .storeBorrowed, future.inner), w.passed) := by
  have hpoll := run_poll_of_borrowed (H := H.desked) hborrowed future do
    noteEntered (H := H) w.nextGuard future.unit
    body
  rw [run_pollScoped_eq, hpoll]
  exact congrArg (_, ·) w.jot_passed

theorem run_spending (call : Run H.handed.desked α) :
    (spending call).run w =
      ((call.run w).1, (call.run w).2.rehand (·.set w.desk.roster.length .dropped)) := rfl

end Calls

end ReadBarrier
