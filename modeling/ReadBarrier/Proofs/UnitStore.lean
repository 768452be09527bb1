import ReadBarrier.Proofs.Act

/-!
How calls on the store of units come out, where no look-up is in progress and where one is.
-/

namespace ReadBarrier

open Act

variable {H : Host} {α β φ : Type}

theorem exec_enter {w : World H} (hidle : w.units.borrows = 0) (unit : WorkUnit H.Signal) :
    exec unit.enter w =
      (.ok ⟨w.nextGuard⟩,
        { w with
          units := { w.units with entries := ⟨w.nextGuard, unit⟩ :: w.units.entries }
          nextGuard := w.nextGuard + 1 }) := by
  rw [WorkUnit.enter, exec_bind, exec_modifyGet]
  simp only [exec_bind, exec_get]
  rw [if_pos hidle]
  rfl

theorem exec_leave {w : World H} (hidle : w.units.borrows = 0) (guard : Guard) :
    exec guard.leave w =
      (.ok (), { w with
        units := { w.units with
          entries := w.units.entries.eraseP (·.guard == guard.number) } }) := by
  rw [Guard.leave, exec_bind, exec_get]
  simp only
  rw [if_pos hidle]
  rfl

/-- The world when the store is borrowed once more. -/
def World.borrowed (w : World H) : World H :=
  { w with units := { w.units with borrows := w.units.borrows + 1 } }

def World.returned (w : World H) : World H :=
  { w with units := { w.units with borrows := w.units.borrows - 1 } }

theorem exec_borrowing (body : Act H α) (w : World H) :
    exec (borrowing body) w = ((exec body w.borrowed).1, (exec body w.borrowed).2.returned) := by
  refine (exec_always body _ w.borrowed).trans ?_
  rcases exec body w.borrowed with ⟨_ | a, v⟩ <;> rfl

theorem exec_withCurrent (look : Option (WorkUnit H.Signal) → Act H α) (w : World H) :
    exec (withCurrent look) w =
      ((exec (look w.units.current?) w.borrowed).1,
        (exec (look w.units.current?) w.borrowed).2.returned) := by
  rw [withCurrent, exec_bind, exec_get]
  exact exec_borrowing (look w.units.current?) w

/-- The unit of a guard that is dropped goes while the store is borrowed. -/
theorem exec_drop [Foreign H] {w : World H} (hidle : w.units.borrows = 0) (guard : Guard) :
    exec guard.drop w =
      match w.units.signalOf? guard with
      | none => exec guard.leave w
      | some signal =>
        ((exec signal.retire (exec guard.leave w).2.borrowed).1,
          (exec signal.retire (exec guard.leave w).2.borrowed).2.returned) := by
  rw [Guard.drop, exec_bind, exec_get]
  simp only [exec_bind, exec_leave hidle]
  rcases w.units.signalOf? guard with _ | signal
  · rfl
  · exact exec_borrowing signal.retire _

/-- Where no signal has anything to do when its unit goes, to drop a guard is to leave it. -/
theorem exec_drop_eq_leave [Foreign H]
    (hretire : ∀ (signal : H.Signal) (w : World H), exec (Foreign.retire signal) w = (.ok (), w))
    (guard : Guard) {w : World H} (hidle : w.units.borrows = 0) :
    exec guard.drop w = exec guard.leave w := by
  have hsignal (signal : SignalRef H.Signal) (v : World H) : exec signal.retire v = (.ok (), v) := by
    cases signal with
    | cache i => rfl
    | foreign signal => exact hretire signal v
  rw [exec_drop hidle]
  rcases w.units.signalOf? guard with _ | signal
  · rfl
  · simp only [hsignal, exec_leave hidle]
    rfl

/-- A body that gives the store back idle runs between the entering and the leaving of its guard. -/
theorem exec_run {w v : World H} {unit : WorkUnit H.Signal} {body : Act H α}
    {r : Except (Panic H) α} (hidle : w.units.borrows = 0)
    (hbody : exec body
      { w with
        units := { w.units with entries := ⟨w.nextGuard, unit⟩ :: w.units.entries }
        nextGuard := w.nextGuard + 1 } = (r, v))
    (hv : v.units.borrows = 0) :
    exec (unit.run body) w =
      (r, { v with
        units := { v.units with entries := v.units.entries.eraseP (·.guard == w.nextGuard) } }) := by
  rw [WorkUnit.run, exec_bind, exec_enter hidle]
  simp only [exec_always, hbody]
  cases r with
  | ok a => simp only [exec_leave hv]; rfl
  | error p => simp only [exec_leave hv]

theorem run_poll (future : Scoped H.Signal φ) (inner : Run H (Outcome H β × φ)) {w v : World H}
    {r : Outcome H β × φ} (hidle : w.units.borrows = 0)
    (hinner : inner.run
      { w with
        units := { w.units with entries := ⟨w.nextGuard, future.unit⟩ :: w.units.entries }
        nextGuard := w.nextGuard + 1 } = (r, v))
    (hv : v.units.borrows = 0) :
    (future.poll inner).run w =
      ((r.1, ⟨future.unit, r.2⟩), { v with
        units := { v.units with entries := v.units.entries.eraseP (·.guard == w.nextGuard) } }) := by
  have henter : StateT.run (ExceptT.run future.unit.enter) w = _ := exec_enter hidle future.unit
  have hpoll : (future.poll inner).run w =
      let polled := inner.run
        { w with
          units := { w.units with entries := ⟨w.nextGuard, future.unit⟩ :: w.units.entries }
          nextGuard := w.nextGuard + 1 }
      let left := exec (Guard.leave ⟨w.nextGuard⟩) polled.2
      ((Outcome.after left.1 polled.1.1, ⟨future.unit, polled.1.2⟩), left.2) := by
    simp only [Scoped.poll, StateT.run_bind, henter]
    rfl
  rw [hpoll, hinner]
  simp only [exec_leave hv]
  obtain ⟨_ | answer, rest⟩ := r <;> rfl

/-! ### During a look-up -/

/-- The world in which the number of a guard was used up. -/
def World.passed (w : World H) : World H := { w with nextGuard := w.nextGuard + 1 }

theorem exec_enter_of_borrowed {w : World H} (hborrowed : 0 < w.units.borrows)
    (unit : WorkUnit H.Signal) : exec unit.enter w = (.error .storeBorrowed, w.passed) := by
  rw [WorkUnit.enter, exec_bind, exec_modifyGet]
  simp only [exec_bind, exec_get]
  rw [if_neg (Nat.ne_of_gt hborrowed)]
  rfl

theorem exec_leave_of_borrowed {w : World H} (hborrowed : 0 < w.units.borrows) (guard : Guard) :
    exec guard.leave w = (.error .storeBorrowed, w) := by
  rw [Guard.leave, exec_bind, exec_get]
  simp only
  rw [if_neg (Nat.ne_of_gt hborrowed)]
  rfl

theorem exec_drop_of_borrowed [Foreign H] {w : World H} (hborrowed : 0 < w.units.borrows)
    (guard : Guard) : exec guard.drop w = (.error .storeBorrowed, w) := by
  rw [Guard.drop, exec_bind, exec_get]
  simp only [exec_bind, exec_leave_of_borrowed hborrowed]

/-- A body whose unit cannot be entered does not run. -/
theorem exec_run_of_borrowed {w : World H} (hborrowed : 0 < w.units.borrows)
    (unit : WorkUnit H.Signal) (body : Act H α) :
    exec (unit.run body) w = (.error .storeBorrowed, w.passed) := by
  rw [WorkUnit.run, exec_bind, exec_enter_of_borrowed hborrowed]

/-- A scoped future whose unit cannot be entered is not polled. -/
theorem run_poll_of_borrowed {w : World H} (hborrowed : 0 < w.units.borrows)
    (future : Scoped H.Signal φ) (inner : Run H (Outcome H β × φ)) :
    (future.poll inner).run w = ((.error .storeBorrowed, future), w.passed) := by
  have henter : StateT.run (ExceptT.run future.unit.enter) w = _ :=
    exec_enter_of_borrowed hborrowed future.unit
  simp only [Scoped.poll, StateT.run_bind, henter]
  rfl

end ReadBarrier
