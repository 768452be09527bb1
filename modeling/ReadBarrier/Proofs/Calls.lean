import ReadBarrier.Proofs.Routine
import ReadBarrier.Proofs.UnitStore

/-!
What the calls of a routine do to the world, and what they answer.
-/

namespace ReadBarrier

open Act

variable {H : Host} {α β φ : Type}

namespace World

def moment (w : World H.desked) : Moment H.Signal :=
  ⟨w.units.current?, w.units.entries, w.desk.roster⟩

def entered (w : World H.desked) (unit : WorkUnit H.Signal) : World H.desked :=
  { w with
    units := { w.units with entries := ⟨w.nextGuard, unit⟩ :: w.units.entries }
    nextGuard := w.nextGuard + 1
    state := ({ w.desk with roster := w.desk.roster ++ [⟨⟨w.nextGuard, unit⟩, false⟩] }, w.state.2) }

def dropped (w : World H.desked) (key number : Nat) : World H.desked :=
  { w with
    units := { w.units with entries := w.units.entries.eraseP (·.guard == number) }
    state := ({ w.desk with roster := Roster.drop w.desk.roster key }, w.state.2) }

/-- The world after some look-ups. -/
def looked (w : World H.desked) (looks : Nat) : World H.desked :=
  w.jot fun d => { d with
    moments := d.moments ++ List.replicate looks w.moment
    sights := d.sights ++ List.replicate looks (.saw w.units.current?) }

/-- The world after it was written down how the thread stands. -/
def marked (w : World H.desked) : World H.desked :=
  w.jot fun d => { d with moments := d.moments ++ [w.moment] }

def sighted (w : World H.desked) (sight : Sight H.Signal) : World H.desked :=
  w.jot fun d => { d with sights := d.sights ++ [sight] }

end World

section Calls

variable {w v : World H.desked}

theorem run_observed (call : Run H.desked α) :
    (observed call).run w = ((call.run w).1, (call.run w).2.marked) := rfl

theorem exec_enterUnit (hidle : w.units.borrows = 0) (unit : WorkUnit H.Signal) :
    exec (enterUnit unit) w = (.ok w.desk.roster.length, w.entered unit) := by
  have hkey : exec (liftM (nextKey (H := H)) : Act H.desked Nat) w =
      (.ok w.desk.roster.length, w) := rfl
  rw [enterUnit, exec_bind, hkey]
  simp only [exec_bind, exec_enter hidle]
  rfl

theorem exec_leaveUnit (hidle : w.units.borrows = 0) (key : Nat) :
    exec (leaveUnit key) w =
      (.ok (), match w.desk.roster[key]? with
        | none => w
        | some slot => w.dropped key slot.entry.guard) := by
  rw [leaveUnit, exec_bind, exec_get]
  simp only
  cases w.desk.roster[key]? with
  | none => rfl
  | some slot =>
    simp only [exec_bind, exec_leave hidle]
    rfl

theorem run_runUnit_eq (unit : WorkUnit H.Signal) (body : Run H.desked (Outcome H.desked β × φ))
    (w : World H.desked) :
    (runUnit unit body).run w =
      let ran := exec (unit.run (H := H.desked) do
        noteEntered (H := H) w.nextGuard unit
        bodyOf body) w
      (ran.1, ran.2.jot fun d => { d with roster := Roster.drop d.roster w.desk.roster.length }) :=
  rfl

theorem run_pollScoped_eq (future : Scoped H.Signal φ)
    (body : Run H.desked (Outcome H.desked β × φ)) (w : World H.desked) :
    (pollScoped future body).run w =
      let polled := (future.poll (H := H.desked) do
        noteEntered (H := H) w.nextGuard future.unit
        body).run w
      ((polled.1.1, polled.1.2.inner),
        polled.2.jot fun d => { d with roster := Roster.drop d.roster w.desk.roster.length }) :=
  rfl

/-- A body runs in its unit between the entering and the dropping of its guard, and comes out as it
does on its own. -/
theorem run_runUnit {unit : WorkUnit H.Signal} {body : Run H.desked (Outcome H.desked β × φ)}
    {r : Outcome H.desked β × φ} (hidle : w.units.borrows = 0)
    (hbody : body.run (w.entered unit) = (r, v)) (hv : v.units.borrows = 0) :
    (runUnit unit body).run w =
      (r.1.map (·, r.2), v.dropped w.desk.roster.length w.nextGuard) := by
  have hinner : exec (do noteEntered (H := H) w.nextGuard unit; bodyOf body : Act H.desked _)
      { w with
        units := { w.units with entries := ⟨w.nextGuard, unit⟩ :: w.units.entries }
        nextGuard := w.nextGuard + 1 } = (r.1.map (·, r.2), v) := by
    change ((body.run (w.entered unit)).1.1.map (·, (body.run (w.entered unit)).1.2),
      (body.run (w.entered unit)).2) = _
    rw [hbody]
  have hrun := exec_run hidle hinner hv
  rw [run_runUnit_eq, hrun]
  rfl

theorem run_pollScoped {future : Scoped H.Signal φ}
    {body : Run H.desked (Outcome H.desked β × φ)} {r : Outcome H.desked β × φ}
    (hidle : w.units.borrows = 0) (hbody : body.run (w.entered future.unit) = (r, v))
    (hv : v.units.borrows = 0) :
    (pollScoped future body).run w = (r, v.dropped w.desk.roster.length w.nextGuard) := by
  have hpoll := run_poll (H := H.desked) future
    (do noteEntered (H := H) w.nextGuard future.unit; body) hidle hbody hv
  rw [run_pollScoped_eq, hpoll]
  rfl

theorem looked_looked (w : World H.desked) (m n : Nat) :
    (w.looked m).looked n = w.looked (m + n) := by
  have hmoments : w.desk.moments ++ List.replicate m w.moment ++ List.replicate n w.moment =
      w.desk.moments ++ List.replicate (m + n) w.moment := by
    rw [List.append_assoc, List.replicate_append_replicate]
  have hsights : w.desk.sights ++ List.replicate m (Sight.saw w.units.current?) ++
      List.replicate n (Sight.saw w.units.current?) =
        w.desk.sights ++ List.replicate (m + n) (Sight.saw w.units.current?) := by
    rw [List.append_assoc, List.replicate_append_replicate]
  change ({ w with
    state := ({ w.desk with
      moments := w.desk.moments ++ List.replicate m w.moment ++ List.replicate n w.moment
      sights := w.desk.sights ++ List.replicate m (.saw w.units.current?) ++
        List.replicate n (.saw w.units.current?) }, w.state.2) } : World H.desked) = _
  rw [hmoments, hsights]
  rfl

theorem exec_showUnit (callback : Option (WorkUnit H.Signal) → Act H.desked Unit)
    {r : Except (Panic H.desked) Unit} {looks : Nat}
    (h : ∀ v, v.units.current? = w.units.current? →
      exec (callback w.units.current?) v = (r, v.looked looks)) :
    exec (showUnit callback) w =
      (r.map fun _ => w.units.current?, w.looked (looks + 1)) := by
  have hshown := h (w.borrowed.looked 1) rfl
  rw [looked_looked, Nat.add_comm] at hshown
  have hlook : exec (do
        noteSight (H := H) (.saw w.units.current?)
        noteMoment (H := H) w.units.current?
        callback w.units.current?
        return w.units.current? : Act H.desked _) w.borrowed =
      (r.map fun _ => w.units.current?, w.borrowed.looked (looks + 1)) := by
    change exec (callback w.units.current? >>= _) (w.borrowed.looked 1) = _
    rw [exec_bind, hshown]
    cases r <;> rfl
  rw [showUnit, exec_withCurrent, hlook]
  rfl

/-- How a callback comes out that is shown a unit, and how often it looks. -/
def Callback.result : Callback H → Option (WorkUnit H.Signal) →
    Except (Panic H.desked) Unit × Nat
  | .done outcome, _ => (outcome, 0)
  | .look callback next, unit =>
    let shown := (callback unit).result unit
    let later := (next shown.1).result unit
    (later.1, shown.2 + 1 + later.2)

theorem Callback.exec_play (callback : Callback H) (w : World H.desked) :
    exec callback.play w =
      ((callback.result w.units.current?).1, w.looked (callback.result w.units.current?).2) := by
  induction callback generalizing w with
  | done outcome =>
    have hnone : w.looked 0 = w := by
      simp [World.looked, World.jot]
    rw [Callback.result, hnone]
    rcases outcome with p | ⟨⟩ <;> rfl
  | look callback next ihshown ihnext =>
    have hshown := exec_showUnit (w := w) (fun unit => (callback unit).play)
      fun v hv => by rw [ihshown, hv]
    have hresult : ∀ r : Except (Panic H.desked) Unit,
        ((r.map fun _ => w.units.current?).map fun _ => ()) = r := by
      rintro (p | ⟨⟩) <;> rfl
    rw [Callback.play, exec_bind, exec_attempt, hshown]
    simp only [hresult]
    rw [ihnext, looked_looked]
    rfl

end Calls

/-! ### Tracking -/

/-- The world after an import was tracked, or was not because its signal panicked. -/
def World.tracked (w : World H.desked) :
    Except (Panic H.desked) (Option (SignalRef H.Signal)) → World H.desked
  | .ok signal => w.sighted (.began signal)
  | .error _ => w

namespace Signals

variable (signals : Signals H)

def reply : SignalRef H.Signal → Except (Panic H.desked) Unit
  | .cache _ => .ok ()
  | .foreign signal => signals.answer signal

/-- How tracking an import comes out where the current unit has this signal. -/
def track : Option (SignalRef H.Signal) → Except (Panic H.desked) (Option (SignalRef H.Signal))
  | none => .ok none
  | some signal => (signals.reply signal).map fun _ => some signal

variable {w : World H.desked}

theorem exec_beginRead (hidle : w.units.borrows = 0) (signal : SignalRef H.Signal) :
    let _ := signals.foreign
    (exec (SignalRef.beginRead (H := H.desked) signal) w).1 = signals.reply signal ∧
      w.Aside (exec (SignalRef.beginRead (H := H.desked) signal) w).2 := by
  cases signal with
  | cache i => exact ⟨rfl, rfl, rfl, Nat.le_refl _⟩
  | foreign signal => exact signals.begins signal w hidle

/-- An import counts on the signal of the current unit, and nothing happens to the units. -/
theorem exec_trackAny (hidle : w.units.borrows = 0) :
    let _ := signals.foreign
    ∃ v, w.Aside v ∧
      exec trackAny w = (signals.track w.signal?, v.tracked (signals.track w.signal?)) := by
  intro _
  let _ := startedImport (H := H)
  have htrack : exec (trackImport (H := H.desked) ()) w = _ := exec_trackImport () w
  cases hs : w.signal? with
  | none =>
    rw [hs] at htrack
    refine ⟨w, ⟨rfl, rfl, Nat.le_refl _⟩, ?_⟩
    rw [trackAny, exec_bind, htrack]
    rfl
  | some signal =>
    obtain ⟨hreply, haside⟩ := signals.exec_beginRead hidle signal
    have hbegin := ReadLease.exec_begin (H := H.desked) signal w
    rw [ReadLease.begun] at hbegin
    rw [track, ← hreply, trackAny, exec_bind, htrack, hs]
    rcases hread : exec (SignalRef.beginRead (H := H.desked) signal) w with ⟨p | ⟨⟩, v⟩
    · rw [hread] at hbegin haside
      refine ⟨v, haside, ?_⟩
      simp only [hbegin]
      rfl
    · rw [hread] at hbegin haside
      refine ⟨{ v with history := .leaseBegun signal :: v.history },
        ⟨haside.units, haside.desk, haside.nextGuard⟩, ?_⟩
      simp only [hbegin]
      rfl

end Signals

/-! ### Routines, call by call -/

namespace Routine

variable {signals : Signals H} {w v : World H.desked}

theorem run_enter (hidle : w.units.borrows = 0) (unit : WorkUnit H.Signal)
    (next : Except (Panic H.desked) Nat → Routine H β φ) :
    ((enter unit next).play signals).run w =
      ((next (.ok w.desk.roster.length)).play signals).run (w.entered unit).marked := by
  have hcall : StateT.run (ExceptT.run (enterUnit unit)) w = _ := exec_enterUnit hidle unit
  rw [play, StateT.run_bind, run_observed, hcall]
  rfl

theorem run_leave (hidle : w.units.borrows = 0) (key : Nat)
    (next : Except (Panic H.desked) Unit → Routine H β φ) :
    ((leave key next).play signals).run w =
      ((next (.ok ())).play signals).run
        (match w.desk.roster[key]? with
          | none => w
          | some slot => w.dropped key slot.entry.guard).marked := by
  have hcall : StateT.run (ExceptT.run (leaveUnit key)) w = _ := exec_leaveUnit hidle key
  rw [play, StateT.run_bind, run_observed, hcall]
  rfl

theorem run_look (callback : Option (WorkUnit H.Signal) → Callback H)
    (next : Except (Panic H.desked) (Option (WorkUnit H.Signal)) → Routine H β φ) :
    ((look callback next).play signals).run w =
      let shown := (callback w.units.current?).result w.units.current?
      ((next (shown.1.map fun _ => w.units.current?)).play signals).run
        (w.looked (shown.2 + 1)).marked := by
  have hcall : StateT.run (ExceptT.run (showUnit fun unit => (callback unit).play)) w = _ :=
    exec_showUnit _ fun v hv => by rw [Callback.exec_play, hv]
  rw [play, StateT.run_bind, run_observed, hcall]
  rfl

theorem run_run {unit : WorkUnit H.Signal} {body : Routine H β φ} {r : Outcome H.desked β × φ}
    (hidle : w.units.borrows = 0) (hbody : (body.play signals).run (w.entered unit) = (r, v))
    (hv : v.units.borrows = 0) (next : Except (Panic H.desked) (Poll β × φ) → Routine H β φ) :
    ((run unit body next).play signals).run w =
      ((next (r.1.map (·, r.2))).play signals).run
        (v.dropped w.desk.roster.length w.nextGuard).marked := by
  rw [play, StateT.run_bind, run_observed, run_runUnit hidle hbody hv]
  rfl

theorem run_poll {future : Scoped H.Signal φ} {body : Routine H β φ}
    {r : Outcome H.desked β × φ} (hidle : w.units.borrows = 0)
    (hbody : (body.play signals).run (w.entered future.unit) = (r, v))
    (hv : v.units.borrows = 0) (next : Outcome H.desked β × φ → Routine H β φ) :
    ((poll future body next).play signals).run w =
      ((next r).play signals).run (v.dropped w.desk.roster.length w.nextGuard).marked := by
  rw [play, StateT.run_bind, run_observed, run_pollScoped hidle hbody hv]
  rfl

theorem run_track (signals : Signals H) (hidle : w.units.borrows = 0)
    (next : Except (Panic H.desked) (Option (SignalRef H.Signal)) → Routine H β φ) :
    ∃ v, w.Aside v ∧ ((track next).play signals).run w =
      ((next (signals.track w.signal?)).play signals).run
        (v.tracked (signals.track w.signal?)).marked := by
  let _ := signals.foreign
  obtain ⟨v, haside, htrack⟩ := signals.exec_trackAny hidle
  have hcall : StateT.run (ExceptT.run (trackAny (H := H))) w = _ := htrack
  refine ⟨v, haside, ?_⟩
  rw [play, StateT.run_bind, run_observed, hcall]
  rfl

theorem run_aside (detour : Detour H) (next : Routine H β φ) :
    ((aside detour next).play signals).run w = (next.play signals).run (detour.act w).marked := rfl

end Routine

end ReadBarrier
