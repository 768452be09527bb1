import ReadBarrier.CacheReady
import ReadBarrier.TrackedFunction

/-!
How computations on the world come out, one equation for each way to build them.
-/

namespace ReadBarrier

variable {H : Host} {α β : Type}

namespace Act

/-- How a computation comes out in a world, and the world afterwards. -/
def exec (body : Act H α) (w : World H) : Except (Panic H) α × World H := body.run.run w

@[simp] theorem exec_pure (a : α) (w : World H) : exec (pure a) w = (.ok a, w) := rfl

@[simp] theorem exec_throw (p : Panic H) (w : World H) :
    exec (throw p : Act H α) w = (.error p, w) := rfl

theorem exec_bind (body : Act H α) (f : α → Act H β) (w : World H) :
    exec (body >>= f) w =
      match exec body w with
      | (.ok a, v) => exec (f a) v
      | (.error p, v) => (.error p, v) := by
  simp only [exec, ExceptT.run_bind, StateT.run_bind]
  change (match StateT.run (ExceptT.run body) w with | (a, s) => _) = _
  rcases StateT.run (ExceptT.run body) w with ⟨_ | a, v⟩ <;> rfl

theorem exec_bind_eq_ok {body : Act H α} {f : α → Act H β} {w v : World H} {b : β} :
    exec (body >>= f) w = (.ok b, v) ↔
      ∃ a u, exec body w = (.ok a, u) ∧ exec (f a) u = (.ok b, v) := by
  rw [exec_bind]
  constructor
  · intro h
    rcases hb : exec body w with ⟨_ | a, u⟩
    · simp [hb] at h
    · rw [hb] at h
      exact ⟨a, u, rfl, h⟩
  · rintro ⟨a, u, hb, hf⟩
    rw [hb]
    exact hf

@[simp] theorem exec_map (f : α → β) (body : Act H α) (w : World H) :
    exec (f <$> body) w = ((exec body w).1.map f, (exec body w).2) := by
  rw [map_eq_pure_bind, exec_bind]
  rcases exec body w with ⟨_ | a, v⟩ <;> rfl

@[simp] theorem exec_get (w : World H) : exec (get : Act H (World H)) w = (.ok w, w) := rfl

@[simp] theorem exec_modify (f : World H → World H) (w : World H) :
    exec (modify f : Act H Unit) w = (.ok (), f w) := rfl

@[simp] theorem exec_modifyGet (f : World H → α × World H) (w : World H) :
    exec (modifyGet f : Act H α) w = (.ok (f w).1, (f w).2) := rfl

@[simp] theorem exec_record (event : Event H) (w : World H) :
    exec (record event) w = (.ok (), { w with history := event :: w.history }) := rfl

@[simp] theorem exec_attempt (body : Act H α) (w : World H) :
    exec body.attempt w = (.ok (exec body w).1, (exec body w).2) := rfl

theorem exec_lift (body : Run H α) (w : World H) :
    exec (liftM body) w = (.ok (body.run w).1, (body.run w).2) := rfl

theorem exec_always (body : Act H α) (cleanup : Act H Unit) (w : World H) :
    exec (body.always cleanup) w =
      match exec body w with
      | (.ok a, v) => ((exec cleanup v).1.map fun _ => a, (exec cleanup v).2)
      | (.error p, v) => (.error p, (exec cleanup v).2) := by
  rw [always, exec_bind, exec_attempt]
  rcases exec body w with ⟨_ | a, v⟩
  · simp [exec_bind]
  · simp only [bind_pure_comp, exec_map]

theorem exec_onPanic (body : Act H α) (cleanup : Act H Unit) (w : World H) :
    exec (body.onPanic cleanup) w =
      match exec body w with
      | (.ok a, v) => (.ok a, v)
      | (.error p, v) => (.error p, (exec cleanup v).2) := by
  rw [onPanic, exec_bind, exec_attempt]
  rcases exec body w with ⟨_ | a, v⟩
  · simp [exec_bind]
  · rfl

theorem exec_onPanic_eq_ok {body : Act H α} {cleanup : Act H Unit} {w v : World H} {a : α} :
    exec (body.onPanic cleanup) w = (.ok a, v) ↔ exec body w = (.ok a, v) := by
  rw [exec_onPanic]
  rcases exec body w with ⟨_ | b, u⟩ <;> simp

theorem exec_map_eq_ok {f : α → β} {body : Act H α} {w v : World H} {b : β} :
    exec (f <$> body) w = (.ok b, v) ↔ ∃ a, exec body w = (.ok a, v) ∧ f a = b := by
  rw [exec_map]
  rcases exec body w with ⟨_ | a, u⟩
  · simp [Except.map]
  · constructor
    · intro h
      obtain ⟨rfl, rfl⟩ : f a = b ∧ u = v := by simpa [Except.map] using h
      exact ⟨a, rfl, rfl⟩
    · rintro ⟨c, h, rfl⟩
      obtain ⟨rfl, rfl⟩ : a = c ∧ u = v := by simpa using h
      rfl

end Act

open Act

theorem exec_settle [Foreign H] (duties : List (Duty H.Waker)) (w : World H) :
    exec (settle duties) w = (.ok (), w.settle duties) := rfl

/-- Looking at the current unit leaves the store as it was. -/
theorem exec_withCurrent_pure (f : Option (WorkUnit H.Signal) → α) (w : World H) :
    exec (withCurrent fun unit => pure (f unit)) w = (.ok (f w.units.current?), w) := rfl

namespace CacheReady

theorem run_poll_of_none {r : CacheReady} {w : World H}
    (hs : w.caches[r.signal]? = none) (v : H.Waker) :
    (r.poll v).run w = ((.ok .pending, r), w) := by
  simp only [CacheReady.poll, StateT.run_bind, StateT.run_get, pure_bind, hs]
  rfl

theorem run_poll {r : CacheReady} {w : World H} {s : CacheSignal H.Waker}
    (hs : w.caches[r.signal]? = some s) (v : H.Waker) :
    (r.poll v).run w =
      ((.ok (s.pollReady r.ticket v).1, ⟨r.signal, (s.pollReady r.ticket v).2.1⟩),
        { w with caches := w.caches.set r.signal (s.pollReady r.ticket v).2.2 }) := by
  simp only [CacheReady.poll, StateT.run_bind, StateT.run_get, pure_bind, hs]
  rfl

theorem exec_discard {r : CacheReady} {w : World H} {s : CacheSignal H.Waker}
    (hs : w.caches[r.signal]? = some s) :
    exec r.discard w =
      (.ok (), { w with caches := w.caches.set r.signal (s.abandon r.ticket) }) := by
  rw [discard, exec_modify, hs]

end CacheReady

namespace World

def signal? (w : World H) : Option (SignalRef H.Signal) :=
  w.units.current?.bind WorkUnit.signal?

end World

namespace ReadLease

variable [Foreign H]

/-- One call of a signal to begin a read. If it answers there is an entry in the log, and a lease. -/
def begun (signal : SignalRef H.Signal) (w : World H) :
    Except (Panic H) (ReadLease H.Signal) × World H :=
  match exec signal.beginRead w with
  | (.ok (), v) => (.ok ⟨signal⟩, { v with history := .leaseBegun signal :: v.history })
  | (.error p, v) => (.error p, v)

/-- One call of a lease's signal to end a read. If it answers there is an entry in the log. -/
def ended (lease : ReadLease H.Signal) (w : World H) : Except (Panic H) Unit × World H :=
  match exec lease.signal.endRead w with
  | (.ok (), v) => (.ok (), { v with history := .leaseEnded lease.signal :: v.history })
  | (.error p, v) => (.error p, v)

theorem exec_begin (signal : SignalRef H.Signal) (w : World H) :
    exec (begin signal) w = begun signal w := by
  rw [begin, exec_bind, begun]
  rcases exec signal.beginRead w with ⟨_ | ⟨⟩, v⟩ <;> rfl

/-- A lease on the current unit's signal is a lease on that signal, if there is one. -/
theorem exec_beginCurrent (w : World H) :
    exec (beginCurrent : Act H (Option (ReadLease H.Signal))) w =
      match w.signal? with
      | none => (.ok none, w)
      | some signal => exec (some <$> begin signal) w := by
  rw [beginCurrent, exec_bind, exec_withCurrent_pure]
  change exec (match w.signal? with | none => _ | some signal => _) w = _
  cases w.signal? <;> rfl

theorem exec_release (lease : ReadLease H.Signal) (w : World H) :
    exec lease.release w = lease.ended w := by
  rw [release, exec_bind, ended]
  rcases exec lease.signal.endRead w with ⟨_ | ⟨⟩, v⟩ <;> rfl

end ReadLease

section Track

variable [Foreign H] {ι φ : Type} [Import H ι φ]

/-- An import is started under a lease on the signal of the current unit, if it has one. What panics
on the way gives up what there is by then. -/
theorem exec_trackImport (source : ι) (w : World H) :
    exec (trackImport source : Act H (TrackedImport H.Signal φ)) w =
      match w.signal? with
      | none => exec ((⟨·, none⟩) <$> Import.start source) w
      | some signal =>
        match exec (ReadLease.begin signal) w with
        | (.ok lease, v) =>
          exec ((⟨·, some lease⟩) <$> (Import.start source).onPanic lease.release) v
        | (.error p, v) => (.error p, (exec (Import.discard source) v).2) := by
  rw [trackImport, exec_bind, exec_onPanic, ReadLease.exec_beginCurrent]
  cases w.signal? with
  | none =>
    simp only [exec_bind, exec_onPanic, exec_map]
    rcases exec (Import.start source : Act H φ) w with ⟨_ | inner, v⟩ <;> rfl
  | some signal =>
    simp only [exec_map]
    rcases exec (ReadLease.begin signal) w with ⟨p | lease, v⟩
    · rfl
    · simp only [Except.map, exec_bind, exec_pure, ReadLease.releaseAny]
      rcases exec ((Import.start source : Act H φ).onPanic lease.release) v with ⟨_ | inner, u⟩ <;>
        rfl

end Track

end ReadBarrier
