import ReadBarrier.Proofs.Act

/-!
Routines: code that enters and leaves units as it goes.

What a routine does next may depend on all that it has found out so far: on the units that it was
shown, on the signals on which its imports count, and on how its calls came out, panics included. It
tells its guards apart by keys, in the order in which they were entered.

Beside the stack of the thread stands a roster, in which each guard is written down when it is
entered and ticked off when it is dropped. The library does not know of it.
-/

namespace ReadBarrier

/-- A guard in the roster, with the entry that it put on the stack. -/
structure Slot (σ : Type) where
  entry : Entry σ
  dropped : Bool := false

/-- The guards of a thread, in the order in which they were entered. -/
abbrev Roster (σ : Type) := List (Slot σ)

namespace Roster

variable {σ : Type}

def entries (roster : Roster σ) : List (Entry σ) := roster.map (·.entry)

/-- The entries of the guards that have not been dropped. -/
def live (roster : Roster σ) : List (Entry σ) := (roster.filter (!·.dropped)).map (·.entry)

def innermost? (roster : Roster σ) : Option (WorkUnit σ) := (live roster).getLast?.map (·.unit)

def drop (roster : Roster σ) (key : Nat) : Roster σ :=
  roster.modify key fun slot => { slot with dropped := true }

end Roster

/-- How a thread stands at some moment: what is seen to be the current unit, the entries on the
stack, and the roster. -/
structure Moment (σ : Type) where
  seen : Option (WorkUnit σ)
  stack : List (Entry σ)
  roster : Roster σ

/-- What a routine finds out. -/
inductive Sight (σ : Type) where
  /-- A look-up showed it this unit. -/
  | saw (unit : Option (WorkUnit σ))
  /-- An import that it tracked began a read on this signal, if any. -/
  | began (signal : Option (SignalRef σ))
  deriving DecidableEq

/-- What is kept of the run of a routine. -/
structure Desk (σ : Type) where
  roster : Roster σ := []
  moments : List (Moment σ) := []
  sights : List (Sight σ) := []

abbrev Host.bare : Host := ⟨Unit, Unit, Unit, Unit, Unit⟩

/-- The same host with a desk beside its state. -/
abbrev Host.desked (H : Host) : Host := { H with State := Desk H.Signal × H.State }

variable {H : Host} {α β φ : Type}

namespace World

def desk (w : World H.desked) : Desk H.Signal := w.state.1

def jot (w : World H.desked) (f : Desk H.Signal → Desk H.Signal) : World H.desked :=
  { w with state := (f w.state.1, w.state.2) }

/-- Other things happened, here or on other threads: no unit of this thread was entered or left. -/
structure Aside (w v : World H.desked) : Prop where
  units : v.units = w.units
  desk : v.desk = w.desk
  nextGuard : w.nextGuard ≤ v.nextGuard

end World

/-- Something else that a routine does or that happens meanwhile. -/
structure Detour (H : Host) where
  act : World H.desked → World H.desked
  aside : ∀ w, World.Aside w (act w)

/-- Signals and wakers of foreign code. Their calls leave the units of the thread as they find them;
whether one panics depends on the signal only. -/
structure Signals (H : Host) where
  beginRead : H.Signal → Act H.desked Unit
  endRead : H.Signal → Act H.desked Unit
  reactions : Reactions H.Waker
  answer : H.Signal → Except (Panic H.desked) Unit
  begins : ∀ signal w, w.units.borrows = 0 →
    (Act.exec (beginRead signal) w).1 = answer signal ∧
      w.Aside (Act.exec (beginRead signal) w).2

abbrev Signals.foreign (signals : Signals H) : Foreign H.desked where
  beginRead := signals.beginRead
  endRead := signals.endRead
  reactions := signals.reactions

instance : Inhabited (Signals H) where
  default :=
    { beginRead := fun _ => pure ()
      endRead := fun _ => pure ()
      reactions := { watched := fun _ => none, calls := fun _ _ => [] }
      answer := fun _ => .ok ()
      begins := fun _ _ _ => ⟨rfl, rfl, rfl, Nat.le_refl _⟩ }

/-- What code does that was shown the current unit: it may look again, and no unit is entered or
left. -/
inductive Callback (H : Host) where
  | done (outcome : Except (Panic H.desked) Unit)
  | look (callback : Option (WorkUnit H.Signal) → Callback H)
      (next : Except (Panic H.desked) Unit → Callback H)

/-- One poll of a future that is otherwise unknown. Each call is given with what is done next, which
depends on how the call came out. -/
inductive Routine (H : Host) (β φ : Type) where
  | done (outcome : Outcome H.desked β) (rest : φ)
  | enter (unit : WorkUnit H.Signal) (next : Except (Panic H.desked) Nat → Routine H β φ)
  /-- Drops the guard of this key, whoever entered it on this thread. -/
  | leave (key : Nat) (next : Except (Panic H.desked) Unit → Routine H β φ)
  | look (callback : Option (WorkUnit H.Signal) → Callback H)
      (next : Except (Panic H.desked) (Option (WorkUnit H.Signal)) → Routine H β φ)
  | run (unit : WorkUnit H.Signal) (body : Routine H β φ)
      (next : Except (Panic H.desked) (Poll β × φ) → Routine H β φ)
  /-- Polls a scoped future, of which `body` is that poll. -/
  | poll (future : Scoped H.Signal φ) (body : Routine H β φ)
      (next : Outcome H.desked β × φ → Routine H β φ)
  | track (next : Except (Panic H.desked) (Option (SignalRef H.Signal)) → Routine H β φ)
  | aside (detour : Detour H) (next : Routine H β φ)

/-! ### Calls, with what is written down about them -/

def jot (f : Desk H.Signal → Desk H.Signal) : Run H.desked Unit := modify (·.jot f)

def noteMoment (seen : Option (WorkUnit H.Signal)) : Run H.desked Unit :=
  modify fun w =>
    w.jot fun d => { d with moments := d.moments ++ [⟨seen, w.units.entries, d.roster⟩] }

def noteSight (sight : Sight H.Signal) : Run H.desked Unit :=
  jot fun d => { d with sights := d.sights ++ [sight] }

def nextKey : Run H.desked Nat := return (← get).desk.roster.length

def noteEntered (number : Nat) (unit : WorkUnit H.Signal) : Run H.desked Unit :=
  jot fun d => { d with roster := d.roster ++ [⟨⟨number, unit⟩, false⟩] }

def noteDropped (key : Nat) : Run H.desked Unit :=
  jot fun d => { d with roster := Roster.drop d.roster key }

/-- Makes a call and writes down how the thread stands afterwards. -/
def observed (call : Run H.desked α) : Run H.desked α := do
  let outcome ← call
  match ← (currentUnit (H := H.desked)).run with
  | .ok unit => noteMoment unit
  | .error _ => pure ()
  return outcome

def enterUnit (unit : WorkUnit H.Signal) : Act H.desked Nat := do
  let key ← nextKey (H := H)
  let guard ← unit.enter (H := H.desked)
  noteEntered (H := H) guard.number unit
  return key

def leaveUnit (key : Nat) : Act H.desked Unit := do
  match (← get).desk.roster[key]? with
  | none => pure ()
  | some slot =>
    Guard.leave ⟨slot.entry.guard⟩
    noteDropped (H := H) key

def showUnit (callback : Option (WorkUnit H.Signal) → Act H.desked Unit) :
    Act H.desked (Option (WorkUnit H.Signal)) :=
  withCurrent (H := H.desked) fun unit => do
    noteSight (H := H) (.saw unit)
    noteMoment (H := H) unit
    callback unit
    return unit

/-- A poll as a body of code, which panics where the poll does. -/
def bodyOf (poll : Run H.desked (Outcome H.desked β × φ)) : Act H.desked (Poll β × φ) :=
  ExceptT.mk ((fun polled => polled.1.map (·, polled.2)) <$> poll)

/-- Runs `body` in a unit. Its guard is the next one, and is dropped when `body` is over. -/
def runUnit (unit : WorkUnit H.Signal) (body : Run H.desked (Outcome H.desked β × φ)) :
    Run H.desked (Except (Panic H.desked) (Poll β × φ)) := do
  let key ← nextKey
  let number := (← get).nextGuard
  let outcome ← (unit.run (H := H.desked) do
    noteEntered (H := H) number unit
    bodyOf body).run
  noteDropped key
  return outcome

/-- Polls a scoped future. Its guard is the next one, and is dropped when the poll is over. -/
def pollScoped (future : Scoped H.Signal φ) (body : Run H.desked (Outcome H.desked β × φ)) :
    Run H.desked (Outcome H.desked β × φ) := do
  let key ← nextKey
  let number := (← get).nextGuard
  let (outcome, future) ← future.poll (H := H.desked) do
    noteEntered number future.unit
    body
  noteDropped key
  return (outcome, future.inner)

abbrev startedImport : Import H.desked Unit Unit where
  start := pure
  discard := pure

/-- Tracks an import, and tells on which signal its read was begun. -/
def trackAny [Foreign H.desked] : Act H.desked (Option (SignalRef H.Signal)) := do
  let _ := startedImport (H := H)
  let t ← trackImport ()
  let signal := t.lease.map (·.signal)
  noteSight (H := H) (.began signal)
  return signal

def Callback.play : Callback H → Act H.desked Unit
  | .done (.ok ()) => return ()
  | .done (.error p) => throw p
  | .look callback next => do
    let outcome ← (showUnit fun unit => (callback unit).play).attempt
    (next (outcome.map fun _ => ())).play

/-- Runs a routine. After each of its calls it is written down how the thread stands. -/
def Routine.play (signals : Signals H) :
    Routine H β φ → Run H.desked (Outcome H.desked β × φ)
  | .done outcome rest => return (outcome, rest)
  | .enter unit next => do
    let outcome ← observed (enterUnit unit).run
    (next outcome).play signals
  | .leave key next => do
    let outcome ← observed (leaveUnit key).run
    (next outcome).play signals
  | .look callback next => do
    let outcome ← observed (showUnit fun unit => (callback unit).play).run
    (next outcome).play signals
  | .run unit body next => do
    let outcome ← observed (runUnit unit (body.play signals))
    (next outcome).play signals
  | .poll future body next => do
    let result ← observed (pollScoped future (body.play signals))
    (next result).play signals
  | .track next => do
    let _ := signals.foreign
    let outcome ← observed trackAny.run
    (next outcome).play signals
  | .aside detour next => do
    observed (modify detour.act)
    next.play signals

end ReadBarrier
