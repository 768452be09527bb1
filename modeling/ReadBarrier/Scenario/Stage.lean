import ReadBarrier.CacheReady
import ReadBarrier.Deferred
import ReadBarrier.Loader.Table
import ReadBarrier.Scenario.Answer

/-!
The stage of a scenario: the signals, wakers, futures and loaders that its steps bring into the
world, and the objects that they named.
-/

namespace ReadBarrier.Scenario

/-- A read signal of the scenario, by its number among those of its sort. -/
inductive Double where
  | recording (number : Nat)
  | probe (number : Nat)
  deriving DecidableEq

inductive Waker where
  | idle
  /-- It counts how often it is woken. -/
  | counting (number : Nat)
  /-- It logs that it is woken, and may look at a counting signal and call it. -/
  | logging (name : String) (watched : Option Nat) (onWake : Option OnWake)

inductive Mark where
  | signalBegin (signal : String)
  | signalEnd (signal : String)
  | started (label : String)
  | polled (label : String)
  | dropped (label : String)
  | made
  | called
  | loading (specifier : String)

/-- A note in the log, with the kind of the unit that was current. -/
structure Note where
  mark : Mark
  unit : Option WorkUnit.Kind

inductive Payload where
  | text (text : String)
  /-- The scenario took more turns than it can need. -/
  | exhausted

structure Probe where
  name : String
  panics : Bool
  begins : Nat := 0
  ends : Nat := 0

inductive RawLoad (ν : Type) where
  | chunk (polls : Nat) (result : LoadResult (Exports ν))
  | manual (number : Nat)

inductive LoaderCode where
  | sync (catalogue : Catalogue)
  | chunk (catalogue : Catalogue) (polls : Nat)
  | manual
  | mixed (catalogue : Catalogue) (there : List String)
  | panicking
  | delegating (loader : Loader LoaderCode)

mutual

inductive Work (ν : Type) where
  | plain (label : Option String) (core : Core ν)
  | tracked (import_ : TrackedImport Double (Work ν))
  | inScope (future : Scoped Double (Work ν))
  | cacheReady (ready : CacheReady)
  | load (load : LoadFuture Double (RawLoad ν))

/-- What is left to do in an import. -/
inductive Core (ν : Type) where
  | settles (polls : Nat) (value : Value ν)
  | deferred (number : Nat)
  | panics (text : String)
  | awaits (work : Work ν)
  | task (task : Task ν)
  /-- Nothing: it is complete or has panicked. -/
  | spent

/-- A task: what its steps answered so far, latest first, what it waits for, and the steps ahead. -/
inductive Task (ν : Type) where
  | mk (answers : List (Answer ν)) (wait : Wait ν) (ahead : List (Step ν))

/-- What a task waits for. -/
inductive Wait (ν : Type) where
  | nothing
  | yielded
  | future (work : Work ν)
  | all (parts : List (Part ν))

/-- A future that a task waits for together with others, and its value once there is one. -/
inductive Part (ν : Type) where
  | mk (work : Work ν) (value : Option (Value ν))

end

/-- An import that has not started. -/
structure Source (ν : Type) where
  label : Option String
  startPanic : Option String
  core : Core ν

inductive Object (ν : Type) where
  | signal (signal : SignalRef Double)
  | waker (waker : Waker)
  | lease (lease : ReadLease Double)
  | guard (guard : Guard)
  | future (work : Work ν)
  | deferred (number : Nat)
  | resolver (number : Nat)
  | function (name : String) (shape : Shape)
  | table (table : LoaderTable LoaderCode)
  | instrumenter (instrumenter : Instrumenter)

structure Stage (ν : Type) where
  recordings : List RecordingSignal := []
  probes : List Probe := []
  deferreds : List (Deferred (Value ν) Waker) := []
  /-- The number of counting wakers. -/
  counters : Nat := 0
  /-- The loads that can be settled by hand, by specifier, latest first. -/
  openLoads : List (String × Nat) := []
  objects : List (String × Object ν) := []

abbrev host (ν : Type) : Host where
  Signal := Double
  Waker := Waker
  Note := Note
  Payload := Payload
  State := Stage ν

variable {ν : Type}

def stageOf (w : World (host ν)) : Stage ν := w.state

def getStage : Act (host ν) (Stage ν) := return stageOf (← get)

def modifyStage (f : Stage ν → Stage ν) : Act (host ν) Unit :=
  modify fun w => { w with state := f (stageOf w) }

def currentKind : Act (host ν) (Option WorkUnit.Kind) :=
  return (← get).units.current?.map (·.kind)

def note (mark : Mark) : Act (host ν) Unit := do
  let unit ← currentKind
  modify fun w => { w with history := .note { mark, unit } :: w.history }

/-- Writes a note about something that may have a label. Without one there is no note. -/
def noteLabel (mark : String → Mark) : Option String → Act (host ν) Unit
  | none => pure ()
  | some label => note (mark label)

def panic {α : Type} (text : String) : Act (host ν) α := throw (.thrown (.text text))

def modifyRecording (number : Nat) (f : RecordingSignal → RecordingSignal) : Act (host ν) Unit :=
  modifyStage fun s => { s with recordings := s.recordings.modify number f }

def modifyProbe (number : Nat) (f : Probe → Probe) : Act (host ν) Unit :=
  modifyStage fun s => { s with probes := s.probes.modify number f }

/-- Logs a call of a probing signal and makes a work unit current for a moment. -/
def probeCall (mark : Mark) : Act (host ν) Unit := do
  note mark
  WorkUnit.cache.run (pure ())

instance : Foreign (host ν) where
  beginRead
    | .recording i => modifyRecording i (·.beginRead)
    | .probe i => do
      match (← getStage).probes[i]? with
      | none => pure ()
      | some probe =>
        if probe.panics then panic s!"begin_read of {probe.name}"
        else
          probeCall (.signalBegin probe.name)
          modifyProbe i fun p => { p with begins := p.begins + 1 }
  endRead
    | .recording i => modifyRecording i (·.endRead)
    | .probe i => do
      match (← getStage).probes[i]? with
      | none => pure ()
      | some probe =>
        probeCall (.signalEnd probe.name)
        modifyProbe i fun p => { p with ends := p.ends + 1 }
  reactions :=
    { watched := fun
        | .logging _ watched _ => watched
        | _ => none
      calls := fun waker _ =>
        match waker with
        | .logging _ (some i) (some .beginRead) => [.beginRead i]
        | .logging _ (some i) (some .endRead) => [.endRead i]
        | _ => [] }

/-- A raw load goes without a trace. -/
instance : Discard (host ν) (RawLoad ν) where
  discard _ := pure ()

mutual

/-- Discards a future: first it logs that it goes, then what it holds goes. -/
def Work.discard : Work ν → Act (host ν) Unit
  | .plain label core => do
    noteLabel .dropped label
    core.discard
  | .tracked ⟨inner, lease⟩ => TrackedImport.discard ⟨inner, lease⟩ inner.discard
  | .inScope ⟨_, inner⟩ => inner.discard
  | .cacheReady ready => ready.discard
  | .load load => load.discard Discard.discard

def Core.discard : Core ν → Act (host ν) Unit
  | .awaits work => work.discard
  | .task task => task.discard
  | _ => pure ()

def Task.discard : Task ν → Act (host ν) Unit
  | .mk _ wait _ => wait.discard

def Wait.discard : Wait ν → Act (host ν) Unit
  | .future work => work.discard
  | .all parts => discardParts parts
  | _ => pure ()

def discardParts : List (Part ν) → Act (host ν) Unit
  | [] => pure ()
  | .mk work _ :: parts => work.discard.always (discardParts parts)

end

namespace Source

/-- Gives an import up before it has started. -/
def discard (source : Source ν) : Act (host ν) Unit := do
  noteLabel .dropped source.label
  source.core.discard

/-- Starts an import. -/
def start (source : Source ν) : Act (host ν) (Work ν) := do
  noteLabel .started source.label
  match source.startPanic with
  | none => return .plain source.label source.core
  | some text => (panic text).onPanic source.discard

instance : Import (host ν) (Source ν) (Work ν) where
  start := start
  discard := discard

end Source

def Object.discard : Object ν → Act (host ν) Unit
  | .lease held => held.release
  | .guard held => held.drop
  | .future work => work.discard
  | _ => pure ()

namespace Stage

def get? (s : Stage ν) (name : String) : Option (Object ν) :=
  (s.objects.find? (·.1 == name)).map (·.2)

def put (s : Stage ν) (name : String) (object : Object ν) : Stage ν :=
  if s.objects.any (·.1 == name) then
    { s with
      objects := s.objects.map fun (k, old) => if k == name then (k, object) else (k, old) }
  else { s with objects := s.objects ++ [(name, object)] }

def erase (s : Stage ν) (name : String) : Stage ν :=
  { s with objects := s.objects.filter (·.1 != name) }

end Stage

/-- Stores an object under a name. What had the name before goes afterwards. -/
def store (name : String) (object : Object ν) : Act (host ν) Unit := do
  let old := (← getStage).get? name
  modifyStage (·.put name object)
  match old with
  | none => pure ()
  | some old => old.discard

def noObject {α : Type} (name : String) : Act (host ν) α := panic s!"driver: no object `{name}`"

/-- Looks an object up, of the sort that `select` chooses. -/
def lookUp {α : Type} (name : String) (select : Object ν → Option α) : Act (host ν) α := do
  match ((← getStage).get? name).bind select with
  | some a => return a
  | none => noObject name

/-- Takes an object off the stage, of the sort that `select` chooses. -/
def takeObject {α : Type} (name : String) (select : Object ν → Option α) : Act (host ν) α := do
  let a ← lookUp name select
  modifyStage (·.erase name)
  return a

namespace Object

def signal? : Object ν → Option (SignalRef Double)
  | .signal s => some s
  | _ => none

def cache? : Object ν → Option Nat
  | .signal (.cache i) => some i
  | _ => none

def waker? : Object ν → Option Waker
  | .waker w => some w
  | _ => none

def lease? : Object ν → Option (ReadLease Double)
  | .lease l => some l
  | _ => none

def guard? : Object ν → Option Guard
  | .guard g => some g
  | _ => none

def future? : Object ν → Option (Work ν)
  | .future w => some w
  | _ => none

def scopedFuture? : Object ν → Option (Scoped Double (Work ν))
  | .future (.inScope s) => some s
  | _ => none

def deferred? : Object ν → Option Nat
  | .deferred i => some i
  | _ => none

def resolver? : Object ν → Option Nat
  | .resolver i => some i
  | _ => none

def function? : Object ν → Option (String × Shape)
  | .function name shape => some (name, shape)
  | _ => none

def table? : Object ν → Option (LoaderTable LoaderCode)
  | .table t => some t
  | _ => none

def instrumenter? : Object ν → Option Instrumenter
  | .instrumenter i => some i
  | _ => none

end Object

def unitNamed : UnitName → Act (host ν) (WorkUnit Double)
  | .kind kind => return .ofKind kind
  | .counting name => return .prerender (some (← lookUp name (·.signal?)))
  | .current => do
    match ← currentUnit with
    | some unit => return unit
    | none => panic "driver: no current unit"

/-- Runs `body`, inside a unit if one is named. -/
def inUnit {α : Type} (unit : Option UnitName) (body : Act (host ν) α) : Act (host ν) α := do
  match unit with
  | none => body
  | some name => (← unitNamed name).run body

def newDeferred : Act (host ν) Nat := do
  let s ← getStage
  modifyStage fun s => { s with deferreds := s.deferreds ++ [{}] }
  return s.deferreds.length

/-- Settles a deferred value and wakes whoever polled it last. -/
def resolveDeferred (number : Nat) (value : Value ν) : Act (host ν) Unit := do
  match (← getStage).deferreds[number]? with
  | none => pure ()
  | some d =>
    let (waker, d) := d.resolve value
    modifyStage fun s => { s with deferreds := s.deferreds.set number d }
    match waker with
    | none => pure ()
    | some waker => wake waker

end ReadBarrier.Scenario
