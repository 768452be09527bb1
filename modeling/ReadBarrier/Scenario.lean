import ReadBarrier.Scenario.Perform
import ReadBarrier.Trace

/-!
Running scenarios from start to end, with a report on each step.
-/

namespace ReadBarrier

namespace Scenario

variable {ν : Type}

/-- The name of a unit's kind in a log line, or a dash. -/
def unitMark : Option WorkUnit.Kind → String
  | none => "-"
  | some kind => kind.name

def Note.line (n : Note) : String :=
  let what := match n.mark with
    | .signalBegin signal => s!"begin {signal}"
    | .signalEnd signal => s!"end {signal}"
    | .started label => s!"into {label}"
    | .polled label => s!"poll {label}"
    | .dropped label => s!"drop {label}"
    | .made => "make"
    | .called => "func"
    | .loading specifier => s!"loader {specifier}"
  s!"{what} [{unitMark n.unit}]"

/-- The line of an event. Those of the library itself are shown on demand only. -/
def lineOf? (showTrace : Bool) : Event (host ν) → Option String
  | .note n => some n.line
  | .cache (.woken (.logging name _ _) none) => some s!"wake {name}"
  | .cache (.woken (.logging name _ _) (some pending)) => some s!"wake {name} pending={pending}"
  | event => if showTrace then event.line? else none

/-- What a signal has counted: outstanding and begun reads of a counting signal, begins and ends of
any other. -/
def countsOf (w : World (host ν)) : SignalRef Double → Nat × Nat
  | .cache i => ((w.caches[i]?).map fun s => (s.pending, s.total)).getD (0, 0)
  | .foreign (.recording i) =>
    (((stageOf w).recordings[i]?).map fun s => (s.begins, s.ends)).getD (0, 0)
  | .foreign (.probe i) => (((stageOf w).probes[i]?).map fun p => (p.begins, p.ends)).getD (0, 0)

/-- What there is to say about a step that was done. -/
structure Report (ν : Type) where
  answer : Answer ν
  /-- The kind of the current unit afterwards. -/
  current : Option WorkUnit.Kind
  signals : List (String × Nat × Nat)
  log : List String

/-- Does one step of a scenario. A panic is its answer then. -/
def doStep (showTrace : Bool) (turns : Nat) (w : World (host ν)) (step : Step ν) :
    Report ν × World (host ν) :=
  let (result, after) := (perform turns step).run w
  let answer := match result with
    | .ok answer => answer
    | .error p => .panicked ((panicText? p).getD "driver: no more turns")
  let fresh := after.history.take (after.history.length - w.history.length)
  ({ answer
     current := after.units.current?.map (·.kind)
     signals := (stageOf after).objects.filterMap fun
       | (name, .signal s) => some (name, countsOf after s)
       | _ => none
     log := (fresh.filterMap (lineOf? showTrace)).reverse }, after)

def start : World (host ν) := { state := {} }

def runSteps (showTrace : Bool) (turns : Nat) : World (host ν) → List (Step ν) → List (Report ν)
  | _, [] => []
  | w, step :: steps =>
    let (report, after) := doStep showTrace turns w step
    report :: runSteps showTrace turns after steps

/-- How many turns a scenario needs at most. Every step may start a load, and a load may take as
many polls as there are in all steps. -/
def turnsFor (steps : List (Step ν)) : Nat :=
  let size := sizeAll steps + 8
  8 * size * size

/-- Runs a scenario and reports on each of its steps. -/
def run (showTrace : Bool) (steps : List (Step ν)) : List (Report ν) :=
  runSteps showTrace (turnsFor steps) start steps

end Scenario

end ReadBarrier
