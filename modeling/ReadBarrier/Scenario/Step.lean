import ReadBarrier.Config
import ReadBarrier.WorkUnit

/-!
Scenarios: scripts that exercise the library step by step.

A step names the objects that it makes and uses. The values that futures and functions hand around
are opaque, of a type `ν`.
-/

namespace ReadBarrier.Scenario

/-- A work unit, as a step names it. -/
inductive UnitName where
  | kind (kind : WorkUnit.Kind)
  /-- The current unit. -/
  | current
  /-- A prerender that counts on a signal. -/
  | counting (signal : String)

/-- What a signal of a scenario does. -/
inductive SignalKind where
  | cache
  | recording
  /-- It logs each call and enters a work unit of its own meanwhile. It may refuse to begin. -/
  | probe (panics : Bool)

inductive OnWake where
  | beginRead | endRead

/-- What a loader knows: the modules that are missing, and those that fail and why. -/
structure Catalogue where
  missing : List String
  failing : List (String × String)

inductive LoaderRecipe where
  | sync (catalogue : Catalogue)
  /-- Its loads take this many polls. -/
  | chunk (catalogue : Catalogue) (polls : Nat)
  | manual
  /-- Some of its modules are there at once, and the loads of others are settled by hand. -/
  | mixed (catalogue : Catalogue) (there : List String)
  | panicking
  /-- It calls the loader that a table has under a name when this one is made. -/
  | delegating (table global : String)

inductive Shape where
  | plain
  | fallible
  | doublyFallible
  | async
  deriving DecidableEq

/-- How a configuration differs from the default one. -/
structure ConfigChange where
  enabled : Option Bool := none
  functionNamePrefix : Option String := none
  instrumentedGlobals : Option (List String) := none

def ConfigChange.config (c : ConfigChange) : TrackingConfig where
  enabled := c.enabled.getD true
  functionNamePrefix := c.functionNamePrefix.getD trackedNamePrefix
  instrumentedGlobals := c.instrumentedGlobals.getD bundlerGlobals

inductive ConfigSource where
  | default
  | json (text : String)
  | changed (change : ConfigChange)

inductive Settlement (ν : Type) where
  | loaded (exports : ν)
  | failed (reason : String)
  | notFound

mutual

/-- An import, as a step describes it. With a label it logs when it starts, is polled and goes. -/
inductive Recipe (ν : Type) where
  | mk (label : Option String) (startPanic : Option String) (body : Body ν)

inductive Body (ν : Type) where
  /-- It is ready after this many polls, each of which asks for another one. -/
  | settles (polls : Nat) (result : Except String ν)
  | deferred (name : String)
  | panics (text : String)
  | awaits (future : String)
  | task (steps : List (Step ν))

/-- What a tracked function is told to return. Its return type decides which of these it looks at;
the first that is there counts. -/
inductive Ret (ν : Type) where
  | mk (outerError : Option String) (error : Option String) (panic : Option String)
    (pending : Option (Recipe ν)) (ready : ν)

inductive Form (ν : Type) where
  /-- It exists before it is tracked. -/
  | plain (recipe : Recipe ν)
  /-- It is made after its read has begun, which may panic. -/
  | made (recipe : Recipe ν) (panic : Option String)
  | ready (value : ν)
  | pending (recipe : Recipe ν)

/-- A step of a scenario. Where there is an optional unit, the library is called inside it. -/
inductive Step (ν : Type) where
  | signal (name : String) (kind : SignalKind)
  | beginReads (signal : String) (times : Nat)
  | endReads (signal : String) (times : Nat)
  | tryEndRead (signal : String)
  | signalState (signal : String)
  | cacheReady (name signal : String)
  | countingWaker (name : String)
  | loggingWaker (name : String) (watched : Option String) (onWake : Option OnWake)
  | wakes (waker : String)
  | lease (name signal : String)
  | leaseCurrent (name : String) (unit : Option UnitName)
  | release (lease : String)
  | enter (name : String) (unit : UnitName)
  | current
  | describeUnit (unit : UnitName)
  | run (unit : UnitName) (steps : List (Step ν))
  | attempt (unit : Option UnitName) (steps : List (Step ν))
  | panic (text : String)
  /-- Enters and leaves a unit while the current one is being looked at. -/
  | enterDuringLook (unit : UnitName)
  | leaveDuringLook (guard : String)
  /-- Looks at the current unit while it is being looked at. -/
  | lookTwice
  | thread (unit : UnitName)
  | deferred (name : String)
  | resolve (deferred : String) (result : Except String ν) (onThread : Bool)
  | future (name : String) (recipe : Recipe ν)
  | scopedFuture (name : String) (unit : UnitName) (recipe : Recipe ν)
  | unitOfScoped (future : String)
  | track (name : String) (form : Form ν) (unit : Option UnitName)
  | poll (future : String) (waker : Option String) (unit : Option UnitName)
  | blockOn (future : String)
  | drop (name : String) (unit : Option UnitName)
  /-- Lets others run. Like the next three, only a task can do this. -/
  | yieldNow
  | await (future : String)
  | join (futures : List String)
  | inScope (unit : UnitName) (steps : List (Step ν))
  | function (name ownName : String) (shape : Shape) (isExplicit : Bool)
  | call (name function : String) (ret : Ret ν) (unwrapped : Bool) (unit : Option UnitName)
  | table (name : String) (clone : Option String)
  | contains (table global : String)
  | register (table global : String) (loader : LoaderRecipe)
  | settleLoad (specifier : String) (settlement : Settlement ν)
  | load (name table global specifier : String) (unit : Option UnitName)
  | callLoader (name ownName : String) (loader : LoaderRecipe) (specifier : String)
      (unit : Option UnitName)
  | tableState (table : String)
  | instrumenter (name : String) (source : ConfigSource)
  | instrument (table instrumenter : String)
  | dump (name : String)
  | dumpUnit (unit : UnitName)

end

mutual

/-- How much there is to do in an import at most. -/
def Recipe.size {ν : Type} : Recipe ν → Nat
  | .mk _ _ body => body.size + 1

def Body.size {ν : Type} : Body ν → Nat
  | .settles polls _ => polls + 1
  | .deferred _ | .panics _ | .awaits _ => 1
  | .task steps => sizeAll steps + 1

def Ret.size {ν : Type} : Ret ν → Nat
  | .mk _ _ _ (some recipe) _ => recipe.size + 1
  | .mk _ _ _ none _ => 1

def Form.size {ν : Type} : Form ν → Nat
  | .plain recipe | .made recipe _ | .pending recipe => recipe.size + 1
  | .ready _ => 1

/-- How much there is to do in a step at most. -/
def Step.size {ν : Type} : Step ν → Nat
  | .run _ steps | .attempt _ steps | .inScope _ steps => sizeAll steps + 1
  | .future _ recipe | .scopedFuture _ _ recipe => recipe.size + 1
  | .track _ form _ => form.size + 1
  | .call _ _ ret _ _ => ret.size + 1
  | .join futures => futures.length + 1
  | .register _ _ (.chunk _ polls) | .callLoader _ _ (.chunk _ polls) _ _ => polls + 1
  | _ => 1

/-- How much there is to do in several steps at most. -/
def sizeAll {ν : Type} : List (Step ν) → Nat
  | [] => 0
  | step :: steps => step.size + sizeAll steps

end

end ReadBarrier.Scenario
