import ReadBarrier.Loader.Instrumenter
import ReadBarrier.RecordingSignal
import ReadBarrier.Scenario.Step

/-!
What futures of a scenario yield, and what its steps answer.
-/

namespace ReadBarrier.Scenario

inductive Exports (ν : Type) where
  /-- Those of a module that a loader made up: the length of its specifier in UTF-8. -/
  | bytes (count : Nat)
  | given (exports : ν)

structure LoaderView where
  name : String
  isInstrumented : Bool
  dump : String

inductive SignalView where
  | cache (pending total : Nat) (isQuiescent : Bool)
  | recording (signal : RecordingSignal)
  | probe

/-- Whether a future keeps a read outstanding, or could not. -/
inductive Tracking where
  | tracking | inert | untracked

def Tracking.ofBool (b : Bool) : Tracking := if b then .tracking else .inert

mutual

inductive Value (ν : Type) where
  | given (result : Except String ν)
  /-- The value of another future. -/
  | nested (value : Value ν)
  | answers (answers : List (Answer ν))
  | quiescent
  | loaded (result : LoadResult (Exports ν))

/-- How a poll came out. -/
inductive PollView (ν : Type) where
  | ready (value : Value ν)
  | pending
  | panicked (text : String)

inductive Answer (ν : Type) where
  | nothing
  | done
  | flag (value : Bool)
  | number (value : Nat)
  | text (value : String)
  | error (error : Error)
  | signal (view : SignalView)
  | current (kind : Option WorkUnit.Kind) (hasSignal : Bool)
  | unit (kind : WorkUnit.Kind) (hasSignal : Bool)
  | kinds (kinds : List (Option WorkUnit.Kind))
  | thread (before inside : Option WorkUnit.Kind) (isTracking : Bool) (result : PollView ν)
      (after : Option WorkUnit.Kind)
  | answers (answers : List (Answer ν))
  | attempted (answers : List (Answer ν))
  | panicked (text : String)
  | future (state : Tracking)
  | polled (view : PollView ν) (isTracking : Option Bool)
  | value (value : Value ν)
  | values (values : List (Value ν))
  /-- A completion was there at once. -/
  | ready (value : ν)
  | failed (text : String)
  | outerFailed (text : String)
  | found (contains get : Bool)
  | loader (view : LoaderView)
  /-- A module was there at once. -/
  | loaded (result : LoadResult (Exports ν))
  | loading
  | loaderCalled (view : LoaderView) (answer : Answer ν)
  | loaders (entries : List (String × LoaderView))
  | report (report : InstrumentReport)

end

instance {ν : Type} : Inhabited (Answer ν) := ⟨.nothing⟩

end ReadBarrier.Scenario
