import ReadBarrier.Text.Dump

/-!
A read signal that only takes down the calls made to it.

Unlike a counting signal it accepts an end without a begin, so its balance may be negative.
-/

namespace ReadBarrier

inductive SignalEvent where
  | begin | finish
  deriving DecidableEq

/-- The calls made to a signal, oldest first. -/
structure RecordingSignal where
  events : List SignalEvent := []

namespace RecordingSignal

def beginRead (s : RecordingSignal) : RecordingSignal := ⟨s.events ++ [.begin]⟩

def endRead (s : RecordingSignal) : RecordingSignal := ⟨s.events ++ [.finish]⟩

def begins (s : RecordingSignal) : Nat := s.events.count .begin

def ends (s : RecordingSignal) : Nat := s.events.count .finish

def pending (s : RecordingSignal) : Int := s.begins - s.ends

end RecordingSignal

def SignalEvent.name : SignalEvent → String
  | .begin => "Begin"
  | .finish => "End"

open Text in
def RecordingSignal.dump (s : RecordingSignal) : Dump :=
  .record "RecordingSignal"
    [("events", .record "Mutex" [("data", .list (s.events.map fun e => .raw e.name))])]

end ReadBarrier
