import ReadBarrier.Config
import ReadBarrier.TrackedImport

/-!
Tracked functions: whatever pending work such a function hands back is tracked, and all else it
returns is passed on as it is.
-/

namespace ReadBarrier

/-- Return values in which pending work can be found. `track` puts a tracked import in its place. -/
class Trackable (H : Host) (ρ : Type) (τ : outParam Type) where
  track : ρ → Act H τ

section Trackable

variable {H : Host} [Foreign H] {ι φ α ε ρ τ : Type}

instance [Import H ι φ] :
    Trackable H (Completion α ι) (Completion α (TrackedImport H.Signal φ)) where
  track
    | .ready value => return .ready value
    | .pending source => .pending <$> trackImport source

instance [Trackable H ρ τ] : Trackable H (Except ε ρ) (Except ε τ) where
  track
    | .error e => return .error e
    | .ok result => .ok <$> Trackable.track result

end Trackable

structure TrackedFunction (β ρ : Type) where
  name : String
  func : β → ρ

/-- Wraps a function under a name that differs from its own. -/
def TrackedFunction.ofName {β ρ : Type} (name : String) (func : β → ρ) : TrackedFunction β ρ :=
  ⟨trackedNamePrefix ++ name, func⟩

/-- Logs where a call begins and where it returns or unwinds. -/
def inCall {H : Host} {α : Type} (name : String) (body : Act H α) : Act H α := do
  Act.record (.callEntered name)
  body.always (Act.record (.callExited name))

namespace TrackedFunction

variable {H : Host} [Foreign H] {β ρ τ ι φ : Type}

/-- Calls the function and tracks the pending work in its result. -/
def call [Trackable H ρ τ] (f : TrackedFunction β (Act H ρ)) (argument : β) : Act H τ :=
  inCall f.name (f.func argument >>= Trackable.track)

/-- Calls a function that always hands back an import, and tracks that. -/
def callAsync [Import H ι φ] (f : TrackedFunction β (Act H ι)) (argument : β) :
    Act H (TrackedImport H.Signal φ) :=
  inCall f.name (f.func argument >>= trackImport)

end TrackedFunction

end ReadBarrier
