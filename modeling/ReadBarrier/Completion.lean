/-!
Results of calls that may finish at once or hand back pending work.
-/

namespace ReadBarrier

/-- A value, or work that yields one later. -/
inductive Completion (α φ : Type) where
  | ready (value : α)
  | pending (work : φ)
  deriving DecidableEq

namespace Completion

variable {α φ ψ : Type}

def isPending : Completion α φ → Bool
  | .ready _ => false
  | .pending _ => true

def ready? : Completion α φ → Option α
  | .ready value => some value
  | .pending _ => none

def pending? : Completion α φ → Option φ
  | .ready _ => none
  | .pending work => some work

def mapPending (f : φ → ψ) : Completion α φ → Completion α ψ
  | .ready value => .ready value
  | .pending work => .pending (f work)

end Completion

end ReadBarrier
