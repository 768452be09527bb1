import ReadBarrier.CacheSignal

/-!
Deferred values: futures that are settled by hand.

The value is handed out once, by the first poll after it was given. Until then the waker of the
latest poll is kept, and it is woken when the value arrives.
-/

namespace ReadBarrier

structure Deferred (α ω : Type) where
  /-- The value, once given and until handed out. -/
  value : Option α := none
  /-- The waker of the latest poll that had to wait. -/
  waker : Option ω := none

namespace Deferred

variable {α ω : Type}

/-- Takes the value or, if there is none, leaves a waker. -/
def poll (d : Deferred α ω) (waker : ω) : Poll α × Deferred α ω :=
  match d.value with
  | some value => (.ready value, { d with value := none })
  | none => (.pending, { d with waker := some waker })

/-- Gives the value. Answers with the waker to wake, too, if there is one. -/
def resolve (d : Deferred α ω) (value : α) : Option ω × Deferred α ω :=
  (d.waker, { value := some value, waker := none })

end Deferred

end ReadBarrier
