import ReadBarrier.Text.Dump

/-!
Why a module could not be loaded.
-/

namespace ReadBarrier

inductive LoadError where
  /-- Nothing is known under this specifier. -/
  | notFound (specifier : String)
  /-- The module exists, and could not be loaded or evaluated. -/
  | failed (specifier : String) (reason : String)
  deriving DecidableEq

/-- The result of a load, with exports of type `ε`. -/
abbrev LoadResult (ε : Type) := Except LoadError ε

namespace LoadError

def message : LoadError → String
  | .notFound specifier => s!"module not found: {specifier}"
  | .failed specifier reason => s!"failed to load {specifier}: {reason}"

open Text in
def dump : LoadError → Dump
  | .notFound specifier => .record "NotFound" [("specifier", .string specifier)]
  | .failed specifier reason =>
    .record "Failed" [("specifier", .string specifier), ("reason", .string reason)]

end LoadError

end ReadBarrier
