import ReadBarrier.Error
import ReadBarrier.Loader

/-!
The loaders that are registered under global names, in the order of the names.
-/

namespace ReadBarrier

/-- The loaders by name. The names are in strictly ascending order of their characters. -/
structure LoaderTable (κ : Type) where
  entries : List (String × Loader κ) := []

namespace LoaderTable

variable {κ : Type}

def get? (table : LoaderTable κ) (global : String) : Option (Loader κ) :=
  (table.entries.find? (·.1 == global)).map (·.2)

def contains (table : LoaderTable κ) (global : String) : Bool := (table.get? global).isSome

def globals (table : LoaderTable κ) : List String := table.entries.map (·.1)

/-- Puts a loader at its place in an ordered list, instead of the one of that name, if any. -/
def insertInto (global : String) (loader : Loader κ) :
    List (String × Loader κ) → List (String × Loader κ)
  | [] => [(global, loader)]
  | (name, other) :: rest =>
    if global < name then (global, loader) :: (name, other) :: rest
    else if global = name then (global, loader) :: rest
    else (name, other) :: insertInto global loader rest

def insert (table : LoaderTable κ) (global : String) (loader : Loader κ) : LoaderTable κ :=
  ⟨insertInto global loader table.entries⟩

def erase (table : LoaderTable κ) (global : String) : LoaderTable κ :=
  ⟨table.entries.filter (·.1 != global)⟩

/-- Registers raw code under a name. Answers with the loader that it replaced, too. -/
def register (table : LoaderTable κ) (global : String) (code : κ) :
    Option (Loader κ) × LoaderTable κ :=
  (table.get? global, table.insert global (.ofCode global code))

/-- Loads a module through the loader of a name, given how raw code runs. -/
def load {H : Host} [Foreign H] {ε φ : Type} [Discard H φ]
    (run : κ → String → Act H (Completion (LoadResult ε) (LoadFuture H.Signal φ)))
    (table : LoaderTable κ) (global specifier : String) :
    Act H (Except Error (Completion (LoadResult ε) (LoadFuture H.Signal φ))) :=
  match table.get? global with
  | some loader => .ok <$> loader.call run specifier
  | none => return .error (.unknownLoader global)

open Text in
def dump (table : LoaderTable κ) : Dump :=
  .record "LoaderTable"
    [("loaders", .map (table.entries.map fun (global, loader) => (.string global, loader.dump)))]

end LoaderTable

end ReadBarrier
