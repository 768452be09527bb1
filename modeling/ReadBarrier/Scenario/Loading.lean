import ReadBarrier.Scenario.Stage

/-!
The loaders of a scenario.
-/

namespace ReadBarrier.Scenario

variable {ν : Type}

def Catalogue.result (c : Catalogue) (specifier : String) : LoadResult (Exports ν) :=
  if c.missing.contains specifier then .error (.notFound specifier)
  else match c.failing.lookup specifier with
    | some reason => .error (.failed specifier reason)
    | none => .ok (.bytes specifier.utf8ByteSize)

abbrev LoadAnswer (ν : Type) :=
  Completion (LoadResult (Exports ν)) (LoadFuture Double (RawLoad ν))

/-- Starts a load that is settled by hand. -/
def startManual (specifier : String) : Act (host ν) (LoadAnswer ν) := do
  let number ← newDeferred
  modifyStage fun s => { s with openLoads := (specifier, number) :: s.openLoads }
  return .pending (.raw (.manual number))

/-- Runs the code of a loader. Each one may call others that were made before it; `n` bounds how
many of them stand one behind the other. -/
def runLoader : Nat → LoaderCode → String → Act (host ν) (LoadAnswer ν)
  | 0, _, _ => throw (.thrown .exhausted)
  | n + 1, code, specifier => do
    note (.loading specifier)
    match code with
    | .sync catalogue => return .ready (catalogue.result specifier)
    | .chunk catalogue polls => return .pending (.raw (.chunk polls (catalogue.result specifier)))
    | .manual => startManual specifier
    | .mixed catalogue there =>
      if there.contains specifier then return .ready (catalogue.result specifier)
      else startManual specifier
    | .panicking => panic s!"loader panic: {specifier}"
    | .delegating loader => loader.call (runLoader n) specifier

def makeLoader : LoaderRecipe → Act (host ν) LoaderCode
  | .sync catalogue => return .sync catalogue
  | .chunk catalogue polls => return .chunk catalogue polls
  | .manual => return .manual
  | .mixed catalogue there => return .mixed catalogue there
  | .panicking => return .panicking
  | .delegating table global => do
    match (← lookUp table (·.table?)).get? global with
    | some loader => return .delegating loader
    | none => noObject global

def Settlement.result (specifier : String) : Settlement ν → LoadResult (Exports ν)
  | .loaded exports => .ok (.given exports)
  | .failed reason => .error (.failed specifier reason)
  | .notFound => .error (.notFound specifier)

/-- Settles the latest load of a specifier, if it is still open. -/
def settleLoad (specifier : String) (settlement : Settlement ν) : Act (host ν) Bool := do
  match (← getStage).openLoads.lookup specifier with
  | none => return false
  | some number =>
    modifyStage fun s => { s with openLoads := s.openLoads.filter (·.1 != specifier) }
    resolveDeferred number (.loaded (settlement.result specifier))
    return true

def LoaderView.ofLoader (loader : Loader LoaderCode) : LoaderView :=
  ⟨loader.name, loader.isInstrumented, loader.dump.render⟩

end ReadBarrier.Scenario
