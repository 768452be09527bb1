import ReadBarrier.Config
import ReadBarrier.Loader.Table

/-!
The instrumentation pass: every configured global that has a loader gets a tracked one, once.
-/

namespace ReadBarrier

/-- What a pass did to each configured global, in the order of the configuration. -/
structure InstrumentReport where
  wrapped : List String := []
  /-- The globals whose loaders were wrapped before. -/
  alreadyInstrumented : List String := []
  missing : List String := []
  deriving DecidableEq

/-- A configuration that the pass can use. -/
structure Instrumenter where
  config : TrackingConfig
  valid : config.validate = .ok ()

namespace Instrumenter

def ofConfig (config : TrackingConfig) : Except Error Instrumenter :=
  match h : config.validate with
  | .ok () => .ok ⟨config, h⟩
  | .error value => .error (.ofConfig (.invalid value))

instance : Inhabited Instrumenter := ⟨{}, rfl⟩

variable {κ : Type}

def loaderName (i : Instrumenter) (global : String) : String :=
  i.config.functionNamePrefix ++ global

/-- Wraps the loader of one global, unless it is missing or wrapped already, and notes which it
was. The loader is taken out of the table, and goes back in either way. -/
def instrumentOne (i : Instrumenter) (table : LoaderTable κ) (report : InstrumentReport)
    (global : String) : LoaderTable κ × InstrumentReport :=
  match table.get? global with
  | none => (table, { report with missing := report.missing ++ [global] })
  | some loader =>
    let others := table.erase global
    if loader.isInstrumented then
      (others.insert global loader,
        { report with alreadyInstrumented := report.alreadyInstrumented ++ [global] })
    else
      (others.insert global (loader.track (i.loaderName global)),
        { report with wrapped := report.wrapped ++ [global] })

def instrument (i : Instrumenter) (table : LoaderTable κ) : LoaderTable κ × InstrumentReport :=
  if i.config.enabled then
    i.config.instrumentedGlobals.foldl (fun (table, report) => i.instrumentOne table report)
      (table, {})
  else (table, {})

def events {H : Host} (i : Instrumenter) (report : InstrumentReport) : List (Event H) :=
  if i.config.enabled then report.wrapped.map fun global => .wrapped global (i.loaderName global)
  else [.passDisabled]

open Text in
def dump (i : Instrumenter) : Dump := .record "Instrumenter" [("config", i.config.dump)]

end Instrumenter

end ReadBarrier
