import ReadBarrier.LoadError
import ReadBarrier.TrackedFunction

/-!
Module loaders, raw or with their pending loads tracked.
-/

namespace ReadBarrier

/-- A load in flight: a raw one, or one that keeps a read outstanding around another load. -/
inductive LoadFuture (σ φ : Type) where
  | raw (load : φ)
  | tracked (load : TrackedImport σ (LoadFuture σ φ))

/-- The function of a loader: raw code, or a tracked function around another one. -/
inductive LoaderFunction (κ : Type) where
  | raw (code : κ)
  | tracked (name : String) (inner : LoaderFunction κ)

structure Loader (κ : Type) where
  name : String
  func : LoaderFunction κ
  /-- Whether its pending loads are tracked. -/
  isInstrumented : Bool

namespace LoadFuture

variable {H : Host} [Foreign H] {φ α : Type}

/-- Polls a load, given how raw ones are polled. -/
def poll (pollRaw : φ → Run H (Outcome H α × φ)) :
    LoadFuture H.Signal φ → Run H (Outcome H α × LoadFuture H.Signal φ)
  | .raw load => do
    let (outcome, load) ← pollRaw load
    return (outcome, .raw load)
  | .tracked ⟨inner, lease⟩ => do
    let (outcome, load) ← TrackedImport.poll ⟨inner, lease⟩ (poll pollRaw inner)
    return (outcome, .tracked load)

def discard (discardRaw : φ → Act H Unit) : LoadFuture H.Signal φ → Act H Unit
  | .raw load => discardRaw load
  | .tracked ⟨inner, lease⟩ => TrackedImport.discard ⟨inner, lease⟩ (discard discardRaw inner)

end LoadFuture

/-- What raw loads do when they are given up. -/
class Discard (H : Host) (φ : Type) where
  discard : φ → Act H Unit

/-- A load in flight is an import that has already started. -/
instance {H : Host} [Foreign H] {φ : Type} [Discard H φ] :
    Import H (LoadFuture H.Signal φ) (LoadFuture H.Signal φ) where
  start := pure
  discard := LoadFuture.discard Discard.discard

namespace LoaderFunction

variable {H : Host} [Foreign H] {κ ε φ : Type} [Discard H φ]

/-- Calls the function of a loader, given how raw code runs. -/
def call (run : κ → String → Act H (Completion (LoadResult ε) (LoadFuture H.Signal φ))) :
    LoaderFunction κ → String → Act H (Completion (LoadResult ε) (LoadFuture H.Signal φ))
  | .raw code, specifier => run code specifier
  | .tracked name inner, specifier => do
    let result ← TrackedFunction.call ⟨name, call run inner⟩ specifier
    return result.mapPending .tracked

end LoaderFunction

namespace Loader

variable {κ : Type}

def ofCode (name : String) (code : κ) : Loader κ :=
  { name, func := .raw code, isInstrumented := false }

/-- The loader with its pending loads tracked, under another name. -/
def track (name : String) (loader : Loader κ) : Loader κ :=
  { name, func := .tracked name loader.func, isInstrumented := true }

def call {H : Host} [Foreign H] {ε φ : Type} [Discard H φ]
    (run : κ → String → Act H (Completion (LoadResult ε) (LoadFuture H.Signal φ)))
    (loader : Loader κ) (specifier : String) :
    Act H (Completion (LoadResult ε) (LoadFuture H.Signal φ)) :=
  loader.func.call run specifier

open Text in
def dump (loader : Loader κ) : Dump :=
  .partialRecord "Loader" [("name", .string loader.name),
    ("instrumented", .bool loader.isInstrumented)]

end Loader

end ReadBarrier
