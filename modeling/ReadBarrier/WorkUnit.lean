/-!
Work units: which phase of rendering a piece of code runs in.

Only a prerender may carry a read signal, so only prerenders count the reads begun inside them.
-/

namespace ReadBarrier

/-- A handle to a read signal: one of the library's own counting signals, by its number, or a
signal that someone else implements. -/
inductive SignalRef (σ : Type) where
  | cache (number : Nat)
  | foreign (signal : σ)
  deriving DecidableEq

inductive WorkUnit (σ : Type) where
  /-- A static prerender; reads count against `signal`, if there is one. -/
  | prerender (signal : Option (SignalRef σ))
  /-- A static shell with dynamic holes. -/
  | prerenderPpr
  /-- A prerender that does not track reads. -/
  | prerenderLegacy
  | request
  /-- Inside a cache scope. -/
  | cache
  /-- Inside a legacy cache wrapper. -/
  | unstableCache
  deriving DecidableEq

namespace WorkUnit

variable {σ : Type}

inductive Kind where
  | prerender | prerenderPpr | prerenderLegacy | request | cache | unstableCache
  deriving DecidableEq

def Kind.name : Kind → String
  | .prerender => "prerender"
  | .prerenderPpr => "prerender-ppr"
  | .prerenderLegacy => "prerender-legacy"
  | .request => "request"
  | .cache => "cache"
  | .unstableCache => "unstable-cache"

def kind : WorkUnit σ → Kind
  | .prerender _ => .prerender
  | .prerenderPpr => .prerenderPpr
  | .prerenderLegacy => .prerenderLegacy
  | .request => .request
  | .cache => .cache
  | .unstableCache => .unstableCache

/-- The signal that reads begun in this unit count against. -/
def signal? : WorkUnit σ → Option (SignalRef σ)
  | .prerender signal => signal
  | _ => none

/-- The unit of a kind that carries no signal. -/
def ofKind : Kind → WorkUnit σ
  | .prerender => .prerender none
  | .prerenderPpr => .prerenderPpr
  | .prerenderLegacy => .prerenderLegacy
  | .request => .request
  | .cache => .cache
  | .unstableCache => .unstableCache

@[simp] theorem kind_ofKind (k : Kind) : (ofKind k : WorkUnit σ).kind = k := by
  cases k <;> rfl

@[simp] theorem signal?_ofKind (k : Kind) : (ofKind k : WorkUnit σ).signal? = none := by
  cases k <;> rfl

end WorkUnit

end ReadBarrier
