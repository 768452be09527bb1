import ReadBarrier.CacheReady
import ReadBarrier.Proofs.EntryPoint

/-!
Foreign code that acts by a script.

Wherever the library calls foreign code, that may call the library again, in any way, before it
answers or panics: signals, imports, their futures, functions and loaders all may. In a run that
comes to an end each of these calls made finitely many calls itself. So the foreign code here reads
what to do from a script, one part each time that it is called, and a run of any foreign code is one
of a script.

The objects that the library hands out are kept, and used again by their keys. They are not copied.
-/

namespace ReadBarrier.Script

variable {σ ω β : Type}

/-- What foreign code writes into the log. -/
inductive Remark (ω : Type) where
  | called (call : ReadCall)
  | returned
  /-- The end that it tried was refused. -/
  | refused (signal : Nat)
  /-- An operation is over, and the counting signals stand like this. -/
  | moment (caches : Bank ω)

/-- Something that foreign code does. -/
inductive Op (σ ω : Type) where
  | call (call : ReadCall)
  | tryEndRead (signal : Nat)
  | lease (signal : SignalRef σ)
  | leaseCurrent
  | release (key : Nat)
  | enter (unit : WorkUnit σ)
  | leave (key : Nat)
  /-- Goes on inside a unit. -/
  | run (unit : WorkUnit σ)
  /-- Goes on while the current unit is being looked at. -/
  | look
  /-- Goes on on a thread of its own. -/
  | thread
  /-- Goes on, and catches a panic. -/
  | attempt
  | track
  | trackWith
  | trackCompletion (value : Completion Unit Unit)
  | callFunction (name : String) (layers : Nat)
  | callAsync (name : String)
  | load (loader : Loader Unit) (specifier : String)
  /-- Polls a future, which may be scoped. -/
  | poll (key : Nat) (scope : Option (WorkUnit σ))
  | drop (key : Nat)
  | cacheReady (signal : Nat)
  | pollReady (key : Nat) (waker : ω)
  | dropReady (key : Nat)

/-- What foreign code does when it is called: some operations, and then it panics or answers. Each
caller reads from the answer what it needs. -/
structure Part (σ ω : Type) where
  ops : List (Op σ ω) := []
  panics : Bool := false
  /-- Whether the answer is, or has, pending work. -/
  isPending : Bool := false
  /-- How many layers of success the answer has around an error, if it has one. -/
  layers : Option Nat := none
  /-- The future in the answer, if it is one that was made before. -/
  future : Option Nat := none

abbrev Shelf (β : Type) := List (Nat × β)

def Shelf.take (key : Nat) : Shelf β → Option β × Shelf β
  | [] => (none, [])
  | (k, b) :: shelf =>
    if k = key then (some b, shelf)
    else ((take key shelf).1, (k, b) :: (take key shelf).2)

/-- The state of foreign code: the script ahead, and the objects that it keeps. -/
structure Stock (σ ω : Type) where
  script : List (Part σ ω) := []
  leases : Shelf (ReadLease σ) := []
  futures : Shelf (LoadFuture σ Unit) := []
  guards : Shelf Guard := []
  readies : Shelf CacheReady := []
  next : Nat := 0

abbrev host (σ ω : Type) : Host where
  Signal := σ
  Waker := ω
  Note := Remark ω
  Payload := Unit
  State := Stock σ ω

def stockOf (w : World (host σ ω)) : Stock σ ω := w.state

def restock (f : Stock σ ω → β × Stock σ ω) : Act (host σ ω) β :=
  modifyGet fun w => ((f (stockOf w)).1, { w with state := (f (stockOf w)).2 })

def remark (r : Remark ω) : Act (host σ ω) Unit := Act.record (.note r)

/-- A key that was never used. -/
def newKey : Act (host σ ω) Nat := restock fun s => (s.next, { s with next := s.next + 1 })

def putLease (key : Nat) (lease : ReadLease σ) : Act (host σ ω) Unit :=
  restock fun s => ((), { s with leases := (key, lease) :: s.leases })

def takeLease (key : Nat) : Act (host σ ω) (Option (ReadLease σ)) :=
  restock fun s => ((Shelf.take key s.leases).1, { s with leases := (Shelf.take key s.leases).2 })

def putFuture (key : Nat) (future : LoadFuture σ Unit) : Act (host σ ω) Unit :=
  restock fun s => ((), { s with futures := (key, future) :: s.futures })

def takeFuture (key : Nat) : Act (host σ ω) (Option (LoadFuture σ Unit)) :=
  restock fun s =>
    ((Shelf.take key s.futures).1, { s with futures := (Shelf.take key s.futures).2 })

def putGuard (key : Nat) (guard : Guard) : Act (host σ ω) Unit :=
  restock fun s => ((), { s with guards := (key, guard) :: s.guards })

def takeGuard (key : Nat) : Act (host σ ω) (Option Guard) :=
  restock fun s => ((Shelf.take key s.guards).1, { s with guards := (Shelf.take key s.guards).2 })

def putReady (key : Nat) (ready : CacheReady) : Act (host σ ω) Unit :=
  restock fun s => ((), { s with readies := (key, ready) :: s.readies })

def takeReady (key : Nat) : Act (host σ ω) (Option CacheReady) :=
  restock fun s =>
    ((Shelf.take key s.readies).1, { s with readies := (Shelf.take key s.readies).2 })

/-- The next part of the script. When the script is over, foreign code does nothing more. -/
def nextPart : Act (host σ ω) (Part σ ω) :=
  restock fun s =>
    match s.script with
    | [] => ({}, s)
    | part :: rest => (part, { s with script := rest })

/-- Foreign code is called, `perform` doing its operations. -/
def play (perform : Op σ ω → Act (host σ ω) Unit) : Act (host σ ω) (Part σ ω) := do
  let part ← nextPart
  part.ops.forM perform
  if part.panics then throw (.thrown ()) else return part

def makeCall [Foreign (host σ ω)] (c : ReadCall) : Act (host σ ω) Unit := do
  remark (.called c)
  match c with
  | .beginRead i => (SignalRef.cache i : SignalRef σ).beginRead
  | .endRead i => (SignalRef.cache i : SignalRef σ).endRead
  remark .returned

def tryCall [Foreign (host σ ω)] (i : Nat) : Act (host σ ω) Unit := do
  remark (.called (.endRead i))
  match ← tryEndRead i with
  | .ok () => remark .returned
  | .error _ => remark (.refused i)

/-! ### Foreign code where the library calls it -/

section Calls

variable (reactions : Reactions ω) (cue : Act (host σ ω) (Part σ ω))

/-- Calls foreign code and ignores its answer. -/
def call : Act (host σ ω) Unit := do
  let _ ← cue

def answerFuture (part : Part σ ω) : Act (host σ ω) (LoadFuture σ Unit) := do
  match part.future with
  | none => return .raw ()
  | some key => return (← takeFuture key).getD (.raw ())

/-- The pending work in an answer, or the value that is there instead. -/
def answerCompletion (part : Part σ ω) : Completion Unit Unit :=
  if part.isPending then .pending () else .ready ()

def answerLayers (value : Completion Unit Unit) :
    (n : Nat) → Option Nat → Layers (fun _ => Unit) n (Completion Unit Unit)
  | 0, _ => value
  | _ + 1, some 0 => (.error () : Except Unit (Layers (fun _ => Unit) _ (Completion Unit Unit)))
  | n + 1, some (k + 1) =>
    (.ok (answerLayers value n (some k)) :
      Except Unit (Layers (fun _ => Unit) n (Completion Unit Unit)))
  | n + 1, none =>
    (.ok (answerLayers value n none) :
      Except Unit (Layers (fun _ => Unit) n (Completion Unit Unit)))

@[reducible] def foreign : Foreign (host σ ω) where
  beginRead _ := call cue
  endRead _ := call cue
  reactions := reactions

@[reducible] def imports : Import (host σ ω) Unit (LoadFuture σ Unit) where
  start _ := do answerFuture (← cue)
  discard _ := call cue

@[reducible] def discards : Discard (host σ ω) Unit where
  discard _ := call cue

def pollRaw (future : Unit) : Run (host σ ω) (Outcome (host σ ω) Unit × Unit) := do
  match ← cue.run with
  | .ok part => return (.ok (if part.isPending then .pending else .ready ()), future)
  | .error p => return (.error p, future)

def pollFuture [Foreign (host σ ω)] (scope : Option (WorkUnit σ)) (future : LoadFuture σ Unit) :
    Run (host σ ω) (Outcome (host σ ω) Unit × LoadFuture σ Unit) :=
  match scope with
  | none => LoadFuture.poll (H := host σ ω) (pollRaw cue) future
  | some unit => do
    let (outcome, s) ← Scoped.poll ⟨unit, future⟩
      (LoadFuture.poll (H := host σ ω) (pollRaw cue) future)
    return (outcome, s.inner)

def runLoader (_ : Unit) (specifier : String) :
    Act (host σ ω) (Completion (LoadResult Unit) (LoadFuture σ Unit)) := do
  let part ← cue
  if part.isPending then return .pending (← answerFuture part)
  else if part.layers.isSome then return .ready (.error (.notFound specifier))
  else return .ready (.ok ())

/-- Does an operation, `cue` being a call of foreign code. -/
def effect (op : Op σ ω) : Act (host σ ω) Unit := do
  let _ := foreign reactions cue
  let _ := imports cue
  let _ := discards cue
  match op with
  | .call c => makeCall c
  | .tryEndRead i => tryCall i
  | .lease signal => do putLease (← newKey) (← ReadLease.begin signal)
  | .leaseCurrent =>
    match ← ReadLease.beginCurrent with
    | some lease => putLease (← newKey) lease
    | none => pure ()
  | .release key => do ReadLease.releaseAny (← takeLease key)
  | .enter unit => do putGuard (← newKey) (← unit.enter)
  | .leave key =>
    match ← takeGuard key with
    | some guard => guard.leave
    | none => pure ()
  | .run unit => unit.run (call cue)
  | .look => withCurrent fun _ => call cue
  | .thread => onFreshThread (call cue)
  | .attempt =>
    let _ ← cue.attempt
  | .track => do putFuture (← newKey) (.tracked (← trackImport ()))
  | .trackWith => do putFuture (← newKey) (.tracked (← trackImportWith (call cue)))
  | .trackCompletion value =>
    match ← trackCompletion? value with
    | .ok t => putFuture (← newKey) (.tracked t)
    | .error _ => pure ()
  | .callFunction name n =>
    let f : TrackedFunction Unit
      (Act (host σ ω) (Layers (fun _ => Unit) n (Completion Unit Unit))) :=
      ⟨name, fun _ => do
        let part ← cue
        return answerLayers (answerCompletion part) n part.layers⟩
    match Layers.pending? n (← f.call ()) with
    | some t => putFuture (← newKey) (.tracked t)
    | none => pure ()
  | .callAsync name =>
    let f : TrackedFunction Unit (Act (host σ ω) Unit) := ⟨name, fun _ => call cue⟩
    putFuture (← newKey) (.tracked (← f.callAsync ()))
  | .load loader specifier =>
    match ← loader.call (runLoader cue) specifier with
    | .pending future => putFuture (← newKey) future
    | .ready _ => pure ()
  | .poll key scope =>
    match ← takeFuture key with
    | none => pure ()
    | some future =>
      let (outcome, future) ← pollFuture cue scope future
      putFuture key future
      match outcome with
      | .ok _ => pure ()
      | .error p => throw p
  | .drop key =>
    match ← takeFuture key with
    | none => pure ()
    | some future => future.discard Discard.discard
  | .cacheReady i => do putReady (← newKey) { signal := i }
  | .pollReady key waker =>
    match ← takeReady key with
    | none => pure ()
    | some ready =>
      let (_, ready) ← (ready.poll waker : Run (host σ ω) _)
      putReady key ready
  | .dropReady key =>
    match ← takeReady key with
    | none => pure ()
    | some ready => ready.discard

/-- Does an operation and remarks how the counting signals stand afterwards, also after a panic. -/
def perform (op : Op σ ω) : Act (host σ ω) Unit :=
  (effect reactions cue op).always do remark (.moment (← get).caches)

end Calls

/-- A call of foreign code, in which calls are nested up to some depth. -/
def cue (reactions : Reactions ω) : Nat → Act (host σ ω) (Part σ ω)
  | 0 => return {}
  | depth + 1 => play (perform reactions (cue reactions depth))

/-- Does operations one after the other, also after one that panicked. -/
def run (reactions : Reactions ω) (depth : Nat) (ops : List (Op σ ω)) : Act (host σ ω) Unit :=
  ops.forM fun op => do
    let _ ← (perform reactions (cue reactions depth) op).attempt

/-- The world before a run: some counting signals, all idle, and a script. -/
def start (signals : Nat) (script : List (Part σ ω)) : World (host σ ω) where
  caches := List.replicate signals {}
  state := { script }

end ReadBarrier.Script
