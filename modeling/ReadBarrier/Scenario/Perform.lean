import ReadBarrier.Config.File
import ReadBarrier.Scenario.Dump
import ReadBarrier.Scenario.Loading

/-!
How a scenario runs: what its steps do, and how its futures come on when they are polled.

Steps run futures and tasks run steps, so everything here counts down a number of turns. A scenario
knows how many it needs at most.
-/

namespace ReadBarrier.Scenario

variable {ν : Type}

/-- The world has had all its turns. -/
def exhausted {α : Type} : Act (host ν) α := throw (.thrown .exhausted)

/-- The text of a panic, if there is one that a step may catch. -/
def panicText? : Panic (host ν) → Option String
  | .thrown (.text text) => some text
  | .thrown .exhausted => none
  | .storeBorrowed => some "<borrow>"

def catching {α : Type} (body : Act (host ν) α) : Act (host ν) (Except String α) := do
  match ← body.attempt with
  | .ok a => return .ok a
  | .error p =>
    match panicText? p with
    | some text => return .error text
    | none => throw p

/-- Polls a raw load. A load in pieces gives its result again and again; one that is settled by hand
gives it once. -/
def pollRawLoad (waker : Waker) :
    RawLoad ν → Run (host ν) (Outcome (host ν) (Value ν) × RawLoad ν)
  | .chunk 0 result => return (.ok (.ready (.loaded result)), .chunk 0 result)
  | .chunk (polls + 1) result => do
    modify (·.settle [.wake waker])
    return (.ok .pending, .chunk polls result)
  | .manual number => do
    match (stageOf (← get)).deferreds[number]? with
    | none => return (.ok .pending, .manual number)
    | some d =>
      let (answer, d) := d.poll waker
      modify fun w => { w with
        state := { stageOf w with deferreds := (stageOf w).deferreds.set number d } }
      return (.ok answer, .manual number)

def pollDeferred (waker : Waker) (number : Nat) : Act (host ν) (Poll (Value ν)) := do
  match (← getStage).deferreds[number]? with
  | none => return .pending
  | some d =>
    let (answer, d) := d.poll waker
    modifyStage fun s => { s with deferreds := s.deferreds.set number d }
    return answer

/-- Makes an import. It takes the deferred value or the future that it waits for off the stage. -/
def makeSource : Recipe ν → Act (host ν) (Source ν)
  | .mk label startPanic body => do
    let core ← match body with
      | .settles polls result => pure (.settles polls (.given result))
      | .deferred name => return ⟨label, startPanic, .deferred (← takeObject name (·.deferred?))⟩
      | .panics text => pure (.panics text)
      | .awaits name => return ⟨label, startPanic, .awaits (← takeObject name (·.future?))⟩
      | .task steps => pure (.task (.mk [] .nothing steps))
    return ⟨label, startPanic, core⟩

/-- What a function returns, its type left aside: the innermost value, or an error on the way. -/
abbrev Returned (ν φ : Type) := Except String (Except String (Completion ν φ))

/-- Runs the body of a function. -/
def runBody (shape : Shape) : Ret ν → Act (host ν) (Returned ν (Source ν))
  | .mk outerError error panicText pending ready => do
    note .called
    match shape, outerError with
    | .doublyFallible, some text => return .error text
    | _, _ =>
      match shape, error with
      | .doublyFallible, some text | .fallible, some text => return .ok (.error text)
      | _, _ =>
        match panicText, pending with
        | some text, _ => panic text
        | none, some recipe => return .ok (.ok (.pending (← makeSource recipe)))
        | none, none => return .ok (.ok (.ready ready))

def callTracked (name : String) (shape : Shape) (ret : Ret ν) :
    Act (host ν) (Returned ν (TrackedImport Double (Work ν))) :=
  TrackedFunction.call ⟨name, runBody shape⟩ ret

/-- Runs the body of a function that returns a future. A value is a future that is ready. -/
def runAsyncBody (ret : Ret ν) : Act (host ν) (Source ν) := do
  match ← runBody .async ret with
  | .ok (.ok (.pending source)) => return source
  | .ok (.ok (.ready value)) => return ⟨none, none, .settles 0 (.given (.ok value))⟩
  | .ok (.error text) | .error text => panic text

def callAsync (name : String) (ret : Ret ν) : Act (host ν) (TrackedImport Double (Work ν)) :=
  TrackedFunction.callAsync ⟨name, runAsyncBody⟩ ret

/-- Starts an import that is not tracked, and stores it. -/
def storeUntracked (name : String) (source : Source ν) : Act (host ν) (Answer ν) := do
  let work ← Import.start source
  store name (.future work)
  return .future .untracked

def storeTracked (name : String) (t : TrackedImport Double (Work ν)) :
    Act (host ν) (Answer ν) := do
  let isTracking := t.isTracking
  store name (.future (.tracked t))
  return .future (.ofBool isTracking)

/-- Answers with what a function returned, and stores what is pending in it. -/
def answerReturned {φ : Type} (keep : φ → Act (host ν) (Answer ν)) :
    Returned ν φ → Act (host ν) (Answer ν)
  | .error text => return .outerFailed text
  | .ok (.error text) => return .failed text
  | .ok (.ok (.ready value)) => return .ready value
  | .ok (.ok (.pending work)) => keep work

/-- Answers with what a loader returned, and stores a load in flight. -/
def answerLoad (name : String) : LoadAnswer ν → Act (host ν) (Answer ν)
  | .ready result => return .loaded result
  | .pending load => do
    store name (.future (.load load))
    return .loading

/-- Tracks an import in one of several ways. -/
def track (form : Form ν) (unit : Option UnitName) :
    Act (host ν) (Except Error (TrackedImport Double (Work ν))) := do
  match form with
  | .plain recipe =>
    let source ← makeSource recipe
    .ok <$> inUnit unit (trackImport source)
  | .made recipe panicText =>
    .ok <$> inUnit unit (trackImportWith do
      note .made
      match panicText with
      | some text => panic text
      | none => makeSource recipe)
  | .ready value =>
    inUnit unit (trackCompletion? (ι := Source ν) (.ready value))
  | .pending recipe =>
    let source ← makeSource recipe
    inUnit unit (trackCompletion? (α := ν) (.pending source))

def viewSignal (signal : SignalRef Double) : Act (host ν) SignalView := do
  match signal with
  | .cache i =>
    match (← get).caches[i]? with
    | some s => return .cache s.pending s.total s.isQuiescent
    | none => return .probe
  | .foreign (.recording i) => return .recording (((← getStage).recordings[i]?).getD {})
  | .foreign (.probe _) => return .probe

def wakesOf (waker : Waker) : Act (host ν) Nat := do
  match waker with
  | .counting number =>
    return (← get).history.countP fun
      | .cache (.woken (.counting i) _) => i == number
      | _ => false
  | _ => return 0

def newSignal (name : String) : SignalKind → Act (host ν) (SignalRef Double)
  | .cache => .cache <$> newCacheSignal
  | .recording => do
    let s ← getStage
    modifyStage fun s => { s with recordings := s.recordings ++ [{}] }
    return .foreign (.recording s.recordings.length)
  | .probe panics => do
    let s ← getStage
    modifyStage fun s => { s with probes := s.probes ++ [{ name, panics }] }
    return .foreign (.probe s.probes.length)

def repeatedly (body : Act (host ν) Unit) : Nat → Act (host ν) Unit
  | 0 => pure ()
  | n + 1 => do
    body
    repeatedly body n

def PollView.ofAnswer : Poll (Value ν) → PollView ν
  | .ready value => .ready value
  | .pending => .pending

/-- The steps on an instrumenter's configuration. -/
def instrumenterOf : ConfigSource → Except Error Instrumenter
  | .default => .ok default
  | .json text =>
    match TrackingConfig.ofJson text with
    | .ok config => Instrumenter.ofConfig config
    | .error e => .error (.ofConfig e)
  | .changed change => Instrumenter.ofConfig change.config

/-- The steps that poll nothing and run no further steps. -/
def performSimple (turns : Nat) : Step ν → Act (host ν) (Answer ν)
  | .signal name kind => do
    store name (.signal (← newSignal name kind))
    return .nothing
  | .beginReads name times => do
    let signal ← lookUp name (·.signal?)
    repeatedly signal.beginRead times
    return .nothing
  | .endReads name times => do
    let signal ← lookUp name (·.signal?)
    repeatedly signal.endRead times
    return .nothing
  | .tryEndRead name => do
    match ← tryEndRead (← lookUp name (·.cache?)) with
    | .ok () => return .done
    | .error e => return .error e
  | .signalState name => do return .signal (← viewSignal (← lookUp name (·.signal?)))
  | .cacheReady name signal => do
    let i ← lookUp signal (·.cache?)
    store name (.future (.cacheReady { signal := i }))
    return .nothing
  | .countingWaker name => do
    let s ← getStage
    modifyStage fun s => { s with counters := s.counters + 1 }
    store name (.waker (.counting s.counters))
    return .nothing
  | .loggingWaker name watched onWake => do
    let watched ← watched.mapM fun signal => lookUp signal (·.cache?)
    store name (.waker (.logging name watched onWake))
    return .nothing
  | .wakes name => do return .number (← wakesOf (← lookUp name (·.waker?)))
  | .lease name signal => do
    let lease ← ReadLease.begin (← lookUp signal (·.signal?))
    store name (.lease lease)
    return .nothing
  | .leaseCurrent name unit => do
    match ← inUnit unit ReadLease.beginCurrent with
    | some lease =>
      store name (.lease lease)
      return .flag true
    | none => return .flag false
  | .release name => do
    (← takeObject name (·.lease?)).release
    return .nothing
  | .enter name unit => do
    let guard ← (← unitNamed unit).enter
    store name (.guard guard)
    return .nothing
  | .current => do
    let unit ← currentUnit
    return .current (unit.map (·.kind)) (unit.bind (·.signal?)).isSome
  | .describeUnit name => do
    let unit ← unitNamed name
    return .unit unit.kind unit.signal?.isSome
  | .panic text => panic text
  | .enterDuringLook name => do
    let unit ← unitNamed name
    withCurrent fun _ => do (← unit.enter).drop
    return .nothing
  | .leaveDuringLook name => do
    let guard ← takeObject name (·.guard?)
    withCurrent fun _ => guard.drop
    return .nothing
  | .lookTwice =>
    withCurrent fun outer => withCurrent fun inner =>
      return .kinds [outer.map (·.kind), inner.map (·.kind)]
  | .deferred name => do
    let number ← newDeferred
    store name (.deferred number)
    store (name ++ "!") (.resolver number)
    return .nothing
  | .resolve name result onThread => do
    let number ← takeObject (name ++ "!") (·.resolver?)
    let resolution := resolveDeferred number (.given result)
    if onThread then onFreshThread resolution else resolution
    return .nothing
  | .future name recipe => do storeUntracked name (← makeSource recipe)
  | .scopedFuture name unit recipe => do
    let unit ← unitNamed unit
    let inner ← Import.start (← makeSource recipe)
    store name (.future (.inScope { unit, inner }))
    return .nothing
  | .unitOfScoped name => do
    let unit := (← lookUp name (·.scopedFuture?)).unit
    return .current unit.kind unit.signal?.isSome
  | .track name form unit => do
    match ← track form unit with
    | .ok t => storeTracked name t
    | .error e => return .error e
  | .drop name unit => do
    match (← getStage).get? name with
    | none => return .flag false
    | some object =>
      modifyStage (·.erase name)
      inUnit unit object.discard
      return .flag true
  | .function name ownName shape isExplicit => do
    let f : TrackedFunction (Ret ν) (Act (host ν) (Returned ν (Source ν))) :=
      if isExplicit then ⟨ownName, runBody shape⟩ else .ofName ownName (runBody shape)
    store name (.function f.name shape)
    return .text f.name
  | .call name function ret unwrapped unit => do
    let (ownName, shape) ← lookUp function (·.function?)
    match shape, unwrapped with
    | .async, true => storeUntracked name (← inUnit unit (runAsyncBody ret))
    | .async, false => storeTracked name (← inUnit unit (callAsync ownName ret))
    | shape, true => answerReturned (storeUntracked name) (← inUnit unit (runBody shape ret))
    | shape, false =>
      answerReturned (storeTracked name) (← inUnit unit (callTracked ownName shape ret))
  | .table name clone => do
    let table ← match clone with
      | none => pure {}
      | some other => lookUp other (·.table?)
    store name (.table table)
    return .nothing
  | .contains name global => do
    let table ← lookUp name (·.table?)
    return .found (table.contains global) (table.get? global).isSome
  | .register name global recipe => do
    let code ← makeLoader recipe
    let (old, table) := (← lookUp name (·.table?)).register global code
    modifyStage (·.put name (.table table))
    return match old with
      | none => .nothing
      | some loader => .loader (.ofLoader loader)
  | .settleLoad specifier settlement => do
    return .text (if ← settleLoad specifier settlement then "ok" else "no pending load")
  | .load name tableName global specifier unit => do
    let table ← lookUp tableName (·.table?)
    match ← inUnit unit (table.load (runLoader turns) global specifier) with
    | .ok answer => answerLoad name answer
    | .error e => return .error e
  | .callLoader name ownName recipe specifier unit => do
    let loader := Loader.ofCode ownName (← makeLoader recipe)
    let answer ← inUnit unit (loader.call (runLoader turns) specifier)
    return .loaderCalled (.ofLoader loader) (← answerLoad name answer)
  | .tableState name => do
    let table ← lookUp name (·.table?)
    return .loaders (table.entries.map fun (global, loader) => (global, .ofLoader loader))
  | .instrumenter name source =>
    match instrumenterOf source with
    | .ok i => do
      store name (.instrumenter i)
      return .done
    | .error e => return .error e
  | .instrument tableName name => do
    let i ← lookUp name (·.instrumenter?)
    let (table, report) := i.instrument (← lookUp tableName (·.table?))
    modifyStage (·.put tableName (.table table))
    (i.events report).forM Act.record
    return .report report
  | .dump name => do
    let object ← lookUp name some
    match object.dump? (← get) with
    | some dump => return .text dump.render
    | none => noObject name
  | .dumpUnit name => do
    let unit ← unitNamed name
    return .text (unit.dump (signalDump (← get))).render
  | _ => panic "driver: not in a task"

def Work.ofSteps (steps : List (Step ν)) : Work ν :=
  .plain none (.task (.mk [] .nothing steps))

/-- Takes futures off the stage, in order, behind those that were taken before. If one is missing,
all of those go. -/
def takeParts (taken : List (Part ν)) : List String → Act (host ν) (List (Part ν))
  | [] => return taken
  | name :: names => do
    let work ← (takeObject name (·.future?)).onPanic (discardParts taken)
    takeParts (taken ++ [.mk work none]) names

/-- The values of all parts, if each has one. -/
def values? (parts : List (Part ν)) : Option (List (Value ν)) :=
  parts.mapM fun | .mk _ value => value

mutual

def pollWork : Nat → Waker → Work ν → Run (host ν) (Outcome (host ν) (Value ν) × Work ν)
  | 0, _, work => return (.error (.thrown .exhausted), work)
  | n + 1, waker, .plain label core => do
    let _ ← (noteLabel .polled label).run
    let (outcome, core) ← pollCore n waker core
    return (outcome, .plain label core)
  | n + 1, waker, .tracked t => do
    let (outcome, t) ← t.poll (pollWork n waker t.inner)
    return (outcome, .tracked t)
  | n + 1, waker, .inScope s => do
    let (outcome, s) ← s.poll (pollWork n waker s.inner)
    return (outcome, .inScope s)
  | _ + 1, waker, .cacheReady r => do
    let (outcome, r) ← r.poll waker
    return (outcome.map fun
      | .ready () => .ready .quiescent
      | .pending => .pending, .cacheReady r)
  | _ + 1, waker, .load load => do
    let (outcome, load) ← load.poll (pollRawLoad waker)
    return (outcome, .load load)

def pollCore : Nat → Waker → Core ν → Run (host ν) (Outcome (host ν) (Value ν) × Core ν)
  | 0, _, core => return (.error (.thrown .exhausted), core)
  | _ + 1, _, .settles 0 value => return (.ok (.ready value), .spent)
  | _ + 1, waker, .settles (polls + 1) value => do
    modify (·.settle [.wake waker])
    return (.ok .pending, .settles polls value)
  | _ + 1, waker, .deferred number => do
    return (← (pollDeferred waker number).run, .deferred number)
  | _ + 1, _, .panics text => return (.error (.thrown (.text text)), .spent)
  | n + 1, waker, .awaits work => do
    match ← pollWork n waker work with
    | (.ok .pending, work) => return (.ok .pending, .awaits work)
    | (.ok (.ready value), work) =>
      let gone ← work.discard.run
      return (Outcome.after gone (.ok (.ready (.nested value))), .spent)
    | (.error p, work) =>
      let _ ← work.discard.run
      return (.error p, .spent)
  | n + 1, waker, .task task => do
    match ← pollTask n waker task with
    | (.ok .pending, task) => return (.ok .pending, .task task)
    | (.ok (.ready answers), _) => return (.ok (.ready (.answers answers)), .spent)
    | (.error p, _) => return (.error p, .spent)
  | _ + 1, _, .spent => return (.error (.thrown (.text "polled after completion")), .spent)

/-- Polls several futures in order, those that have no value yet. -/
def pollParts : Nat → Waker → List (Part ν) →
    Run (host ν) (Except (Panic (host ν)) Unit × List (Part ν))
  | 0, _, parts => return (.error (.thrown .exhausted), parts)
  | _ + 1, _, [] => return (.ok (), [])
  | n + 1, waker, .mk work (some value) :: parts => do
    let (outcome, parts) ← pollParts n waker parts
    return (outcome, .mk work (some value) :: parts)
  | n + 1, waker, .mk work none :: parts => do
    match ← pollWork n waker work with
    | (.error p, work) => return (.error p, .mk work none :: parts)
    | (.ok answer, work) =>
      let value := match answer with
        | .ready value => some value
        | .pending => none
      let (outcome, parts) ← pollParts n waker parts
      return (outcome, .mk work value :: parts)

/-- Runs a task until it has to wait. What it waited for goes as soon as it is there. -/
def pollTask : Nat → Waker → Task ν →
    Run (host ν) (Outcome (host ν) (List (Answer ν)) × Task ν)
  | 0, _, task => return (.error (.thrown .exhausted), task)
  | _ + 1, _, .mk answers .nothing [] =>
    return (.ok (.ready answers.reverse), .mk [] .nothing [])
  | n + 1, waker, .mk answers .nothing (step :: ahead) => do
    match step with
    | .yieldNow =>
      modify (·.settle [.wake waker])
      return (.ok .pending, .mk answers .yielded ahead)
    | .await name =>
      match ← (takeObject name (·.future?)).run with
      | .ok work => pollTask n waker (.mk answers (.future work) ahead)
      | .error p => return (.error p, .mk [] .nothing [])
    | .join names =>
      match ← (takeParts [] names).run with
      | .ok parts => pollTask n waker (.mk answers (.all parts) ahead)
      | .error p => return (.error p, .mk [] .nothing [])
    | .inScope name steps =>
      match ← (unitNamed name).run with
      | .ok unit =>
        pollTask n waker (.mk answers (.future (.inScope ⟨unit, .ofSteps steps⟩)) ahead)
      | .error p => return (.error p, .mk [] .nothing [])
    | step =>
      match ← (perform n step).run with
      | .ok answer => pollTask n waker (.mk (answer :: answers) .nothing ahead)
      | .error p => return (.error p, .mk [] .nothing [])
  | n + 1, waker, .mk answers .yielded ahead =>
    pollTask n waker (.mk (.text "yielded" :: answers) .nothing ahead)
  | n + 1, waker, .mk answers (.future work) ahead => do
    match ← pollWork n waker work with
    | (.ok .pending, work) => return (.ok .pending, .mk answers (.future work) ahead)
    | (.ok (.ready value), work) =>
      match ← work.discard.run with
      | .ok () => pollTask n waker (.mk (.value value :: answers) .nothing ahead)
      | .error p => return (.error p, .mk [] .nothing [])
    | (.error p, work) =>
      let _ ← work.discard.run
      return (.error p, .mk [] .nothing [])
  | n + 1, waker, .mk answers (.all parts) ahead => do
    match ← pollParts n waker parts with
    | (.error p, parts) =>
      let _ ← (discardParts parts).run
      return (.error p, .mk [] .nothing [])
    | (.ok (), parts) =>
      match values? parts with
      | none => return (.ok .pending, .mk answers (.all parts) ahead)
      | some values =>
        match ← (discardParts parts).run with
        | .ok () => pollTask n waker (.mk (.values values :: answers) .nothing ahead)
        | .error p => return (.error p, .mk [] .nothing [])

/-- Polls a future until it is ready. It goes afterwards. -/
def blockOn : Nat → Work ν → Act (host ν) (Value ν)
  | 0, _ => exhausted
  | n + 1, work => do
    match ← pollWork n .idle work with
    | (.ok .pending, work) => blockOn n work
    | (.ok (.ready value), work) =>
      work.discard
      return value
    | (.error p, work) => (throw p : Act (host ν) (Value ν)).onPanic work.discard

def perform : Nat → Step ν → Act (host ν) (Answer ν)
  | 0, _ => exhausted
  | n + 1, step =>
    match step with
    | .run name steps => do
      let unit ← unitNamed name
      return .answers (← unit.run (steps.mapM (perform n)))
    | .attempt name steps => do
      match ← catching (inUnit name (steps.mapM (perform n))) with
      | .ok answers => return .attempted answers
      | .error text => return .panicked text
    | .thread name => do
      let unit ← unitNamed name
      onFreshThread do
        let before ← currentKind
        let guard ← unit.enter
        let inside ← currentKind
        let t ← trackImport (⟨none, none, .settles 0 .quiescent⟩ : Source ν)
        let isTracking := t.isTracking
        let (outcome, t) ← t.poll (pollWork n .idle t.inner)
        t.discard t.inner.discard
        guard.drop
        let after ← currentKind
        match outcome with
        | .ok answer => return .thread before inside isTracking (.ofAnswer answer) after
        | .error p => throw p
    | .poll name waker unit => do
      let waker ← match waker with
        | none => pure .idle
        | some waker => lookUp waker (·.waker?)
      let work ← takeObject name (·.future?)
      let (outcome, work) ← inUnit unit (pollWork n waker work)
      let isTracking := match work with
        | .tracked t => some t.isTracking
        | _ => none
      store name (.future work)
      match outcome with
      | .ok answer => return .polled (.ofAnswer answer) isTracking
      | .error p =>
        match panicText? p with
        | some text => return .polled (.panicked text) isTracking
        | none => throw p
    | .blockOn name => do
      let work ← takeObject name (·.future?)
      return .value (← blockOn n work)
    | step => performSimple n step

end

end ReadBarrier.Scenario
