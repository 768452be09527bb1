import ReadBarrier.Proofs.Reentrancy
import ReadBarrier.Proofs.Unwinding

/-!
Calls of tracked functions nest in the log as they do on the stack.

Foreign code is here told in which tracked calls it runs: whoever calls it within such a call adds
the name of that call. At any moment it may write this down, and what it then writes are the spans
that the log leaves open.
-/

namespace ReadBarrier

open Act

variable {H : Host} {α β φ ι : Type}

/-- The spans that a log leaves open, innermost first. The latest event comes first. There is no
answer if a span was closed that was not the innermost one. -/
def openSpans? : List (Event H) → Option (List String)
  | [] => some []
  | .callEntered name :: history => (openSpans? history).map (name :: ·)
  | .callExited name :: history =>
    match openSpans? history with
    | some (innermost :: outer) => if innermost = name then some outer else none
    | _ => none
  | .cache _ :: history | .leaseBegun _ :: history | .leaseEnded _ :: history
  | .passDisabled :: history | .wrapped .. :: history | .note _ :: history => openSpans? history

/-- The same host, with code that writes down in which tracked calls it is, innermost first. -/
abbrev Host.told (H : Host) : Host := { H with Note := List String }

/-- Each note in a log gives the spans that were open when it was written. -/
def Told : List (Event H.told) → Prop
  | [] => True
  | .note calls :: history => openSpans? history = some calls ∧ Told history
  | .callEntered _ :: history | .callExited _ :: history | .cache _ :: history
  | .leaseBegun _ :: history | .leaseEnded _ :: history | .passDisabled :: history
  | .wrapped .. :: history => Told history

/-- Neither the begin nor the end of a tracked call, nor a note. -/
def Event.IsPlain : Event H → Prop
  | .cache _ | .leaseBegun _ | .leaseEnded _ | .passDisabled | .wrapped .. => True
  | .callEntered _ | .callExited _ | .note _ => False

/-- However it comes out, it logs plain events only. -/
def Act.Plain (body : Act H α) : Prop :=
  ∀ w, ∃ log, (exec body w).2.history = log ++ w.history ∧ ∀ e ∈ log, e.IsPlain

/-- Neither the store nor its guards are seen in the log. -/
theorem WorkUnit.plain_enter (unit : WorkUnit H.Signal) : Plain (unit.enter (H := H)) := by
  intro w
  refine ⟨[], ?_, by simp⟩
  rcases Nat.eq_zero_or_pos w.units.borrows with hidle | hborrowed
  · rw [exec_enter hidle]
    rfl
  · rw [exec_enter_of_borrowed hborrowed]
    rfl

theorem Guard.plain_leave (guard : Guard) : Plain (guard.leave (H := H)) := by
  intro w
  refine ⟨[], ?_, by simp⟩
  rcases Nat.eq_zero_or_pos w.units.borrows with hidle | hborrowed
  · rw [exec_leave hidle]
    rfl
  · rw [exec_leave_of_borrowed hborrowed]
    rfl

/-- The log agrees so far with the calls that are active, innermost first. -/
structure World.InCalls (w : World H.told) (calls : List String) : Prop where
  spans : openSpans? w.history = some calls
  told : Told w.history

namespace World.InCalls

variable {w v : World H.told} {calls : List String} {name : String}

theorem congr (h : w.InCalls calls) (hv : v.history = w.history) : v.InCalls calls := by
  constructor
  · rw [hv]
    exact h.spans
  · rw [hv]
    exact h.told

theorem note (h : w.InCalls calls) :
    World.InCalls { w with history := .note calls :: w.history } calls :=
  ⟨h.spans, h.spans, h.told⟩

theorem called (h : w.InCalls calls) : World.InCalls (w.called name) (name :: calls) := by
  constructor
  · simp only [World.called, openSpans?, h.spans, Option.map_some]
  · exact h.told

theorem exited (h : w.InCalls (name :: calls)) : World.InCalls (w.exited name) calls := by
  constructor
  · simp only [World.exited, openSpans?, h.spans, ↓reduceIte]
  · exact h.told

theorem plain (h : w.InCalls calls) {log : List (Event H.told)}
    (hv : v.history = log ++ w.history) (hlog : ∀ e ∈ log, e.IsPlain) : v.InCalls calls := by
  induction log generalizing v with
  | nil => exact h.congr hv
  | cons e log ih =>
    obtain ⟨he, hlog⟩ := List.forall_mem_cons.mp hlog
    have hrest : World.InCalls { v with history := log ++ w.history } calls := ih rfl hlog
    constructor
    · rw [hv]
      cases e with
      | callEntered | callExited | note => exact he.elim
      | cache | leaseBegun | leaseEnded | passDisabled | wrapped => exact hrest.spans
    · rw [hv]
      cases e with
      | callEntered | callExited | note => exact he.elim
      | cache | leaseBegun | leaseEnded | passDisabled | wrapped => exact hrest.told

end World.InCalls

/-! ### Programs -/

/-- How signals behave, by the tracked calls in which they are called. -/
abbrev Surroundings (H : Host) := List String → Foreign H.told

/-- Code that runs within the given tracked calls, innermost first. What it has called within a
further tracked call, directly or not, runs within that one, too: the function, the import that it
hands back, and the signals. -/
inductive Program :
    List String → {α : Type} → (Surroundings H → Act H.told α) → Prop
  | pure {calls : List String} {α : Type} (a : α) : Program calls fun _ => pure a
  | throw {calls : List String} {α : Type} (p : Panic H.told) :
      Program calls fun _ => (throw p : Act H.told α)
  | bind {calls : List String} {α β : Type} {body : Surroundings H → Act H.told α}
      {next : α → Surroundings H → Act H.told β} (hbody : Program calls body)
      (hnext : ∀ a, Program calls (next a)) : Program calls fun F => body F >>= (next · F)
  /-- A panic is caught. -/
  | attempt {calls : List String} {α : Type} {body : Surroundings H → Act H.told α}
      (hbody : Program calls body) : Program calls fun F => (body F).attempt
  | aside {calls : List String} {α : Type} (body : Act H.told α) (hbody : body.Plain) :
      Program calls fun _ => body
  /-- It writes down in which calls it is. -/
  | tell {calls : List String} : Program calls fun _ => Act.record (.note calls)
  | beginRead {calls : List String} (signal : SignalRef H.Signal) :
      Program calls fun F => let _ := F calls; signal.beginRead (H := H.told)
  | endRead {calls : List String} (signal : SignalRef H.Signal) :
      Program calls fun F => let _ := F calls; signal.endRead (H := H.told)
  | begin {calls : List String} (signal : SignalRef H.Signal) :
      Program calls fun F => let _ := F calls; ReadLease.begin signal
  | beginCurrent {calls : List String} :
      Program calls fun F => let _ := F calls; ReadLease.beginCurrent
  | release {calls : List String} (lease : ReadLease H.Signal) :
      Program calls fun F => let _ := F calls; lease.release (H := H.told)
  | trackImport {calls : List String} {ι φ : Type} (imports : Surroundings H → Import H.told ι φ)
      (source : ι) (hstart : Program calls fun F => (imports F).start source)
      (hdiscard : Program calls fun F => (imports F).discard source) :
      Program calls fun F => let _ := F calls; let _ := imports F; trackImport source
  | trackImportWith {calls : List String} {ι φ : Type}
      (imports : Surroundings H → Import H.told ι φ) {make : Surroundings H → Act H.told ι}
      (hmake : Program calls make)
      (hstart : ∀ source, Program calls fun F => (imports F).start source) :
      Program calls fun F => let _ := F calls; let _ := imports F; trackImportWith (make F)
  | trackCompletion {calls : List String} {ι φ α : Type}
      (imports : Surroundings H → Import H.told ι φ) (value : Completion α ι)
      (hstart : ∀ source, Program calls fun F => (imports F).start source)
      (hdiscard : ∀ source, Program calls fun F => (imports F).discard source) :
      Program calls fun F => let _ := F calls; let _ := imports F; trackCompletion? value
  | call {calls : List String} {ι φ α β : Type} {ε : Nat → Type} {n : Nat} (name : String)
      (imports : Surroundings H → Import H.told ι φ)
      (func : Surroundings H → β → Act H.told (Layers ε n (Completion α ι))) (argument : β)
      (hfunc : Program (name :: calls) fun F => func F argument)
      (hstart : ∀ source, Program (name :: calls) fun F => (imports F).start source)
      (hdiscard : ∀ source, Program (name :: calls) fun F => (imports F).discard source) :
      Program calls fun F =>
        let _ := F (name :: calls)
        let _ := imports F
        (TrackedFunction.mk name (func F)).call argument
  | callAsync {calls : List String} {ι φ β : Type} (name : String)
      (imports : Surroundings H → Import H.told ι φ) (func : Surroundings H → β → Act H.told ι)
      (argument : β) (hfunc : Program (name :: calls) fun F => func F argument)
      (hstart : ∀ source, Program (name :: calls) fun F => (imports F).start source)
      (hdiscard : ∀ source, Program (name :: calls) fun F => (imports F).discard source) :
      Program calls fun F =>
        let _ := F (name :: calls)
        let _ := imports F
        (TrackedFunction.mk name (func F)).callAsync argument
  /-- A loader that was instrumented, under the name that it got from that. -/
  | load {calls : List String} {κ ε φ : Type} (name global : String)
      (discards : Surroundings H → Discard H.told φ)
      (run : Surroundings H → κ → String →
        Act H.told (Completion (LoadResult ε) (LoadFuture H.Signal φ)))
      (code : κ) (specifier : String)
      (hrun : Program (name :: calls) fun F => run F code specifier)
      (hdiscard : ∀ load, Program (name :: calls) fun F => (discards F).discard load) :
      Program calls fun F =>
        let _ := F (name :: calls)
        let _ := discards F
        ((Loader.ofCode global code).track name).call (run F) specifier
  | poll {calls : List String} {φ α : Type} (t : TrackedImport H.Signal φ)
      {inner : Surroundings H → Run H.told (Outcome H.told α × φ)}
      (hinner : Program calls fun F => polling (inner F)) :
      Program calls fun F => let _ := F calls; polling (t.poll (H := H.told) (inner F))
  | discard {calls : List String} {φ : Type} (t : TrackedImport H.Signal φ)
      {inner : Surroundings H → Act H.told Unit} (hinner : Program calls inner) :
      Program calls fun F => let _ := F calls; t.discard (H := H.told) (inner F)
  | pollLoad {calls : List String} {φ α : Type} (load : LoadFuture H.Signal φ)
      {pollRaw : Surroundings H → φ → Run H.told (Outcome H.told α × φ)}
      (hraw : ∀ raw, Program calls fun F => polling (pollRaw F raw)) :
      Program calls fun F => let _ := F calls; polling (load.poll (pollRaw F))
  | discardLoad {calls : List String} {φ : Type} (load : LoadFuture H.Signal φ)
      {discardRaw : Surroundings H → φ → Act H.told Unit}
      (hraw : ∀ raw, Program calls fun F => discardRaw F raw) :
      Program calls fun F => let _ := F calls; load.discard (discardRaw F)

namespace Program

variable {calls : List String}

theorem always {body : Surroundings H → Act H.told α} {cleanup : Surroundings H → Act H.told Unit}
    (h : Program calls body) (hcleanup : Program calls cleanup) :
    Program calls fun F => (body F).always (cleanup F) := by
  apply h.attempt.bind
  rintro (p | a)
  · exact hcleanup.attempt.bind fun _ => .throw p
  · exact hcleanup.bind fun _ => .pure a

/-- Code may run inside of a unit. -/
theorem run {body : Surroundings H → Act H.told α} (h : Program calls body)
    (unit : WorkUnit H.Signal) : Program calls fun F => unit.run (H := H.told) (body F) :=
  (aside _ (WorkUnit.plain_enter (H := H.told) unit)).bind fun guard =>
    h.always (.aside _ guard.plain_leave)

end Program

/-! ### What keeps to the calls that are active -/

/-- In a world whose log agrees with these calls it keeps that up, however it comes out. -/
def Nests (calls : List String) (body : Act H.told α) : Prop :=
  ∀ w, w.InCalls calls → (exec body w).2.InCalls calls

namespace Nests

variable {calls : List String} {body : Act H.told α} {cleanup : Act H.told Unit} {name : String}

theorem pure (a : α) : Nests calls (pure a : Act H.told α) := fun _ hw => hw

theorem throw (p : Panic H.told) : Nests calls (throw p : Act H.told α) := fun _ hw => hw

theorem bind {next : α → Act H.told β} (h : Nests calls body) (hnext : ∀ a, Nests calls (next a)) :
    Nests calls (body >>= next) := by
  intro w hw
  have hv := h w hw
  rw [exec_bind]
  rcases hbody : exec body w with ⟨p | a, v⟩
  · rwa [hbody] at hv
  · rw [hbody] at hv
    exact hnext a v hv

theorem map (h : Nests calls body) (f : α → β) : Nests calls (f <$> body) := by
  rw [map_eq_pure_bind]
  exact h.bind fun a => pure (f a)

theorem attempt (h : Nests calls body) : Nests calls body.attempt := h

theorem always (h : Nests calls body) (hcleanup : Nests calls cleanup) :
    Nests calls (body.always cleanup) := by
  apply h.attempt.bind
  rintro (p | a)
  · exact hcleanup.attempt.bind fun _ => throw p
  · exact hcleanup.bind fun _ => pure a

theorem onPanic (h : Nests calls body) (hcleanup : Nests calls cleanup) :
    Nests calls (body.onPanic cleanup) := by
  apply h.attempt.bind
  rintro (p | a)
  · exact hcleanup.attempt.bind fun _ => throw p
  · exact pure a

theorem plain (h : body.Plain) : Nests calls body := by
  intro w hw
  obtain ⟨log, hv, hlog⟩ := h w
  exact hw.plain hv hlog

theorem record {e : Event H.told} (he : e.IsPlain) : Nests calls (record e) := by
  apply plain
  intro w
  exact ⟨[e], rfl, by simpa using he⟩

theorem settle [Foreign H.told] (duties : List (Duty H.Waker)) :
    Nests calls (settle (H := H.told) duties) := by
  apply plain
  intro w
  refine ⟨_, rfl, ?_⟩
  intro e he
  obtain ⟨o, -, rfl⟩ := List.mem_map.mp (List.mem_reverse.mp he)
  trivial

/-- A tracked call is over before the log goes on, also when it panics. -/
theorem inCall (h : Nests (name :: calls) body) : Nests calls (inCall name body) := by
  intro w hw
  rw [exec_inCall]
  exact (h _ hw.called).exited

end Nests

/-- Signals that keep to the calls that are active. -/
def Surroundings.Nest (F : Surroundings H) : Prop :=
  ∀ calls signal,
    Nests calls ((F calls).beginRead signal) ∧ Nests calls ((F calls).endRead signal)

namespace Nests

section Library

variable [Foreign H.told] {calls : List String}
  (hs : ∀ signal : H.Signal, Nests calls (Foreign.beginRead (H := H.told) signal) ∧
    Nests calls (Foreign.endRead (H := H.told) signal))
include hs

theorem beginRead (signal : SignalRef H.Signal) : Nests calls (signal.beginRead (H := H.told)) := by
  cases signal with
  | cache i => exact settle _
  | foreign signal => exact (hs signal).1

theorem endRead (signal : SignalRef H.Signal) : Nests calls (signal.endRead (H := H.told)) := by
  cases signal with
  | cache i => exact settle _
  | foreign signal => exact (hs signal).2

theorem begin (signal : SignalRef H.Signal) :
    Nests calls (ReadLease.begin (H := H.told) signal) := by
  apply (beginRead hs signal).bind
  intro _
  exact (record (e := .leaseBegun signal) trivial).bind fun _ => pure _

theorem beginCurrent : Nests calls (ReadLease.beginCurrent (H := H.told)) := by
  intro w hw
  rw [ReadLease.exec_beginCurrent]
  cases w.signal? with
  | none => exact hw
  | some signal => exact (begin hs signal).map some w hw

theorem release (lease : ReadLease H.Signal) : Nests calls (lease.release (H := H.told)) := by
  apply (endRead hs lease.signal).bind
  intro _
  exact record (e := .leaseEnded lease.signal) trivial

theorem releaseAny (lease : Option (ReadLease H.Signal)) :
    Nests calls (ReadLease.releaseAny (H := H.told) lease) := by
  cases lease with
  | none => exact pure ()
  | some lease => exact release hs lease

theorem trackImport [Import H.told ι φ] {source : ι}
    (hstart : Nests calls (Import.start (H := H.told) source))
    (hdiscard : Nests calls (Import.discard (H := H.told) source)) :
    Nests calls (trackImport (H := H.told) source) := by
  apply ((beginCurrent hs).onPanic hdiscard).bind
  intro lease
  apply (hstart.onPanic (releaseAny hs lease)).bind
  intro inner
  exact pure _

theorem trackImportWith [Import H.told ι φ] {make : Act H.told ι} (hmake : Nests calls make)
    (hstart : ∀ source : ι, Nests calls (Import.start (H := H.told) source)) :
    Nests calls (trackImportWith make) := by
  apply (beginCurrent hs).bind
  intro lease
  apply ((hmake.bind hstart).onPanic (releaseAny hs lease)).bind
  intro inner
  exact pure _

section Results

variable [Import H.told ι φ]
  (hstart : ∀ source : ι, Nests calls (Import.start (H := H.told) source))
  (hdiscard : ∀ source : ι, Nests calls (Import.discard (H := H.told) source))
include hstart hdiscard

theorem trackResult (result : Completion α ι) :
    Nests calls (Trackable.track (H := H.told) result) := by
  cases result with
  | ready value => exact pure _
  | pending source =>
    exact (trackImport hs (hstart source) (hdiscard source)).map Completion.pending

/-- What is tracked is at the bottom of a result. -/
theorem trackLayers {ε : Nat → Type} : (n : Nat) → (result : Layers ε n (Completion α ι)) →
    Nests calls (Trackable.track (H := H.told) result)
  | 0, result => trackResult hs hstart hdiscard (result : Completion α ι)
  | _ + 1, .error _ => pure _
  | n + 1, .ok result => (trackLayers n result).map Except.ok

end Results

theorem poll (t : TrackedImport H.Signal φ) {inner : Run H.told (Outcome H.told α × φ)}
    (h : Nests calls (polling inner)) : Nests calls (polling (t.poll (H := H.told) inner)) := by
  rw [TrackedImport.polling_poll]
  apply h.bind
  rintro ⟨_ | _, rest⟩
  · exact (releaseAny hs t.lease).bind fun _ => pure _
  · exact pure _

theorem discardLoad {discardRaw : φ → Act H.told Unit}
    (hraw : ∀ raw, Nests calls (discardRaw raw)) :
    (load : LoadFuture H.Signal φ) → Nests calls (load.discard discardRaw)
  | .raw load => hraw load
  | .tracked ⟨inner, lease⟩ => (discardLoad hraw inner).always (releaseAny hs lease)

theorem pollLoad {pollRaw : φ → Run H.told (Outcome H.told α × φ)}
    (hraw : ∀ raw, Nests calls (polling (pollRaw raw))) :
    (load : LoadFuture H.Signal φ) → Nests calls (polling (load.poll pollRaw))
  | .raw load => hraw load
  | .tracked ⟨inner, lease⟩ => by
    have htracked := poll hs ⟨inner, lease⟩ (pollLoad hraw inner)
    intro w hw
    exact htracked w hw

end Library

end Nests

/-- Programs nest if the signals do. -/
theorem Program.nests {calls : List String} {body : Surroundings H → Act H.told α}
    (h : Program calls body) {F : Surroundings H} (hF : F.Nest) : Nests calls (body F) := by
  induction h with
  | pure a => exact .pure a
  | throw p => exact .throw p
  | bind _ _ ihbody ihnext => exact ihbody.bind ihnext
  | attempt _ ih => exact ih.attempt
  | aside body hbody => exact .plain hbody
  | tell => exact fun w hw => hw.note
  | @beginRead calls signal =>
    let _ := F calls
    exact Nests.beginRead (H := H) (hF calls) signal
  | @endRead calls signal =>
    let _ := F calls
    exact Nests.endRead (H := H) (hF calls) signal
  | @begin calls signal =>
    let _ := F calls
    exact Nests.begin (H := H) (hF calls) signal
  | @beginCurrent calls =>
    let _ := F calls
    exact Nests.beginCurrent (H := H) (hF calls)
  | @release calls lease =>
    let _ := F calls
    exact Nests.release (H := H) (hF calls) lease
  | @trackImport calls _ _ imports source _ _ ihstart ihdiscard =>
    let _ := F calls
    let _ := imports F
    exact Nests.trackImport (H := H) (hF calls) ihstart ihdiscard
  | @trackImportWith calls _ _ imports make _ _ ihmake ihstart =>
    let _ := F calls
    let _ := imports F
    exact Nests.trackImportWith (H := H) (hF calls) ihmake ihstart
  | @trackCompletion calls _ _ _ imports value _ _ ihstart ihdiscard =>
    let _ := F calls
    let _ := imports F
    cases value with
    | ready value => exact .pure _
    | pending source =>
      have htrack := Nests.trackImport (H := H) (hF calls) (ihstart source) (ihdiscard source)
      exact htrack.map Except.ok
  -- The tracking of what a function returns belongs to its call, as the function itself does.
  | @call calls _ _ _ _ _ n name imports func argument _ _ _ ihfunc ihstart ihdiscard =>
    let _ := F (name :: calls)
    let _ := imports F
    apply Nests.inCall
    apply ihfunc.bind
    intro result
    exact Nests.trackLayers (H := H) (hF (name :: calls)) ihstart ihdiscard n result
  | @callAsync calls _ _ _ name imports func argument _ _ _ ihfunc ihstart ihdiscard =>
    let _ := F (name :: calls)
    let _ := imports F
    apply Nests.inCall
    apply ihfunc.bind
    intro source
    exact Nests.trackImport (H := H) (hF (name :: calls)) (ihstart source) (ihdiscard source)
  | @load calls _ ε φ name _ discards run code specifier _ _ ihrun ihdiscard =>
    let _ := F (name :: calls)
    let _ := discards F
    have htrack (result : Completion (LoadResult ε) (LoadFuture H.Signal φ)) :
        Nests (name :: calls) (Trackable.track (H := H.told) result) :=
      Nests.trackResult (H := H) (hF (name :: calls)) (fun load => .pure load)
        (Nests.discardLoad (H := H) (hF (name :: calls)) ihdiscard) result
    exact (Nests.inCall (ihrun.bind htrack)).bind fun _ => .pure _
  | @poll calls _ _ t _ _ ihinner =>
    let _ := F calls
    exact Nests.poll (H := H) (hF calls) t ihinner
  | @discard calls _ t _ _ ihinner =>
    let _ := F calls
    exact ihinner.always (Nests.releaseAny (H := H) (hF calls) t.lease)
  | @pollLoad calls _ _ load _ _ ihraw =>
    let _ := F calls
    exact Nests.pollLoad (H := H) (hF calls) ihraw load
  | @discardLoad calls _ load _ _ ihraw =>
    let _ := F calls
    exact Nests.discardLoad (H := H) (hF calls) ihraw load

/-- What foreign signals do, as programs that may call the library and signals in turn. -/
structure SignalPrograms (H : Host) where
  beginRead : H.Signal → List String → Surroundings H → Act H.told Unit
  endRead : H.Signal → List String → Surroundings H → Act H.told Unit
  reactions : Reactions H.Waker
  program_beginRead : ∀ signal calls, Program calls (beginRead signal calls)
  program_endRead : ∀ signal calls, Program calls (endRead signal calls)

namespace SignalPrograms

variable (signals : SignalPrograms H)

/-- The signals, calling each other to this depth. Those that would go deeper do nothing. -/
@[reducible]
def foreign : Nat → Surroundings H
  | 0 => fun _ =>
    { beginRead := fun _ => pure (), endRead := fun _ => pure (), reactions := signals.reactions }
  | depth + 1 => fun calls =>
    { beginRead := (signals.beginRead · calls (foreign depth))
      endRead := (signals.endRead · calls (foreign depth))
      reactions := signals.reactions }

theorem nest (depth : Nat) : (signals.foreign depth).Nest := by
  induction depth with
  | zero => exact fun _ _ => ⟨.pure (), .pure ()⟩
  | succ depth ih =>
    intro calls signal
    constructor
    · exact (signals.program_beginRead signal calls).nests ih
    · exact (signals.program_endRead signal calls).nests ih

end SignalPrograms

/-- What a tracked call does happens between its two events. -/
theorem Creation.exec_snd [Foreign H] {τ : Type} {create : Act H τ} {name : String}
    {find : Act H (Option (Plan H φ))} (h : Creation create (some name) find) (w : World H) :
    (exec create w).2 = ((exec (carryOut find) (w.called name)).2).exited name := by
  rw [← fate_snd, h.fate_eq, within, fate_inCall, fate_snd]

/-- Tracked calls nest in the log as they do on the stack. However a program comes out, the log
leaves open the calls in which it runs, and each note in it, by the program or by a signal, gives
the calls that were open at that moment; polls and discards count to the calls in which they happen.
All that a tracked call does lies between its two events: it runs the function, begins the read,
starts the import, and ends the read again if that panics. -/
theorem Program.spans_nested {calls : List String} {body : Surroundings H → Act H.told α}
    (h : Program calls body) (signals : SignalPrograms H) (depth : Nat) {w : World H.told}
    (hw : w.InCalls calls) :
    (exec (body (signals.foreign depth)) w).2.InCalls calls ∧
      ∀ {τ ψ : Type} {create : Act H.told τ} {name : String} [Foreign H.told]
        {find : Act H.told (Option (Plan H.told ψ))}, Creation create (some name) find →
        ∀ v, (exec create v).2 = (exec (carryOut find) (v.called name)).2.exited name :=
  ⟨h.nests (signals.nest depth) w hw, fun hcreate v => hcreate.exec_snd v⟩

/-- Signals that write down in which tracked calls they are called. -/
def tellingSignals : SignalPrograms Host.noting where
  beginRead _ calls _ := record (.note calls)
  endRead _ calls _ := record (.note calls)
  reactions := ⟨fun _ => none, fun _ _ => []⟩
  program_beginRead _ _ := .tell
  program_endRead _ _ := .tell

/-- An import that writes down in which tracked calls it is started. -/
abbrev tellingImport (calls : List String) : Import Host.noting.told Unit Unit where
  start _ := record (.note calls)
  discard := pure

/-- A tracked call that panics. -/
def innerCall (F : Surroundings Host.noting) : Act Host.noting.told (TrackedImport Unit Unit) :=
  let _ := F ["inner", "outer"]
  let _ := tellingImport ["inner", "outer"]
  TrackedFunction.callAsync (ι := Unit) ⟨"inner", fun _ => do
    record (.note ["inner", "outer"])
    throw (.thrown ())⟩ ()

/-- A tracked call that catches the panic of another one. -/
def outerCall (F : Surroundings Host.noting) : Act Host.noting.told (TrackedImport Unit Unit) :=
  let _ := F ["outer"]
  let _ := tellingImport ["outer"]
  TrackedFunction.callAsync (ι := Unit) ⟨"outer", fun _ => do
    let _ ← (innerCall F).attempt
    return ()⟩ ()

/-- Makes a tracked import and drops it when the calls are over. -/
def errand (F : Surroundings Host.noting) : Act Host.noting.told Unit := do
  let t ← outerCall F
  let _ := F []
  t.discard (record (.note []))

theorem program_errand : Program [] errand := by
  have hinner : Program ["outer"] innerCall := by
    apply Program.callAsync "inner" (fun _ => tellingImport _) (fun _ _ => _) ()
    · exact .bind .tell fun _ => .throw _
    · exact fun _ => .tell
    · exact fun _ => .pure _
  have houter : Program [] outerCall := by
    apply Program.callAsync "outer" (fun _ => tellingImport _) (fun F _ => _) ()
    · exact hinner.attempt.bind fun _ => .pure _
    · exact fun _ => .tell
    · exact fun _ => .pure _
  exact houter.bind fun t => Program.discard (H := Host.noting) t .tell

theorem Program.spans_nested_errand :
    let unit : WorkUnit Unit := .prerender (some (.foreign ()))
    let w : World Host.noting.told := { state := () }
    let v := (exec (unit.run (H := Host.noting.told) (errand (tellingSignals.foreign 1))) w).2
    w.InCalls [] ∧ v.InCalls [] ∧
      v.history.reverse = [.callEntered "outer", .callEntered "inner", .note ["inner", "outer"],
        .callExited "inner", .note ["outer"], .leaseBegun (.foreign ()), .note ["outer"],
        .callExited "outer", .note [], .note [], .leaseEnded (.foreign ())] := by
  intro unit w v
  have hw : w.InCalls [] := ⟨rfl, trivial⟩
  have hrun := (program_errand.run unit).spans_nested tellingSignals 1 hw
  exact ⟨hw, hrun.1, rfl⟩

end ReadBarrier
