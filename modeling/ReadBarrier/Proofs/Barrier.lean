import Mathlib
import ReadBarrier.Proofs.Keeping

/-!
The barrier: a counting signal is quiescent exactly when the reads that foreign code began itself are
ended and no lease is left.
-/

namespace ReadBarrier.Script

open Act ReadCall

variable {σ ω : Type} {i : Nat}

namespace Keeps

section Foreign

variable {cue : Act (host σ ω) (Part σ ω)} (hcue : Keeps i 0 cue fun _ => 0)

include hcue in
theorem call : Keeps i 0 (Script.call cue) fun _ => 0 := hcue.bind fun _ => .pure () rfl

theorem answerFuture (part : Part σ ω) : Keeps i 0 (Script.answerFuture part) (leasesIn i) := by
  unfold Script.answerFuture
  cases part.future with
  | none => exact .pure _ rfl
  | some key => exact (takeFuture key).bind fun future => .pure _ (by cases future <;> rfl)

include hcue in
theorem pollRaw (future : Unit) : RunKeeps i 0 (Script.pollRaw cue future) fun _ => 0 := by
  intro w k hb
  have hv := hcue w k hb
  rcases hr : exec cue w with ⟨p | part, v⟩
  · have hrun : StateT.run (ExceptT.run cue) w = _ := hr
    rw [hr] at hv
    simp only [Script.pollRaw, StateT.run_bind, hrun]
    exact hv
  · have hrun : StateT.run (ExceptT.run cue) w = _ := hr
    rw [hr] at hv
    simp only [Script.pollRaw, StateT.run_bind, hrun]
    exact hv

include hcue in
theorem pollFuture [Foreign (host σ ω)]
    (hend : ∀ s : σ, Keeps i 0 (Foreign.endRead (H := host σ ω) s) fun _ => 0)
    (scope : Option (WorkUnit σ)) (future : LoadFuture σ Unit) :
    RunKeeps i (leasesIn i future) (Script.pollFuture cue scope future) fun r =>
      leasesIn i r.2 := by
  have hpoll := pollLoad hend (pollRaw hcue) future
  cases scope with
  | none => exact hpoll
  | some unit => exact fun w k hb => pollScoped ⟨unit, future⟩ hpoll w k hb

include hcue in
theorem runLoader (code : Unit) (specifier : String) :
    Keeps i 0 (Script.runLoader cue code specifier) fun r => leasesAny (leasesIn i) r.pending? := by
  refine hcue.bind fun part => ?_
  by_cases hpending : part.isPending
  · simp only [hpending, ↓reduceIte]
    exact (answerFuture part).bind fun future => .pure _ rfl
  · by_cases hlayers : part.layers.isSome
    · simp only [hpending, hlayers, ↓reduceIte]
      exact .pure _ rfl
    · simp only [hpending, hlayers]
      exact .pure _ rfl

include hcue in
theorem effect (reactions : Reactions ω) (op : Op σ ω) :
    Keeps i 0 (Script.effect reactions cue op) fun _ => 0 := by
  let _ := foreign reactions cue
  let _ := imports cue
  let _ := discards cue
  have hcall := call hcue
  have hbegin : ∀ s : σ, Keeps i 0 (Foreign.beginRead (H := host σ ω) s) fun _ => 0 :=
    fun _ => hcall
  have hend : ∀ s : σ, Keeps i 0 (Foreign.endRead (H := host σ ω) s) fun _ => 0 := fun _ => hcall
  have hstart : ∀ source : Unit,
      Keeps i 0 (Import.start (H := host σ ω) source) (leasesIn i) := fun _ => hcue.bind answerFuture
  have hdiscard : ∀ source : Unit,
      Keeps i 0 (Import.discard (H := host σ ω) source) fun _ => 0 := fun _ => hcall
  have hload : ∀ load : Unit,
      Keeps i 0 (Discard.discard (H := host σ ω) load) fun _ => 0 := fun _ => hcall
  have htrack : Keeps i 0 (ReadBarrier.trackImport (H := host σ ω) ()) (leasesOf i) :=
    trackImport hbegin hend (hstart ()) (hdiscard ())
  cases op with
  | call c => exact makeCall c
  | tryEndRead j => exact tryCall j
  | lease signal =>
    exact newKey fun key => (begin hbegin signal).bind fun lease => putLease key lease
  | leaseCurrent =>
    refine (beginCurrent hbegin).bind fun lease => ?_
    cases lease with
    | none => exact .pure () rfl
    | some lease => exact newKey fun key => putLease key lease
  | release key => exact (takeLease key).bind fun lease => releaseAny hend lease
  | enter unit =>
    refine newKey fun key => (quiet (alike_enter unit)).bind fun guard => ?_
    exact quiet fun _ => ⟨rfl, rfl, rfl⟩
  | leave key =>
    refine (quiet fun _ => ⟨rfl, rfl, rfl⟩).bind fun guard => ?_
    cases guard with
    | none => exact .pure () rfl
    | some guard => exact quiet (alike_leave guard)
  | run unit => exact run unit hcall
  | look =>
    have hlook : Keeps i 0 (ReadBarrier.withCurrent fun _ => Script.call cue) fun _ => 0 :=
      withCurrent fun _ => hcall
    exact hlook
  | thread => exact onFreshThread hcall
  | attempt =>
    refine hcue.attempt.bind fun r => ?_
    cases r <;> exact .pure () rfl
  | track => exact newKey fun key => htrack.bind fun t => putFuture key (.tracked t)
  | trackWith =>
    refine newKey fun key => ?_
    exact (trackImportWith hbegin hend (hcall.bind hstart)).bind fun t => putFuture key (.tracked t)
  | trackCompletion value =>
    cases value with
    | ready value => exact .pure () rfl
    | pending source =>
      have hresult : Keeps i 0 (Except.ok (ε := Error) <$> ReadBarrier.trackImport (H := host σ ω) source)
          fun r => leasesAny (leasesOf i) r.toOption := htrack.map fun _ => rfl
      refine hresult.bind fun r => ?_
      cases r with
      | ok t => exact newKey fun key => putFuture key (.tracked t)
      | error e => exact .pure () rfl
  | callFunction name n =>
    have hlayers : Keeps i 0 (do
        let part ← cue
        return answerLayers (answerCompletion part) n part.layers) fun _ => 0 :=
      hcue.bind fun _ => .pure _ rfl
    refine (inCall name (hlayers.bind fun result =>
      trackLayers hbegin hend hstart hdiscard result)).bind fun tracked => ?_
    cases Layers.pending? n tracked with
    | none => exact .pure () rfl
    | some t => exact newKey fun key => putFuture key (.tracked t)
  | callAsync name =>
    refine newKey fun key => (inCall name (hcall.bind fun _ => htrack)).bind fun t => ?_
    exact putFuture key (.tracked t)
  | load loader specifier =>
    refine (loaderCall hbegin hend hload (runLoader hcue) specifier loader.func).bind fun r => ?_
    cases r with
    | ready value => exact .pure () rfl
    | pending future => exact newKey fun key => putFuture key future
  | poll key scope =>
    refine (takeFuture key).bind fun future => ?_
    cases future with
    | none => exact .pure () rfl
    | some future =>
      refine (lift (pollFuture hcue hend scope future)).bind fun r => ?_
      refine (putFuture key r.2).bind fun _ => ?_
      rcases r with ⟨p | answer, rest⟩
      · exact .throw p
      · exact .pure () rfl
  | drop key =>
    refine (takeFuture key).bind fun future => ?_
    cases future with
    | none => exact .pure () rfl
    | some future => exact discardLoad hend hload future
  | cacheReady j => exact newKey fun key => quiet fun _ => ⟨rfl, rfl, rfl⟩
  | pollReady key waker =>
    refine (quiet fun _ => ⟨rfl, rfl, rfl⟩).bind fun ready => ?_
    cases ready with
    | none => exact .pure () rfl
    | some ready =>
      refine (lift (pollReady ready waker)).bind fun r => ?_
      exact quiet fun _ => ⟨rfl, rfl, rfl⟩
  | dropReady key =>
    refine (quiet fun _ => ⟨rfl, rfl, rfl⟩).bind fun ready => ?_
    cases ready with
    | none => exact .pure () rfl
    | some ready => exact discardReady ready

include hcue in
theorem perform (reactions : Reactions ω) (op : Op σ ω) :
    Keeps i 0 (Script.perform reactions cue op) fun _ => 0 :=
  moment (effect hcue reactions op)

end Foreign

theorem nextPart : Keeps i 0 (Script.nextPart (σ := σ) (ω := ω)) fun _ => 0 :=
  restock fun s => by
    cases s.script <;> rfl

/-- Calls of foreign code keep the books, however deep they are nested. -/
theorem cue (reactions : Reactions ω) (depth : Nat) :
    Keeps i 0 (Script.cue (σ := σ) reactions depth) fun _ => 0 := by
  induction depth with
  | zero => exact .pure _ rfl
  | succ depth ih =>
    refine nextPart.bind fun part => (forM fun op _ => perform ih reactions op).bind fun _ => ?_
    by_cases hpanics : part.panics
    · simp only [hpanics, ↓reduceIte]
      exact .throw _
    · simp only [hpanics]
      exact .pure _ rfl

theorem ops (reactions : Reactions ω) (depth : Nat) (ops : List (Op σ ω)) :
    Keeps i 0 (Script.run reactions depth ops) fun _ => 0 :=
  forM fun op _ => (perform (cue reactions depth) reactions op).attempt.bind fun r => by
    cases r <;> exact .pure () rfl

end Keeps

theorem Books.start {signals : Nat} (h : i < signals) (script : List (Part σ ω)) :
    Books i (start signals script) 0 where
  calm o h := by simp [Script.start]
  leases := rfl
  signal := ⟨{}, by simp [Script.start, h], rfl, fun _ => rfl, fun _ => rfl⟩
  sound := trivial

/-- The barrier theorem. Whatever foreign code does with the library, and however its calls are
nested: after each operation, within others or not, each counting signal is balanced. Between runs
the leases that were begun on it and have not ended are those that foreign code holds. -/
theorem run_balanced (reactions : Reactions ω) (signals : Nat) (script : List (Part σ ω))
    (depth : Nat) (ops : List (Op σ ω)) (i : Fin signals) :
    let w := (exec (run reactions depth ops) (start signals script)).2
    Sound i w.history ∧ Balanced i w.caches w.history ∧
      leased i w.history = returned i w.history + (stockOf w).live i := by
  have hb := Keeps.ops reactions depth ops (start signals script) 0 (Books.start i.2 script)
  rw [left_zero] at hb
  obtain ⟨s, hs, htallies⟩ := hb.signal
  have hleases := hb.leases
  exact ⟨hb.sound, htallies.balanced hs (by omega), hleases⟩

/-- Wakers that make no calls. -/
def silent : Reactions Unit where
  watched _ := none
  calls _ _ := []

/-- An import is tracked inside a prerender, then a read is begun and ended. -/
def tracking : World (host Unit Unit) :=
  (exec (run silent 2
    [.run (.prerender (some (.cache 0))), .call (.beginRead 0), .call (.endRead 0)])
    (start 1 [{ ops := [.track] }])).2

theorem run_balanced_tracking :
    Covered 0 (calls tracking.history) ∧
      ∃ s, tracking.caches[0]? = some s ∧ s.pending = 1 ∧ s.total = 2 := by
  obtain ⟨-, ⟨s, hs, htotal, hcovered⟩, -⟩ := run_balanced silent 1 [{ ops := [.track] }] 2
    [.run (.prerender (some (.cache 0))), .call (.beginRead 0), .call (.endRead 0)] 0
  change tracking.caches[0]? = some s at hs
  change s.total = begins 0 (calls tracking.history) + leased 0 tracking.history at htotal
  change Covered 0 (calls tracking.history) →
    s.pending = (begins 0 (calls tracking.history) - ends 0 (calls tracking.history)) +
      (leased 0 tracking.history - returned 0 tracking.history) ∧ _ at hcovered
  have hcalls : calls tracking.history = [.endRead 0, .beginRead 0] := by cbv
  have hleased : leased 0 tracking.history = 1 := by cbv
  have hreturned : returned 0 tracking.history = 0 := by cbv
  have hcov : Covered 0 (calls tracking.history) := by
    rw [hcalls]
    simp [Covered, begins, ends]
  have hpending := (hcovered hcov).1
  rw [hcalls, hleased] at htotal
  rw [hcalls, hleased, hreturned] at hpending
  exact ⟨hcov, s, hs, hpending, htotal⟩

end ReadBarrier.Script
