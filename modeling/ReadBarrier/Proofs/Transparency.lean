import ReadBarrier.Proofs.EntryPoint

/-!
Tracking is transparent.

Code that does not see the calls on signals does not see whether it is tracked. What it answers is
the same, and what it does to the world is the same, but for what those calls do.
-/

namespace ReadBarrier

open Act

variable {H : Host} {α β γ φ ι V : Type}

/-- Whether the library writes this event where it calls a signal, wakes someone or calls a tracked
function. -/
def Event.isTrace : Event H → Bool
  | .cache _ | .leaseBegun _ | .leaseEnded _ | .callEntered _ | .callExited _ => true
  | .passDisabled | .wrapped .. | .note _ => false

/-- What is seen of a world, but for its signals. No call on a signal is seen, nor whom it wakes or
what is logged of it. The signals of foreign code do not panic. -/
structure Veil (H : Host) [Foreign H] (V : Type) where
  see : World H → V
  caches : ∀ w caches, see { w with caches } = see w
  trace : ∀ w event, event.isTrace → see { w with history := event :: w.history } = see w
  begins : ∀ signal w, ∃ v, exec (Foreign.beginRead signal) w = (.ok (), v) ∧ see v = see w
  ends : ∀ signal w, ∃ v, exec (Foreign.endRead signal) w = (.ok (), v) ∧ see v = see w

def Completion.start [Import H ι φ] : Completion α ι → Act H (Completion α φ)
  | .ready value => return .ready value
  | .pending source => .pending <$> Import.start source

namespace Layers

variable {ε : Nat → Type} {ψ : Type}

/-- Starts the pending work at the bottom, if all layers are successes. -/
def start [Import H ι φ] : (n : Nat) → Layers ε n (Completion α ι) →
    Act H (Layers ε n (Completion α φ))
  | 0, result => Completion.start (result : Completion α ι)
  | n + 1, result =>
    match (result : Except (ε n) (Layers ε n (Completion α ι))) with
    | .ok result => Except.ok <$> start n result
    | .error e => return Except.error e

def mapPending (f : φ → ψ) : (n : Nat) → Layers ε n (Completion α φ) →
    Layers ε n (Completion α ψ)
  | 0, result => Completion.mapPending f result
  | n + 1, result => Except.map (mapPending f n) result

end Layers

/-- The load that a tracked one is a wrapper of. -/
def LoadFuture.untracked {σ φ : Type} : LoadFuture σ φ → LoadFuture σ φ
  | .raw load => .raw load
  | .tracked load => load.inner

namespace Veil

variable [Foreign H] {veil : Veil H V}

/-- Nothing is seen of `body`, which always answers. -/
def Hides (veil : Veil H V) (body : Act H α) : Prop :=
  ∀ w, ∃ a v, exec body w = (.ok a, v) ∧ veil.see v = veil.see w

/-- In worlds that look alike `body` comes out as `plain` does, but for what `forget` takes off, and
they look alike afterwards. -/
def Matches (veil : Veil H V) (body : Act H α) (plain : Act H β) (forget : α → β) : Prop :=
  ∀ w v, veil.see w = veil.see v →
    (exec body w).1.map forget = (exec plain v).1 ∧
      veil.see (exec body w).2 = veil.see (exec plain v).2

/-- What `body` does depends on what is seen only. -/
def Blind (veil : Veil H V) (body : Act H α) : Prop := veil.Matches body body id

/-! ### What is hidden -/

theorem see_settle (duties : List (Duty H.Waker)) (w : World H) :
    veil.see (w.settle duties) = veil.see w := by
  have hlog (events : List (Event H)) (h : ∀ e ∈ events, e.isTrace) (u : World H) :
      veil.see { u with history := events ++ u.history } = veil.see u := by
    induction events with
    | nil => rfl
    | cons event events ih =>
      have hevent := veil.trace { u with history := events ++ u.history } event
        (h event (List.mem_cons_self ..))
      exact hevent.trans (ih fun e he => h e (List.mem_cons_of_mem _ he))
  let settled := Cascade.settle Foreign.reactions w.caches duties
  refine (hlog (settled.2.map .cache).reverse (fun e he => ?_)
    { w with caches := settled.1 }).trans (veil.caches w settled.1)
  obtain ⟨occurrence, -, rfl⟩ := List.mem_map.mp (List.mem_reverse.mp he)
  rfl

theorem hides_record {event : Event H} (h : event.isTrace) : veil.Hides (record event) :=
  fun w => ⟨(), _, rfl, veil.trace w event h⟩

theorem hides_beginRead (signal : SignalRef H.Signal) : veil.Hides signal.beginRead := by
  intro w
  cases signal with
  | cache i => exact ⟨(), _, rfl, see_settle _ w⟩
  | foreign signal => exact ⟨(), veil.begins signal w⟩

theorem hides_endRead (signal : SignalRef H.Signal) : veil.Hides signal.endRead := by
  intro w
  cases signal with
  | cache i => exact ⟨(), _, rfl, see_settle _ w⟩
  | foreign signal => exact ⟨(), veil.ends signal w⟩

theorem Hides.bind {body : Act H α} {next : α → Act H β} (h : veil.Hides body)
    (hnext : ∀ a, veil.Hides (next a)) : veil.Hides (body >>= next) := by
  intro w
  obtain ⟨a, v, hbody, hv⟩ := h w
  obtain ⟨b, u, hb, hu⟩ := hnext a v
  exact ⟨b, u, exec_bind_eq_ok.mpr ⟨a, v, hbody, hb⟩, hu.trans hv⟩

theorem hides_pure (a : α) : veil.Hides (pure a) := fun w => ⟨a, w, rfl, rfl⟩

theorem hides_releaseAny (lease : Option (ReadLease H.Signal)) :
    veil.Hides (ReadLease.releaseAny lease) := by
  cases lease with
  | none => exact hides_pure ()
  | some lease => exact (hides_endRead lease.signal).bind fun _ => hides_record rfl

theorem hides_beginCurrent :
    veil.Hides (ReadLease.beginCurrent : Act H (Option (ReadLease H.Signal))) := by
  have hbegin (signal : SignalRef H.Signal) : veil.Hides (ReadLease.begin signal) :=
    (hides_beginRead signal).bind fun _ => (hides_record rfl).bind fun _ => hides_pure _
  intro w
  rw [ReadLease.exec_beginCurrent]
  cases w.signal? with
  | none => exact hides_pure none w
  | some signal =>
    obtain ⟨lease, v, hlease, hv⟩ := hbegin signal w
    exact ⟨some lease, v, exec_map_eq_ok.mpr ⟨lease, hlease, rfl⟩, hv⟩

theorem Hides.onPanic {body : Act H α} (h : veil.Hides body) (cleanup : Act H Unit) :
    veil.Hides (body.onPanic cleanup) := by
  intro w
  obtain ⟨a, v, hbody, hv⟩ := h w
  exact ⟨a, v, exec_onPanic_eq_ok.mpr hbody, hv⟩

/-! ### What matches -/

theorem matches_pure (forget : α → β) (a : α) :
    veil.Matches (pure a) (pure (forget a)) forget := fun _ _ h => ⟨rfl, h⟩

theorem Hides.bind_matches {first : Act H α} {next : α → Act H β} {plain : Act H γ}
    {forget : β → γ} (h : veil.Hides first) (hnext : ∀ a, veil.Matches (next a) plain forget) :
    veil.Matches (first >>= next) plain forget := by
  intro w v hsee
  obtain ⟨a, u, hfirst, hu⟩ := h w
  rw [exec_bind, hfirst]
  exact hnext a u v (hu.trans hsee)

namespace Matches

variable {body : Act H α} {plain : Act H β} {forget : α → β}

theorem bind {δ : Type} {next : α → Act H γ} {next' : β → Act H δ} {forget' : γ → δ}
    (h : veil.Matches body plain forget)
    (hnext : ∀ a, veil.Matches (next a) (next' (forget a)) forget') :
    veil.Matches (body >>= next) (plain >>= next') forget' := by
  intro w v hsee
  obtain ⟨hresult, hworld⟩ := h w v hsee
  rw [exec_bind, exec_bind]
  rcases hbody : exec body w with ⟨p | a, w'⟩
  all_goals rcases hplain : exec plain v with ⟨q | b, v'⟩
  all_goals simp only [hbody, hplain, Except.map, reduceCtorEq] at hresult hworld
  · cases hresult
    exact ⟨rfl, hworld⟩
  · cases hresult
    exact hnext a w' v' hworld

theorem onPanic {cleanup : Act H Unit} (h : veil.Matches body plain forget)
    (hcleanup : veil.Hides cleanup) : veil.Matches (body.onPanic cleanup) plain forget := by
  intro w v hsee
  obtain ⟨hresult, hworld⟩ := h w v hsee
  rw [exec_onPanic]
  rcases hbody : exec body w with ⟨p | a, w'⟩
  · obtain ⟨done, u, hu, hsame⟩ := hcleanup w'
    rw [hbody] at hresult hworld
    simp only [hu]
    exact ⟨hresult, hsame.trans hworld⟩
  · rw [hbody] at hresult hworld
    exact ⟨hresult, hworld⟩

theorem always {cleanup : Act H Unit} (h : veil.Matches body plain forget)
    (hcleanup : veil.Hides cleanup) : veil.Matches (body.always cleanup) plain forget := by
  intro w v hsee
  obtain ⟨hresult, hworld⟩ := h w v hsee
  rw [exec_always]
  rcases hbody : exec body w with ⟨p | a, w'⟩
  all_goals
    obtain ⟨done, u, hu, hsame⟩ := hcleanup w'
    rw [hbody] at hresult hworld
    simp only [hu]
    exact ⟨hresult, hsame.trans hworld⟩

theorem map {δ : Type} {f : α → γ} {f' : β → δ} {forget' : γ → δ}
    (h : veil.Matches body plain forget) (hf : ∀ a, forget' (f a) = f' (forget a)) :
    veil.Matches (f <$> body) (f' <$> plain) forget' := by
  intro w v hsee
  obtain ⟨hresult, hworld⟩ := h w v hsee
  rw [exec_map, exec_map, ← hresult]
  refine ⟨?_, hworld⟩
  rcases exec body w with ⟨p | a, w'⟩
  · rfl
  · exact congrArg Except.ok (hf a)

/-- What is done to an answer does not matter where `forget` takes it off again. -/
theorem wrap {f : α → γ} {forget' : γ → β} (h : veil.Matches body plain forget)
    (hf : ∀ a, forget' (f a) = forget a) : veil.Matches (f <$> body) plain forget' := by
  have hmap : veil.Matches (f <$> body) (id <$> plain) forget' := h.map hf
  rwa [id_map] at hmap

end Matches

/-! ### Tracking -/

section Track

variable [Import H ι φ]

theorem matches_trackImport {source : ι} (h : veil.Blind (Import.start source : Act H φ)) :
    veil.Matches (trackImport source) (Import.start source : Act H φ) TrackedImport.inner := by
  -- The lease may differ from one world to the other, since the current unit need not be seen.
  refine (hides_beginCurrent.onPanic _).bind_matches fun lease => ?_
  rw [bind_pure_comp]
  exact (h.onPanic (hides_releaseAny lease)).wrap fun _ => rfl

theorem matches_trackImportWith {make : Act H ι}
    (h : veil.Blind (make >>= Import.start : Act H φ)) :
    veil.Matches (trackImportWith make) (make >>= Import.start : Act H φ) TrackedImport.inner := by
  refine hides_beginCurrent.bind_matches fun lease => ?_
  rw [bind_pure_comp]
  exact (h.onPanic (hides_releaseAny lease)).wrap fun _ => rfl

theorem matches_completion (result : Completion α ι)
    (h : ∀ source : ι, veil.Blind (Import.start source : Act H φ)) :
    veil.Matches (Trackable.track result) (Completion.start result : Act H (Completion α φ))
      (Completion.mapPending TrackedImport.inner) := by
  cases result with
  | ready value => exact matches_pure _ (Completion.ready value)
  | pending source => exact (matches_trackImport (h source)).map fun _ => rfl

theorem matches_track {ε : Nat → Type} (h : ∀ source : ι, veil.Blind (Import.start source : Act H φ)) :
    (n : Nat) → (result : Layers ε n (Completion α ι)) →
    veil.Matches (Trackable.track result)
      (Layers.start n result : Act H (Layers ε n (Completion α φ)))
      (Layers.mapPending TrackedImport.inner n)
  | 0, result => matches_completion (result : Completion α ι) h
  | n + 1, .ok result => (matches_track h n result).map fun _ => rfl
  | _ + 1, .error e => matches_pure _ (Except.error e)

end Track

theorem matches_inCall {body : Act H α} {plain : Act H β} {forget : α → β} (name : String)
    (h : veil.Matches body plain forget) : veil.Matches (inCall name body) plain forget :=
  (hides_record rfl).bind_matches fun _ => h.always (hides_record rfl)

section Calls

theorem matches_call {ε : Nat → Type} {n : Nat} [Import H ι φ]
    (f : TrackedFunction β (Act H (Layers ε n (Completion α ι)))) (argument : β)
    (hf : veil.Blind (f.func argument))
    (hstart : ∀ source : ι, veil.Blind (Import.start source : Act H φ)) :
    veil.Matches (f.call argument)
      (f.func argument >>= Layers.start n : Act H (Layers ε n (Completion α φ)))
      (Layers.mapPending TrackedImport.inner n) :=
  matches_inCall f.name (hf.bind fun result => matches_track hstart n result)

theorem matches_callAsync [Import H ι φ] (f : TrackedFunction β (Act H ι)) (argument : β)
    (hf : veil.Blind (f.func argument))
    (hstart : ∀ source : ι, veil.Blind (Import.start source : Act H φ)) :
    veil.Matches (f.callAsync argument) (f.func argument >>= Import.start : Act H φ)
      TrackedImport.inner :=
  matches_inCall f.name (hf.bind fun source => matches_trackImport (hstart source))

theorem matches_load {κ ε : Type} [Discard H φ]
    (run : κ → String → Act H (Completion (LoadResult ε) (LoadFuture H.Signal φ)))
    (name : String) (inner : LoaderFunction κ) (specifier : String)
    (hinner : veil.Blind (inner.call run specifier)) :
    veil.Matches ((LoaderFunction.tracked name inner).call run specifier)
      (inner.call run specifier) (Completion.mapPending LoadFuture.untracked) := by
  have hstart (load : LoadFuture H.Signal φ) :
      veil.Blind (Import.start load : Act H (LoadFuture H.Signal φ)) := matches_pure id load
  have hplain : inner.call run specifier >>= Completion.start = inner.call run specifier := by
    refine (bind_congr fun result => ?_).trans (bind_pure _)
    cases result <;> rfl
  have hcall := matches_inCall name (hinner.bind fun result => matches_completion result hstart)
  rw [hplain] at hcall
  rw [LoaderFunction.call, bind_pure_comp]
  refine hcall.wrap fun result => ?_
  cases result <;> rfl

end Calls

/-! ### Polls -/

structure BlindVisit (veil : Veil H V) (visit : Visit H φ α) : Prop where
  meanwhile : ∀ w v, veil.see w = veil.see v →
    veil.see (visit.meanwhile w) = veil.see (visit.meanwhile v)
  poll : ∀ future w v, veil.see w = veil.see v →
    ((visit.poll future).run w).1 = ((visit.poll future).run v).1 ∧
      veil.see ((visit.poll future).run w).2 = veil.see ((visit.poll future).run v).2

open Visit

theorem matches_visit {visit : Visit H φ α} (h : veil.BlindVisit visit)
    (t : TrackedImport H.Signal φ) {w v : World H} (hsee : veil.see w = veil.see v) :
    (visit.tracked t w).1.1 = (visit.alone t.inner v).1.1 ∧
      (visit.tracked t w).1.2.inner = (visit.alone t.inner v).1.2 ∧
      veil.see (visit.tracked t w).2 = veil.see (visit.alone t.inner v).2 := by
  obtain ⟨hresult, hworld⟩ := h.poll t.inner _ _ (h.meanwhile w v hsee)
  change (visit.alone t.inner w).1 = (visit.alone t.inner v).1 at hresult
  change veil.see (visit.alone t.inner w).2 = veil.see (visit.alone t.inner v).2 at hworld
  rw [← hresult, ← hworld]
  rcases hvisit : visit.alone t.inner w with ⟨⟨p | ⟨value⟩ | _, rest⟩, u⟩
  · rw [t.poll_of_unfinished hvisit trivial]
    exact ⟨rfl, rfl, rfl⟩
  · have hrelease : veil.Hides (ReadLease.releaseAny t.lease) := hides_releaseAny t.lease
    obtain ⟨done, x, hended, hx⟩ := hrelease u
    rw [t.poll_of_ready hvisit, hended]
    exact ⟨rfl, rfl, hx⟩
  · rw [t.poll_of_unfinished hvisit trivial]
    exact ⟨rfl, rfl, rfl⟩

theorem matches_visits {visits : List (Visit H φ α)} (h : ∀ visit ∈ visits, veil.BlindVisit visit)
    (t : TrackedImport H.Signal φ) {w v : World H} (hsee : veil.see w = veil.see v) :
    (all tracked visits t w).outcomes = (all alone visits t.inner v).outcomes ∧
      (all tracked visits t w).future.inner = (all alone visits t.inner v).future ∧
      veil.see (all tracked visits t w).world = veil.see (all alone visits t.inner v).world := by
  induction visits generalizing t w v with
  | nil => exact ⟨rfl, rfl, hsee⟩
  | cons visit visits ih =>
    obtain ⟨houtcome, hinner, hworld⟩ := matches_visit (h visit (List.mem_cons_self ..)) t hsee
    obtain ⟨houtcomes, hfuture, hlast⟩ :=
      ih (fun visit hvisit => h visit (List.mem_cons_of_mem _ hvisit)) (visit.tracked t w).1.2 hworld
    simp only [all, ← hinner]
    exact ⟨by rw [houtcome, houtcomes], hfuture, hlast⟩

/-! ### Once -/

/-- Whatever `x` is, `outer x` runs `inner x` once, in the world that `enter` leads to, and depends on
`x` only through what that came to. -/
def RunsOnce {χ : Type} (inner : χ → Act H α) (enter : World H → World H) (outer : χ → Act H β) :
    Prop :=
  ∃ finish : Except (Panic H) α × World H → Except (Panic H) β × World H,
    ∀ x w, exec (outer x) w = finish (exec (inner x) (enter w))

theorem poll_runsOnce (t : TrackedImport H.Signal φ) :
    ∃ finish : (Outcome H α × φ) × World H → (Outcome H α × TrackedImport H.Signal φ) × World H,
      ∀ inner w, (t.poll inner).run w = finish (inner.run w) :=
  ⟨fun polled => (t.poll (fun _ => polled)).run polled.2, fun _ _ => rfl⟩

theorem discard_runsOnce (t : TrackedImport H.Signal φ) : RunsOnce id id t.discard :=
  ⟨fun ran => exec (t.discard (fun _ => ran)) ran.2, fun _ _ => rfl⟩

omit [Foreign H] in
theorem inCall_runsOnce {χ τ ρ : Type} (name : String) (inner : χ → Act H ρ) (next : ρ → Act H τ) :
    RunsOnce inner (World.called · name) fun x => inCall name (inner x >>= next) := by
  let finish (ran : Except (Panic H) ρ × World H) := exec ((fun _ => ran : Act H ρ) >>= next) ran.2
  exact ⟨fun ran => ((finish ran).1, (finish ran).2.exited name), fun x w => exec_inCall ..⟩

omit [Foreign H] in
theorem RunsOnce.map {χ : Type} {inner : χ → Act H α} {enter : World H → World H}
    {outer : χ → Act H β} (f : β → γ) (h : RunsOnce inner enter outer) :
    RunsOnce inner enter fun x => f <$> outer x := by
  obtain ⟨finish, hfinish⟩ := h
  exact ⟨fun ran => ((finish ran).1.map f, (finish ran).2), fun x w => by rw [exec_map, hfinish]⟩

theorem load_runsOnce {κ ε : Type} [Discard H φ] (name specifier : String) (loader : Loader κ) :
    RunsOnce (fun run => loader.call run specifier) (World.called · name)
      fun run : κ → String → Act H (Completion (LoadResult ε) (LoadFuture H.Signal φ)) =>
        (loader.track name).call run specifier := by
  simp only [Loader.track, Loader.call, LoaderFunction.call, bind_pure_comp]
  exact (inCall_runsOnce name _ Trackable.track).map _

/-- What tracks, with what it does so to, and with what is to be taken off its answers. -/
inductive Wraps (veil : Veil H V) : {τ ρ : Type} → (body : Act H τ) → (plain : Act H ρ) →
    (forget : τ → ρ) → Prop where
  | trackImport {ι φ : Type} [Import H ι φ] (source : ι)
      (h : veil.Blind (Import.start source : Act H φ)) :
      Wraps veil (trackImport source) (Import.start source : Act H φ) TrackedImport.inner
  | trackImportWith {ι φ : Type} [Import H ι φ] (make : Act H ι)
      (h : veil.Blind (make >>= Import.start : Act H φ)) :
      Wraps veil (trackImportWith make) (make >>= Import.start : Act H φ) TrackedImport.inner
  | trackCompletion {ι φ α : Type} [Import H ι φ] (source : ι)
      (h : veil.Blind (Import.start source : Act H φ)) :
      Wraps veil (trackCompletion? (.pending source : Completion α ι))
        (.ok <$> Import.start source : Act H (Except Error φ)) (Except.map TrackedImport.inner)
  | call {ι φ α β : Type} {ε : Nat → Type} {n : Nat} [Import H ι φ]
      (f : TrackedFunction β (Act H (Layers ε n (Completion α ι)))) (argument : β)
      (hf : veil.Blind (f.func argument))
      (hstart : ∀ source : ι, veil.Blind (Import.start source : Act H φ)) :
      Wraps veil (f.call argument)
        (f.func argument >>= Layers.start n : Act H (Layers ε n (Completion α φ)))
        (Layers.mapPending TrackedImport.inner n)
  | callAsync {ι φ β : Type} [Import H ι φ] (f : TrackedFunction β (Act H ι)) (argument : β)
      (hf : veil.Blind (f.func argument))
      (hstart : ∀ source : ι, veil.Blind (Import.start source : Act H φ)) :
      Wraps veil (f.callAsync argument) (f.func argument >>= Import.start : Act H φ)
        TrackedImport.inner
  | load {κ ε φ : Type} [Discard H φ]
      (run : κ → String → Act H (Completion (LoadResult ε) (LoadFuture H.Signal φ)))
      (loader : Loader κ) (name specifier : String) (h : veil.Blind (loader.call run specifier)) :
      Wraps veil ((loader.track name).call run specifier) (loader.call run specifier)
        (Completion.mapPending LoadFuture.untracked)

/-- Tracking changes nothing that is seen: not where an import is made or a function or loader is
called, but for the wrapper around a future; not in the polls of that, after it is done or has
panicked either; and not where it is dropped. A poll runs that of the inner future once, and the drop
and the calls likewise. -/
theorem transparent {τ ρ : Type} {body : Act H τ} {plain : Act H ρ} {forget : τ → ρ}
    (wraps : veil.Wraps body plain forget) :
    veil.Matches body plain forget ∧
    (∀ (t : TrackedImport H.Signal φ) (visits : List (Visit H φ α)),
      (∀ visit ∈ visits, veil.BlindVisit visit) → ∀ w v, veil.see w = veil.see v →
      let tracked := all tracked visits t w
      let plain := all alone visits t.inner v
      tracked.outcomes = plain.outcomes ∧ tracked.future.inner = plain.future ∧
        veil.see tracked.world = veil.see plain.world ∧
        ∀ giveUp : Act H Unit, veil.Blind giveUp →
          veil.Matches (tracked.future.discard giveUp) giveUp id) ∧
    (∀ t : TrackedImport H.Signal φ,
      (∃ finish : (Outcome H α × φ) × World H → (Outcome H α × TrackedImport H.Signal φ) × World H,
        ∀ inner w, (t.poll inner).run w = finish (inner.run w)) ∧
      RunsOnce id id t.discard) ∧
    (∀ {ρ τ : Type} [Trackable H ρ τ] (name : String) (argument : β),
      RunsOnce (fun func => func argument) (World.called · name)
        fun func : β → Act H ρ => TrackedFunction.call ⟨name, func⟩ argument) ∧
    (∀ {ι φ : Type} [Import H ι φ] (name : String) (argument : β),
      RunsOnce (fun func => func argument) (World.called · name)
        fun func : β → Act H ι => TrackedFunction.callAsync ⟨name, func⟩ argument) ∧
    (∀ {κ ε ψ : Type} [Discard H ψ] (name specifier : String) (loader : Loader κ),
      RunsOnce (fun run => loader.call run specifier) (World.called · name)
        fun run : κ → String → Act H (Completion (LoadResult ε) (LoadFuture H.Signal ψ)) =>
          (loader.track name).call run specifier) ∧
    ∀ {ψ : Type} (load : TrackedImport H.Signal (LoadFuture H.Signal ψ))
      (pollRaw : ψ → Run H (Outcome H α × ψ)) (discardRaw : ψ → Act H Unit),
      LoadFuture.poll pollRaw (.tracked load) =
        (fun polled => (polled.1, .tracked polled.2)) <$>
          load.poll (LoadFuture.poll pollRaw load.inner) ∧
      LoadFuture.discard discardRaw (.tracked load) =
        load.discard (LoadFuture.discard discardRaw load.inner) := by
  refine ⟨?_, ?_, ?_, ?_, ?_, ?_, fun load pollRaw discardRaw => ⟨rfl, rfl⟩⟩
  · cases wraps with
    | trackImport source h => exact matches_trackImport h
    | trackImportWith make h => exact matches_trackImportWith h
    | trackCompletion source h =>
      exact (matches_trackImport h).map fun _ => rfl
    | call f argument hf hstart => exact matches_call f argument hf hstart
    | callAsync f argument hf hstart => exact matches_callAsync f argument hf hstart
    | load run loader name specifier h => exact matches_load run name loader.func specifier h
  · intro t visits hvisits w v hsee
    obtain ⟨houtcomes, hfuture, hworld⟩ := matches_visits hvisits t hsee
    refine ⟨houtcomes, hfuture, hworld, fun giveUp hgiveUp => ?_⟩
    exact hgiveUp.always (hides_releaseAny _)
  · exact fun t => ⟨poll_runsOnce t, discard_runsOnce t⟩
  · intro ρ τ _ name argument
    exact inCall_runsOnce name _ Trackable.track
  · intro ι φ _ name argument
    exact inCall_runsOnce name _ ReadBarrier.trackImport
  · intro κ ε ψ _ name specifier loader
    exact load_runsOnce name specifier loader

end Veil

/-! ### A veil -/

/-- Whether an event is not of the trace and, if it is a note, is shown. -/
def Event.isShown (shown : H.Note → Bool) : Event H → Bool
  | .note n => shown n
  | event => !event.isTrace

/-- All of a world but the counting signals, the trace, and what the signals of foreign code keep to
themselves of the state and the log. -/
def World.plain (own : H.State → V) (shown : H.Note → Bool) (w : World H) :
    UnitStore H.Signal × Nat × List (Event H) × V :=
  (w.units, w.nextGuard, w.history.filter (·.isShown shown), own w.state)

/-- The veil over the rest. -/
def Veil.plain [Foreign H] (own : H.State → V) (shown : H.Note → Bool)
    (begins : ∀ signal (w : World H), ∃ v, exec (Foreign.beginRead signal) w = (.ok (), v) ∧
      v.plain own shown = w.plain own shown)
    (ends : ∀ signal (w : World H), ∃ v, exec (Foreign.endRead signal) w = (.ok (), v) ∧
      v.plain own shown = w.plain own shown) :
    Veil H (UnitStore H.Signal × Nat × List (Event H) × V) where
  see := World.plain own shown
  caches _ _ := rfl
  trace w event h := by
    have hhidden : ¬ event.isShown shown := by
      cases event <;> simp_all [Event.isTrace, Event.isShown]
    simp only [World.plain, List.filter_cons_of_neg hhidden]
  begins := begins
  ends := ends

def Veil.noting : Veil Host.noting (UnitStore Unit × Nat × List (Event Host.noting) × Unit) :=
  .plain id (fun note : String => note != "begin" && note != "end") (fun _ _ => ⟨_, rfl, rfl⟩)
    (fun _ _ => ⟨_, rfl, rfl⟩)

/-- Writes a note in each poll, and is ready once it was polled as often as it is told. -/
def Visit.counting : Visit Host.noting Nat Unit where
  meanwhile := id
  poll n := do
    modify fun w => { w with history := .note "polled" :: w.history }
    return match n with
      | 0 => (.ok (.ready ()), 0)
      | n + 1 => (.ok .pending, n)

theorem Visit.blind_counting : Veil.noting.BlindVisit counting where
  meanwhile _ _ h := h
  poll n w v h := by
    have hsee (u : World Host.noting) : Veil.noting.see ((counting.poll n).run u).2 =
        (u.units, u.nextGuard, .note "polled" :: (Veil.noting.see u).2.2.1, u.state) := by
      cases n <;> rfl
    refine ⟨?_, ?_⟩
    · cases n <;> rfl
    · rw [hsee, hsee]
      obtain ⟨hunits, hrest⟩ := Prod.mk.inj h
      obtain ⟨hguard, hrest⟩ := Prod.mk.inj hrest
      obtain ⟨-, hstate⟩ := Prod.mk.inj hrest
      rw [h, hunits, hguard]
      exact congrArg (_, _, _, ·) hstate

open Visit in
theorem Veil.transparent_noting :
    let unit : Entry Unit := ⟨0, .prerender (some (.foreign ()))⟩
    let w : World Host.noting := { units := { entries := [unit] }, state := () }
    let made := exec (ReadBarrier.trackImport ()) w
    let tracked := all tracked [counting, counting] ⟨1, some ⟨.foreign ()⟩⟩ made.2
    let plain := all alone [counting, counting] 1 w
    Veil.noting.Blind (Import.start () : Act Host.noting Unit) ∧
    Veil.noting.BlindVisit counting ∧
    made.1 = .ok ⟨(), some ⟨.foreign ()⟩⟩ ∧
    tracked.outcomes = plain.outcomes ∧ plain.outcomes = [.ok .pending, .ok (.ready ())] ∧
    Veil.noting.see tracked.world = Veil.noting.see plain.world ∧
    plain.world.history = [.note "polled", .note "polled"] := by
  intro unit w made tracked plain
  have hstart : Veil.noting.Blind (Import.start () : Act Host.noting Unit) := Veil.matches_pure id ()
  obtain ⟨hmade, hvisits, -⟩ :=
    @Veil.transparent Host.noting Unit Unit Nat _ _ _ _ _ _ _ _ (.trackImport () hstart)
  obtain ⟨houtcomes, -, hworld, -⟩ := hvisits ⟨1, some ⟨.foreign ()⟩⟩ [counting, counting]
    (by simpa using blind_counting) made.2 w (hmade w w rfl).2
  exact ⟨hstart, blind_counting, rfl, houtcomes, rfl, hworld, rfl⟩

end ReadBarrier
