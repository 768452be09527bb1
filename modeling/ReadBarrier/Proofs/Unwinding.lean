import ReadBarrier.Proofs.EntryPoint

/-!
What is left behind when a tracked import cannot be made.

Foreign code may panic at every step: the wrapped function, the signal, the import as it starts. The
panic goes on to the caller, and on its way everything that was begun is undone, in the order that
suits the step. A read that was begun ends, one that was not does not, and an import that has not
started is given up.
-/

namespace ReadBarrier

open Act

variable {H : Host} {α β φ ι : Type}

namespace Act

/-- The panic in which code ends, if it does, and the world afterwards. -/
def fate (body : Act H α) (w : World H) : Option (Panic H) × World H :=
  match exec body w with
  | (.ok _, v) => (none, v)
  | (.error p, v) => (some p, v)

theorem fate_eq_some_iff {body : Act H α} {w v : World H} {p : Panic H} :
    fate body w = (some p, v) ↔ exec body w = (.error p, v) := by
  unfold fate
  rcases exec body w with ⟨_ | a, u⟩ <;> simp

theorem fate_snd (body : Act H α) (w : World H) : (fate body w).2 = (exec body w).2 := by
  unfold fate
  rcases exec body w with ⟨_ | a, u⟩ <;> rfl

theorem fate_map (f : α → β) (body : Act H α) (w : World H) :
    fate (f <$> body) w = fate body w := by
  unfold fate
  rw [exec_map]
  rcases exec body w with ⟨_ | a, u⟩ <;> rfl

theorem fate_bind (body : Act H α) (f : α → Act H β) (w : World H) :
    fate (body >>= f) w =
      match exec body w with
      | (.ok a, v) => fate (f a) v
      | (.error p, v) => (some p, v) := by
  unfold fate
  rw [exec_bind]
  rcases exec body w with ⟨_ | a, u⟩ <;> rfl

theorem fate_inCall (name : String) (body : Act H α) (w : World H) :
    fate (inCall name body) w =
      ((fate body (w.called name)).1, (fate body (w.called name)).2.exited name) := by
  unfold fate
  rw [exec_inCall]
  rcases exec body (w.called name) with ⟨_ | a, u⟩ <;> rfl

end Act

/-! ### The plan -/

/-- What is to be done with pending work that was found: how it is started, under its read, and how
it is given up if that cannot begin. Whoever starts it has taken it over. -/
structure Plan (H : Host) (φ : Type) where
  start : Act H φ
  giveUp : Act H Unit

namespace Plan

def ofImport [Import H ι φ] (source : ι) : Plan H φ where
  start := Import.start source
  giveUp := Import.discard source

instance : Import H (Plan H φ) φ where
  start := Plan.start
  discard := Plan.giveUp

variable [Foreign H]

/-- How a plan fails in a world, and the world afterwards. -/
inductive Fails (plan : Plan H φ) (p : Panic H) (v : World H) : World H → Prop where
  /-- The signal panicked. The import is given up; it has not started and no read ends. -/
  | beginRead {signal : SignalRef H.Signal} {x : World H} (hsignal : v.signal? = some signal)
      (hbegin : exec signal.beginRead v = (.error p, x)) :
      Fails plan p v (exec plan.giveUp x).2
  /-- There was no signal, and the start panicked. -/
  | start {u : World H} (hsignal : v.signal? = none) (hstart : exec plan.start v = (.error p, u)) :
      Fails plan p v u
  /-- The start panicked after a read had begun. The read ends, on the same signal. -/
  | leased {signal : SignalRef H.Signal} {x y : World H} (hsignal : v.signal? = some signal)
      (hbegin : exec signal.beginRead v = (.ok (), x))
      (hstart : exec plan.start { x with history := .leaseBegun signal :: x.history } =
        (.error p, y)) :
      Fails plan p v ((ReadLease.mk signal).ended y).2

theorem fate_trackImport_eq_some_iff {plan : Plan H φ} {p : Panic H} {v u : World H} :
    fate (trackImport plan) v = (some p, u) ↔ plan.Fails p v u := by
  rw [fate_eq_some_iff, exec_trackImport]
  constructor
  · intro h
    cases hsignal : v.signal? with
    | none =>
      rw [hsignal, ← fate_eq_some_iff, fate_map, fate_eq_some_iff] at h
      exact .start hsignal h
    | some signal =>
      simp only [hsignal, ReadLease.exec_begin, ReadLease.begun] at h
      rcases hbegin : exec signal.beginRead v with ⟨q | ⟨⟩, x⟩
      · simp only [hbegin, Prod.mk.injEq, Except.error.injEq] at h
        obtain ⟨rfl, rfl⟩ := h
        exact .beginRead hsignal hbegin
      · simp only [hbegin] at h
        rw [← fate_eq_some_iff, fate_map, fate_eq_some_iff, exec_onPanic] at h
        rcases hstart : exec plan.start { x with history := .leaseBegun signal :: x.history } with
          ⟨q | inner, y⟩
        · simp only [Import.start, hstart, ReadLease.exec_release, Prod.mk.injEq,
            Except.error.injEq] at h
          obtain ⟨rfl, rfl⟩ := h
          exact .leased hsignal hbegin hstart
        · simp [Import.start, hstart] at h
  · intro h
    cases h with
    | beginRead hsignal hbegin => simp [hsignal, ReadLease.exec_begin, ReadLease.begun, hbegin, Import.discard]
    | start hsignal hstart => simp [hsignal, Import.start, hstart, Except.map]
    | leased hsignal hbegin hstart =>
      simp [hsignal, ReadLease.exec_begin, ReadLease.begun, ReadLease.exec_release, hbegin,
        exec_onPanic, Import.start, hstart, Except.map]

end Plan

/-! ### What is left as it was -/

/-- The names of the calls that were entered and not left yet, innermost first. The latest event
comes first. -/
def openCalls : List (Event H) → List String
  | [] => []
  | .callEntered name :: history => name :: openCalls history
  | .callExited name :: history => (openCalls history).erase name
  | .cache _ :: history | .leaseBegun _ :: history | .leaseEnded _ :: history
  | .passDisabled :: history | .wrapped .. :: history | .note _ :: history => openCalls history

theorem openCalls_cache (happened : List (Occurrence H.Waker)) (history : List (Event H)) :
    openCalls (happened.map .cache ++ history) = openCalls history := by
  induction happened with
  | nil => rfl
  | cons _ _ ih => exact ih

/-- Where a thread stands: its units, and the calls that it is in. -/
def World.standing (w : World H) : UnitStore H.Signal × List String :=
  (w.units, openCalls w.history)

/-- However it comes out, it leaves the units that it enters and the calls that it begins. -/
def Tidy (body : Act H α) : Prop := ∀ w, (exec body w).2.standing = w.standing

namespace Tidy

variable {body : Act H α} {cleanup : Act H Unit}

theorem pure (a : α) : Tidy (pure a : Act H α) := fun _ => rfl

theorem map (h : Tidy body) (f : α → β) : Tidy (f <$> body) := by
  intro w
  rw [exec_map]
  exact h w

theorem bind {f : α → Act H β} (h : Tidy body)
    (hf : ∀ w a v, exec body w = (.ok a, v) → Tidy (f a)) : Tidy (body >>= f) := by
  intro w
  have hbody := h w
  rw [exec_bind]
  rcases hb : exec body w with ⟨p | a, v⟩
  · rwa [hb] at hbody
  · rw [hb] at hbody
    exact (hf w a v hb v).trans hbody

theorem onPanic (h : Tidy body) (hc : Tidy cleanup) : Tidy (body.onPanic cleanup) := by
  intro w
  have hbody := h w
  rw [exec_onPanic]
  rcases hb : exec body w with ⟨p | a, v⟩
  · rw [hb] at hbody
    exact (hc v).trans hbody
  · rwa [hb] at hbody

theorem always (h : Tidy body) (hc : Tidy cleanup) : Tidy (body.always cleanup) := by
  intro w
  have hbody := h w
  rw [exec_always]
  rcases hb : exec body w with ⟨p | a, v⟩
  · rw [hb] at hbody
    exact (hc v).trans hbody
  · rw [hb] at hbody
    exact (hc v).trans hbody

/-- A call of a tracked function ends with the code in it. -/
theorem inCall (h : Tidy body) (name : String) : Tidy (inCall name body) := by
  intro w
  have hbody := h (w.called name)
  rw [exec_inCall]
  have hunits : (exec body (w.called name)).2.units = w.units := congrArg Prod.fst hbody
  have hcalls : openCalls (exec body (w.called name)).2.history = name :: openCalls w.history :=
    congrArg Prod.snd hbody
  have hexited : openCalls ((exec body (w.called name)).2.exited name).history =
      openCalls w.history := by
    simp [World.exited, openCalls, hcalls]
  exact Prod.ext hunits hexited

theorem settle [Foreign H] (duties : List (Duty H.Waker)) : Tidy (settle duties : Act H Unit) := by
  intro w
  refine Prod.ext rfl ?_
  rw [exec_settle]
  simp only [World.standing, World.settle, ← List.map_reverse]
  exact openCalls_cache _ w.history

end Tidy

/-- Foreign signals that are tidy. -/
def TidySignals (H : Host) [Foreign H] : Prop :=
  ∀ signal : H.Signal, Tidy (Foreign.beginRead signal) ∧ Tidy (Foreign.endRead signal)

section Tidy

variable [Foreign H]

theorem TidySignals.beginRead (hs : TidySignals H) (signal : SignalRef H.Signal) :
    Tidy signal.beginRead := by
  cases signal with
  | cache i => exact .settle _
  | foreign s => exact (hs s).1

theorem TidySignals.endRead (hs : TidySignals H) (signal : SignalRef H.Signal) :
    Tidy signal.endRead := by
  cases signal with
  | cache i => exact .settle _
  | foreign s => exact (hs s).2

theorem TidySignals.releaseAny (hs : TidySignals H) (lease : Option (ReadLease H.Signal)) :
    Tidy (ReadLease.releaseAny lease) := by
  cases lease with
  | none => exact .pure ()
  | some lease => exact (hs.endRead lease.signal).bind fun _ _ _ _ _ => rfl

theorem TidySignals.beginCurrent (hs : TidySignals H) :
    Tidy (ReadLease.beginCurrent : Act H (Option (ReadLease H.Signal))) := by
  intro w
  rw [ReadLease.exec_beginCurrent]
  cases w.signal? with
  | none => rfl
  | some signal =>
    have hbegin : Tidy (ReadLease.begin signal) :=
      (hs.beginRead signal).bind fun _ _ _ _ _ => rfl
    exact hbegin.map some w

theorem Plan.tidy_trackImport (hs : TidySignals H) {plan : Plan H φ} (hstart : Tidy plan.start)
    (hgiveUp : Tidy plan.giveUp) :
    Tidy (trackImport plan : Act H (TrackedImport H.Signal φ)) := by
  apply (hs.beginCurrent.onPanic hgiveUp).bind
  intro _ lease _ _
  apply (hstart.onPanic (hs.releaseAny lease)).bind
  intro _ inner _ _
  exact .pure _

end Tidy

/-! ### The entry points -/

section Creation

variable [Foreign H]

/-- Finds pending work, and begins it if there is some. -/
def carryOut (body : Act H (Option (Plan H φ))) : Act H Unit := do
  match ← body with
  | none => return ()
  | some plan => (fun _ => ()) <$> trackImport plan

/-- Runs within the call of this name, if one is given. -/
def within (call : Option String) (body : Act H Unit) : Act H Unit :=
  match call with
  | none => body
  | some name => inCall name body

/-- The ways in which a tracked import is made, `create`. Each is given with the call within which
that happens, if there is one, and with how the pending work is found, `body`. -/
inductive Creation : {τ φ : Type} → (create : Act H τ) → (call : Option String) →
    (body : Act H (Option (Plan H φ))) → Prop where
  | trackImport {ι φ : Type} [Import H ι φ] (source : ι) :
      Creation (ReadBarrier.trackImport source) none (pure (some (.ofImport source)))
  | trackImportWith {ι φ : Type} [Import H ι φ] (make : Act H ι) :
      Creation (ReadBarrier.trackImportWith make) none
        (pure (some ⟨make >>= Import.start, pure ()⟩))
  | trackCompletion {ι φ α : Type} [Import H ι φ] (value : Completion α ι) :
      Creation (trackCompletion? value) none (pure (value.pending?.map .ofImport))
  | call {ι φ α β : Type} {ε : Nat → Type} [Import H ι φ] {n : Nat}
      (f : TrackedFunction β (Act H (Layers ε n (Completion α ι)))) (argument : β) :
      Creation (f.call argument) (some f.name)
        ((fun result => (Layers.pending? n result).map .ofImport) <$> f.func argument)
  | callAsync {ι φ β : Type} [Import H ι φ] (f : TrackedFunction β (Act H ι)) (argument : β) :
      Creation (f.callAsync argument) (some f.name)
        ((fun source => some (.ofImport source)) <$> f.func argument)
  | load {κ ε φ : Type} [Discard H φ]
      (run : κ → String → Act H (Completion (LoadResult ε) (LoadFuture H.Signal φ)))
      (loader : Loader κ) {name : String} {inner : LoaderFunction κ}
      (h : loader.func = .tracked name inner) (specifier : String) :
      Creation (loader.call run specifier) (some name)
        ((·.pending?.map .ofImport) <$> inner.call run specifier)

/-- How making a tracked import fails. -/
inductive Failure (body : Act H (Option (Plan H φ))) (p : Panic H) (w : World H) :
    World H → Prop where
  /-- The code that looks for pending work panicked. Nothing was begun. -/
  | body {u : World H} (hbody : exec body w = (.error p, u)) : Failure body p w u
  /-- Pending work was found, and its plan failed. -/
  | plan {plan : Plan H φ} {v u : World H} (hbody : exec body w = (.ok (some plan), v))
      (hfails : plan.Fails p v u) : Failure body p w u

theorem fate_carryOut_eq_some_iff {body : Act H (Option (Plan H φ))} {p : Panic H}
    {w u : World H} : fate (carryOut body) w = (some p, u) ↔ Failure body p w u := by
  rw [carryOut, fate_bind]
  constructor
  · intro h
    rcases hbody : exec body w with ⟨q | _ | plan, v⟩
    · simp only [hbody, Prod.mk.injEq, Option.some.injEq] at h
      obtain ⟨rfl, rfl⟩ := h
      exact .body hbody
    · simp [hbody, fate] at h
    · simp only [hbody, fate_map] at h
      exact .plan hbody (Plan.fate_trackImport_eq_some_iff.mp h)
  · intro h
    cases h with
    | body hbody => simp [hbody]
    | plan hbody hfails =>
      simp only [hbody, fate_map]
      exact Plan.fate_trackImport_eq_some_iff.mpr hfails

theorem fate_trackImportWith [Import H ι φ] (make : Act H ι) (w : World H) :
    fate (trackImportWith make) w =
      fate (trackImport (⟨make >>= Import.start, pure ()⟩ : Plan H φ)) w := by
  rw [trackImportWith, trackImport, fate_bind, fate_bind, exec_onPanic]
  rcases exec (ReadLease.beginCurrent : Act H (Option (ReadLease H.Signal))) w with ⟨_ | _, v⟩
  · rfl
  · rfl

theorem fate_carryOut_pure (plan : Plan H φ) (w : World H) :
    fate (carryOut (pure (some plan))) w = fate (trackImport plan) w := by
  rw [carryOut, fate_bind, exec_pure]
  exact fate_map _ _ _

theorem fate_trackCompletion [Import H ι φ] (value : Completion α ι) (w : World H) :
    fate (Trackable.track value : Act H (Completion α (TrackedImport H.Signal φ))) w =
      fate (carryOut (pure (value.pending?.map .ofImport))) w := by
  cases value with
  | ready value => rfl
  | pending source =>
    refine Eq.trans ?_ (fate_carryOut_pure (.ofImport source) w).symm
    exact fate_map Completion.pending (trackImport source) w

/-- What is tracked of a result is the import at the bottom of it. -/
theorem fate_trackLayers [Import H ι φ] {ε : Nat → Type} :
    (n : Nat) → (result : Layers ε n (Completion α ι)) → (w : World H) →
    fate (Trackable.track result : Act H (Layers ε n (Completion α (TrackedImport H.Signal φ)))) w =
      fate (carryOut (pure ((Layers.pending? n result).map .ofImport))) w
  | 0, result, w => fate_trackCompletion (result : Completion α ι) w
  | _ + 1, .error _, _ => rfl
  | n + 1, .ok result, w =>
    (fate_map Except.ok (Trackable.track result) w).trans (fate_trackLayers n result w)

/-- A body whose result is tracked is carried out. -/
theorem fate_bind_track {ρ τ : Type} (body : Act H ρ) (found : ρ → Option (Plan H φ))
    (track : ρ → Act H τ)
    (htrack : ∀ result w, fate (track result) w = fate (carryOut (pure (found result))) w)
    (w : World H) : fate (body >>= track) w = fate (carryOut (found <$> body)) w := by
  rw [fate_bind, carryOut, fate_bind, exec_map]
  rcases exec body w with ⟨p | result, v⟩
  · rfl
  · exact htrack result v

/-- All ways to make a tracked import come out alike. -/
theorem Creation.fate_eq {τ : Type} {create : Act H τ} {call : Option String}
    {body : Act H (Option (Plan H φ))} (h : Creation create call body) (w : World H) :
    fate create w = fate (within call (carryOut body)) w := by
  cases h with
  | trackImport source => exact (fate_carryOut_pure (.ofImport source) w).symm
  | trackImportWith make =>
    exact (fate_trackImportWith make w).trans (fate_carryOut_pure _ w).symm
  | trackCompletion value =>
    cases value with
    | ready value => rfl
    | pending source =>
      refine Eq.trans ?_ (fate_carryOut_pure (.ofImport source) w).symm
      exact fate_map Except.ok (ReadBarrier.trackImport source) w
  | call f argument =>
    have hbody := fate_bind_track (f.func argument) _ Trackable.track (fate_trackLayers _)
      (w.called f.name)
    simp only [TrackedFunction.call, within, fate_inCall, hbody]
  | callAsync f argument =>
    have hbody := fate_bind_track (f.func argument) _ ReadBarrier.trackImport
      (fun source v => (fate_carryOut_pure (.ofImport source) v).symm) (w.called f.name)
    simp only [TrackedFunction.callAsync, within, fate_inCall, hbody]
  | @load κ ε φ _ run loader name inner hl specifier =>
    -- A load that is found tracked is wrapped once more, which does nothing to the world.
    have hbody := fate_bind_track (inner.call run specifier) _ Trackable.track
      fate_trackCompletion (w.called name)
    rw [Loader.call, hl, LoaderFunction.call]
    simp only [bind_pure_comp, fate_map, TrackedFunction.call, within, fate_inCall, hbody]

/-- The foreign code which finds pending work, and that which the work consists of, is tidy. -/
structure Courteous (body : Act H (Option (Plan H φ))) : Prop where
  found : Tidy body
  plans : ∀ w plan v, exec body w = (.ok (some plan), v) → Tidy plan.start ∧ Tidy plan.giveUp

theorem Courteous.tidy_within {body : Act H (Option (Plan H φ))} (h : Courteous body)
    (hs : TidySignals H) (call : Option String) : Tidy (within call (carryOut body)) := by
  have hcarry : Tidy (carryOut body) := by
    apply h.found.bind
    rintro w (_ | plan) v hbody
    · exact .pure ()
    · obtain ⟨hstart, hgiveUp⟩ := h.plans w plan v hbody
      exact (Plan.tidy_trackImport hs hstart hgiveUp).map _
  cases call with
  | none => exact hcarry
  | some name => exact hcarry.inCall name

theorem Creation.tidy {τ : Type} {create : Act H τ} {call : Option String}
    {body : Act H (Option (Plan H φ))} (h : Creation create call body) (hs : TidySignals H)
    (hbody : Courteous body) : Tidy create := by
  intro w
  rw [← fate_snd, h.fate_eq, fate_snd]
  exact hbody.tidy_within hs call w

theorem LoadFuture.tidy_discard (hs : TidySignals H) {discardRaw : φ → Act H Unit}
    (hraw : ∀ load, Tidy (discardRaw load)) :
    (load : LoadFuture H.Signal φ) → Tidy (load.discard discardRaw)
  | .raw load => hraw load
  | .tracked ⟨inner, lease⟩ => (tidy_discard hs hraw inner).always (hs.releaseAny lease)

/-- Loaders are tidy if their raw code is, however often they were instrumented. -/
theorem LoaderFunction.courteous_call {κ ε : Type} [Discard H φ] (hs : TidySignals H)
    {run : κ → String → Act H (Completion (LoadResult ε) (LoadFuture H.Signal φ))}
    (hrun : ∀ code specifier, Tidy (run code specifier))
    (hraw : ∀ load : φ, Tidy (Discard.discard load : Act H Unit)) (f : LoaderFunction κ)
    (specifier : String) :
    Courteous (((·.pending?.map .ofImport) <$> f.call run specifier :
      Act H (Option (Plan H (LoadFuture H.Signal φ))))) := by
  have hplans (f : LoaderFunction κ) (w : World H) (plan : Plan H (LoadFuture H.Signal φ))
      (v : World H)
      (h : exec ((·.pending?.map .ofImport) <$> f.call run specifier) w = (.ok (some plan), v)) :
      Tidy plan.start ∧ Tidy plan.giveUp := by
    obtain ⟨result, -, hfound⟩ := exec_map_eq_ok.mp h
    obtain ⟨load, -, rfl⟩ := Option.map_eq_some_iff.mp hfound
    exact ⟨.pure load, LoadFuture.tidy_discard hs hraw load⟩
  induction f with
  | raw code => exact ⟨(hrun code specifier).map _, hplans _⟩
  | tracked name inner ih =>
    -- The inner loader is the body in which the outer one finds its pending load.
    have hcreation := Creation.load run ⟨name, .tracked name inner, true⟩ rfl specifier
    exact ⟨(hcreation.tidy hs ih).map _, hplans _⟩

/-- The world in which a call has begun, if there is one. -/
def World.calledIn (w : World H) (call : Option String) : World H := call.elim w w.called

/-- The world in which that call has ended. -/
def World.exitedFrom (w : World H) (call : Option String) : World H := call.elim w w.exited

/-- A tracked import that cannot be made leaves nothing behind. The panic of the foreign code is
that of the whole, and the world is as the failure left it, with the call ended. If the foreign code
is tidy, so is the whole, whichever way it goes; and loaders are tidy if their raw code is. -/
theorem Creation.leaves_nothing {τ : Type} {create : Act H τ} {call : Option String}
    {body : Act H (Option (Plan H φ))} (h : Creation create call body) :
    (∀ p w v, exec create w = (.error p, v) ↔
      ∃ u, Failure body p (w.calledIn call) u ∧ v = u.exitedFrom call) ∧
    (TidySignals H → Courteous body → Tidy create) ∧
    ∀ {κ ε ψ : Type} [Discard H ψ]
      (run : κ → String → Act H (Completion (LoadResult ε) (LoadFuture H.Signal ψ))),
      TidySignals H → (∀ code specifier, Tidy (run code specifier)) →
      (∀ load : ψ, Tidy (Discard.discard load : Act H Unit)) →
      ∀ (f : LoaderFunction κ) (specifier : String),
        Courteous ((·.pending?.map .ofImport) <$> f.call run specifier :
          Act H (Option (Plan H (LoadFuture H.Signal ψ)))) := by
  refine ⟨?_, h.tidy, ?_⟩
  · intro p w v
    rw [← fate_eq_some_iff, h.fate_eq]
    cases call with
    | none =>
      rw [within, fate_carryOut_eq_some_iff]
      constructor
      · intro hfails
        exact ⟨v, hfails, rfl⟩
      · rintro ⟨u, hfails, rfl⟩
        exact hfails
    | some name =>
      rw [within, fate_inCall, Prod.mk.injEq]
      constructor
      · rintro ⟨hp, rfl⟩
        exact ⟨_, fate_carryOut_eq_some_iff.mp (Prod.ext hp rfl), rfl⟩
      · rintro ⟨u, hfails, rfl⟩
        have hfate := fate_carryOut_eq_some_iff.mpr hfails
        exact ⟨congrArg Prod.fst hfate, congrArg (World.exited · name) (congrArg Prod.snd hfate)⟩
  · intro κ ε ψ _ run hs hrun hraw f specifier
    exact f.courteous_call hs hrun hraw specifier

end Creation

/-- An import that panics when it is started. -/
structure Reluctant where

instance : Import Host.noting Reluctant Unit where
  start _ := do
    Act.record (.note "start")
    throw (.thrown ())
  discard _ := Act.record (.note "give up")

instance : Discard Host.noting Unit where
  discard := pure

/-- A function whose import panics when it is started. -/
def reluctantly : TrackedFunction Unit (Act Host.noting Reluctant) := ⟨"load", fun _ => pure ⟨⟩⟩

/-- Raw loader code whose loads never finish at once. -/
def loading (_ : Unit) (_ : String) :
    Act Host.noting (Completion (LoadResult Unit) (LoadFuture Unit Unit)) :=
  pure (.pending (.raw ()))

theorem Creation.leaves_nothing_reluctantly :
    let w : World Host.noting :=
      { units := { entries := [⟨0, .prerender (some (.foreign ()))⟩] }, state := () }
    let v : World Host.noting :=
      { w with history := [.callExited "load", .leaseEnded (.foreign ()), .note "end",
        .note "start", .leaseBegun (.foreign ()), .note "begin", .callEntered "load"] }
    let body : Act Host.noting (Option (Plan Host.noting Unit)) :=
      (fun source => some (.ofImport source)) <$> reluctantly.func ()
    Creation (reluctantly.callAsync ()) (some "load") body ∧
      exec (reluctantly.callAsync ()) w = (.error (.thrown ()), v) ∧
      (∃ u, Failure body (.thrown ()) (w.called "load") u ∧ v = u.exited "load") ∧
      TidySignals Host.noting ∧ Courteous body ∧ Tidy (reluctantly.callAsync ()) ∧
      ∀ (f : LoaderFunction Unit) (specifier : String),
        Courteous ((·.pending?.map .ofImport) <$> f.call loading specifier :
          Act Host.noting (Option (Plan Host.noting (LoadFuture Unit Unit)))) := by
  intro w v body
  have hcreation : Creation (reluctantly.callAsync ()) (some "load") body := .callAsync _ ()
  have hexec : exec (reluctantly.callAsync ()) w = (.error (.thrown ()), v) := rfl
  have hs : TidySignals Host.noting := fun _ => ⟨fun _ => rfl, fun _ => rfl⟩
  have hbody : Courteous body := by
    refine ⟨fun _ => rfl, ?_⟩
    rintro w plan v ⟨⟩
    exact ⟨fun _ => rfl, fun _ => rfl⟩
  obtain ⟨hfails, htidy, hloaders⟩ := hcreation.leaves_nothing
  refine ⟨hcreation, hexec, (hfails _ w v).mp hexec, hs, hbody, htidy hs hbody, ?_⟩
  exact hloaders loading hs (fun _ _ _ => rfl) fun _ _ => rfl

end ReadBarrier
