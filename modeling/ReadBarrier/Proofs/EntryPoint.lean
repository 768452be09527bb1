import ReadBarrier.Loader
import ReadBarrier.Proofs.Lifecycle

/-!
The entry points: all ways in which a tracked import is made begin its read in the same place.
-/

namespace ReadBarrier

open Act

variable {H : Host} {α φ ι : Type}

/-- Results under `n` layers of success or failure. -/
def Layers (ε : Nat → Type) : Nat → Type → Type
  | 0, ρ => ρ
  | n + 1, ρ => Except (ε n) (Layers ε n ρ)

namespace Layers

variable {ε : Nat → Type}

/-- The pending work at the bottom, if all layers are successes. -/
def pending? : (n : Nat) → Layers ε n (Completion α ι) → Option ι
  | 0, result => Completion.pending? result
  | n + 1, result =>
    match (result : Except (ε n) (Layers ε n (Completion α ι))) with
    | .ok result => pending? n result
    | .error _ => none

instance instTrackable [Foreign H] [Import H ι φ] : (n : Nat) →
    Trackable H (Layers ε n (Completion α ι)) (Layers ε n (Completion α (TrackedImport H.Signal φ)))
  | 0 => ⟨fun (result : Completion α ι) => Trackable.track result⟩
  | n + 1 =>
    let _ : Trackable H (Layers ε n (Completion α ι))
      (Layers ε n (Completion α (TrackedImport H.Signal φ))) := instTrackable n
    ⟨fun (result : Except (ε n) (Layers ε n (Completion α ι))) => Trackable.track result⟩

end Layers

/-- The tracked import that a load is, unless it is a raw one. -/
def LoadFuture.import? {σ φ : Type} :
    LoadFuture σ φ → Option (TrackedImport σ (LoadFuture σ φ))
  | .raw _ => none
  | .tracked load => some load

def World.called (w : World H) (name : String) : World H :=
  { w with history := .callEntered name :: w.history }

def World.exited (w : World H) (name : String) : World H :=
  { w with history := .callExited name :: w.history }

/-- The ways in which a tracked import is made, `create`, where there is pending work. Each is given
with what it does before the read begins, `before`, which finds out how the import is to be started,
and with what it does at last, `after`. -/
inductive EntryPoint [Foreign H] : {φ : Type} →
    (create : Act H (Option (TrackedImport H.Signal φ))) →
    (before : Act H (Option (Act H φ))) → (after : World H → World H) → Prop where
  | trackImport {ι φ : Type} [Import H ι φ] (source : ι) :
      EntryPoint (some <$> trackImport source) (pure (some (Import.start source))) id
  | trackImportWith {ι φ : Type} [Import H ι φ] (make : Act H ι) :
      EntryPoint (some <$> trackImportWith make) (pure (some (make >>= Import.start))) id
  | trackCompletion {ι φ α : Type} [Import H ι φ] (value : Completion α ι) :
      EntryPoint (Except.toOption <$> trackCompletion? value)
        (pure (value.pending?.map Import.start)) id
  | call {ι φ α β : Type} {ε : Nat → Type} [Import H ι φ] {n : Nat}
      (f : TrackedFunction β (Act H (Layers ε n (Completion α ι)))) (argument : β) :
      EntryPoint (Layers.pending? n <$> f.call argument)
        (do
          Act.record (.callEntered f.name)
          return (Layers.pending? n (← f.func argument)).map Import.start)
        (·.exited f.name)
  | callAsync {ι φ β : Type} [Import H ι φ] (f : TrackedFunction β (Act H ι)) (argument : β) :
      EntryPoint (some <$> f.callAsync argument)
        (do
          Act.record (.callEntered f.name)
          return some (Import.start (← f.func argument)))
        (·.exited f.name)
  | load {κ ε φ : Type} [Discard H φ]
      (run : κ → String → Act H (Completion (LoadResult ε) (LoadFuture H.Signal φ)))
      (loader : Loader κ) {name : String} {inner : LoaderFunction κ}
      (h : loader.func = .tracked name inner) (specifier : String) :
      EntryPoint ((·.pending?.bind LoadFuture.import?) <$> loader.call run specifier)
        (do
          Act.record (.callEntered name)
          return (← inner.call run specifier).pending?.map pure)
        (·.exited name)

section Create

variable [Foreign H]

theorem beginCurrent_begins {w v : World H} {lease : Option (ReadLease H.Signal)}
    (h : exec ReadLease.beginCurrent w = (.ok lease, v)) : w.Begins lease v := by
  rw [ReadLease.exec_beginCurrent] at h
  unfold World.Begins
  cases hs : w.signal? with
  | none =>
    rw [hs] at h
    obtain ⟨rfl, rfl⟩ : none = lease ∧ w = v := by simpa using h
    exact ⟨rfl, rfl⟩
  | some signal =>
    rw [hs] at h
    obtain ⟨l, hl, rfl⟩ := exec_map_eq_ok.mp h
    rw [ReadLease.exec_begin] at hl
    have hbegun := hl
    rw [ReadLease.begun] at hl
    rcases hb : exec signal.beginRead w with ⟨_ | ⟨⟩, u⟩
    · simp [hb] at hl
    · obtain ⟨rfl, -⟩ : ⟨signal⟩ = l ∧ _ = v := by simpa [hb] using hl
      exact ⟨rfl, hbegun⟩

theorem trackImport_begins [Import H ι φ] {source : ι} {t : TrackedImport H.Signal φ}
    {w v : World H} (h : exec (trackImport source) w = (.ok t, v)) :
    ∃ u, w.Begins t.lease u ∧ exec (Import.start source) u = (.ok t.inner, v) := by
  obtain ⟨lease, u, hbegin, h⟩ := exec_bind_eq_ok.mp h
  obtain ⟨inner, x, hstart, h⟩ := exec_bind_eq_ok.mp h
  obtain ⟨rfl, rfl⟩ : (⟨inner, lease⟩ : TrackedImport H.Signal φ) = t ∧ x = v := by simpa using h
  exact ⟨u, beginCurrent_begins (exec_onPanic_eq_ok.mp hbegin), exec_onPanic_eq_ok.mp hstart⟩

theorem trackImportWith_begins [Import H ι φ] {make : Act H ι} {t : TrackedImport H.Signal φ}
    {w v : World H} (h : exec (trackImportWith make) w = (.ok t, v)) :
    ∃ u, w.Begins t.lease u ∧ exec (make >>= Import.start) u = (.ok t.inner, v) := by
  obtain ⟨lease, u, hbegin, h⟩ := exec_bind_eq_ok.mp h
  obtain ⟨inner, x, hstart, h⟩ := exec_bind_eq_ok.mp h
  obtain ⟨rfl, rfl⟩ : (⟨inner, lease⟩ : TrackedImport H.Signal φ) = t ∧ x = v := by simpa using h
  exact ⟨u, beginCurrent_begins hbegin, exec_onPanic_eq_ok.mp hstart⟩

omit [Foreign H] in
theorem exec_inCall (name : String) (body : Act H α) (w : World H) :
    exec (inCall name body) w =
      ((exec body (w.called name)).1, (exec body (w.called name)).2.exited name) := by
  rw [inCall, exec_bind, exec_record]
  refine (exec_always body _ (w.called name)).trans ?_
  rcases exec body (w.called name) with ⟨_ | a, v⟩ <;> rfl

omit [Foreign H] in
theorem exec_inCall_eq_ok {name : String} {body : Act H α} {a : α} {w v : World H}
    (h : exec (inCall name body) w = (.ok a, v)) :
    ∃ u, exec body (w.called name) = (.ok a, u) ∧ v = u.exited name := by
  rw [exec_inCall] at h
  rcases hb : exec body (w.called name) with ⟨r, u⟩
  rw [hb] at h
  obtain ⟨rfl, rfl⟩ : r = .ok a ∧ u.exited name = v := by simpa using h
  exact ⟨u, rfl, rfl⟩

/-- What is found tracked in a result was found pending before. -/
theorem Layers.track_pending [Import H ι φ] {ε : Nat → Type} :
    {n : Nat} → {result : Layers ε n (Completion α ι)} →
    {tracked : Layers ε n (Completion α (TrackedImport H.Signal φ))} →
    {t : TrackedImport H.Signal φ} → {w v : World H} →
    exec (Trackable.track result) w = (.ok tracked, v) → pending? n tracked = some t →
    ∃ source, pending? n result = some source ∧ exec (trackImport source) w = (.ok t, v)
  | 0, .ready value, tracked, t, w, v, h, ht => by
    change (Except.ok (Completion.ready value), w) = (.ok tracked, v) at h
    cases h
    simp [pending?, Completion.pending?] at ht
  | 0, .pending source, tracked, t, w, v, h, ht => by
    change exec (Completion.pending <$> trackImport source) w = (.ok tracked, v) at h
    obtain ⟨u, hu, rfl⟩ := exec_map_eq_ok.mp h
    obtain rfl : u = t := by simpa [pending?, Completion.pending?] using ht
    exact ⟨source, rfl, hu⟩
  | n + 1, .error e, tracked, t, w, v, h, ht => by
    change (Except.ok (Except.error e), w) = (.ok tracked, v) at h
    cases h
    simp [pending?] at ht
  | n + 1, .ok result, tracked, t, w, v, h, ht => by
    change exec (Except.ok <$> Trackable.track result) w = (.ok tracked, v) at h
    obtain ⟨inner, hinner, rfl⟩ := exec_map_eq_ok.mp h
    exact track_pending (n := n) hinner ht

/-- Every tracked import begins its read in the call that makes it, on the signal of the unit which
is current at that moment, before the import starts; if that unit has no signal there is no read.
Whatever then happens, it ends once. A tracked load is polled and dropped as a tracked import. -/
theorem EntryPoint.pairs_read {create : Act H (Option (TrackedImport H.Signal φ))}
    {before : Act H (Option (Act H φ))} {after : World H → World H} {t : TrackedImport H.Signal φ}
    {w v : World H} (entry : EntryPoint create before after)
    (h : exec create w = (.ok (some t), v)) :
    (∃ start w₀ w₁ w₂, exec before w = (.ok (some start), w₀) ∧ w₀.Begins t.lease w₁ ∧
      exec start w₁ = (.ok t.inner, w₂) ∧ v = after w₂) ∧
    (∀ (visits : List (Visit H φ α)) (u : World H), t.EndsOnce visits u) ∧
    ∀ {ψ : Type} (load : TrackedImport H.Signal (LoadFuture H.Signal ψ))
      (pollRaw : ψ → Run H (Outcome H α × ψ)) (discardRaw : ψ → Act H Unit),
      LoadFuture.poll pollRaw (.tracked load) =
        (fun polled => (polled.1, .tracked polled.2)) <$>
          load.poll (LoadFuture.poll pollRaw load.inner) ∧
      LoadFuture.discard discardRaw (.tracked load) =
        load.discard (LoadFuture.discard discardRaw load.inner) := by
  refine ⟨?_, t.endsOnce, fun load pollRaw discardRaw => ⟨rfl, rfl⟩⟩
  cases entry with
  | trackImport source =>
    obtain ⟨t', ht, he⟩ := exec_map_eq_ok.mp h
    cases he
    obtain ⟨u, hbegins, hstart⟩ := trackImport_begins ht
    exact ⟨_, w, u, v, rfl, hbegins, hstart, rfl⟩
  | trackImportWith make =>
    obtain ⟨t', ht, he⟩ := exec_map_eq_ok.mp h
    cases he
    obtain ⟨u, hbegins, hstart⟩ := trackImportWith_begins ht
    exact ⟨_, w, u, v, rfl, hbegins, hstart, rfl⟩
  | trackCompletion value =>
    obtain ⟨result, hr, he⟩ := exec_map_eq_ok.mp h
    cases value with
    | ready value =>
      cases hr
      cases he
    | pending source =>
      obtain ⟨t', ht, rfl⟩ := exec_map_eq_ok.mp hr
      cases he
      obtain ⟨u, hbegins, hstart⟩ := trackImport_begins ht
      exact ⟨_, w, u, v, rfl, hbegins, hstart, rfl⟩
  | call f argument =>
    obtain ⟨tracked, hr, he⟩ := exec_map_eq_ok.mp h
    obtain ⟨x, hbody, rfl⟩ := exec_inCall_eq_ok hr
    obtain ⟨result, w₀, hf, htrack⟩ := exec_bind_eq_ok.mp hbody
    obtain ⟨source, hpending, ht⟩ := Layers.track_pending htrack he
    obtain ⟨u, hbegins, hstart⟩ := trackImport_begins ht
    refine ⟨Import.start source, w₀, u, x, ?_, hbegins, hstart, rfl⟩
    rw [exec_bind, exec_record]
    exact exec_bind_eq_ok.mpr ⟨result, w₀, hf, by rw [hpending]; rfl⟩
  | callAsync f argument =>
    obtain ⟨t', ht, he⟩ := exec_map_eq_ok.mp h
    cases he
    obtain ⟨x, hbody, rfl⟩ := exec_inCall_eq_ok ht
    obtain ⟨source, w₀, hf, htrack⟩ := exec_bind_eq_ok.mp hbody
    obtain ⟨u, hbegins, hstart⟩ := trackImport_begins htrack
    refine ⟨Import.start source, w₀, u, x, ?_, hbegins, hstart, rfl⟩
    rw [exec_bind, exec_record]
    exact exec_bind_eq_ok.mpr ⟨source, w₀, hf, rfl⟩
  | @load κ ε φ _ run loader name inner hl specifier =>
    obtain ⟨result, hr, he⟩ := exec_map_eq_ok.mp h
    rw [Loader.call, hl, LoaderFunction.call] at hr
    obtain ⟨tracked, y, hcall, hmap⟩ := exec_bind_eq_ok.mp hr
    cases hmap
    obtain ⟨x, hbody, rfl⟩ := exec_inCall_eq_ok hcall
    obtain ⟨result, w₀, hf, htrack⟩ := exec_bind_eq_ok.mp hbody
    cases result with
    | ready value =>
      cases htrack
      cases he
    | pending source =>
      obtain ⟨t', ht, rfl⟩ := exec_map_eq_ok.mp htrack
      obtain rfl : t' = t := by
        simpa [Completion.mapPending, Completion.pending?, LoadFuture.import?] using he
      obtain ⟨u, hbegins, hstart⟩ := trackImport_begins ht
      refine ⟨Import.start source, w₀, u, x, ?_, hbegins, hstart, rfl⟩
      rw [exec_bind, exec_record]
      exact exec_bind_eq_ok.mpr ⟨.pending source, w₀, hf, rfl⟩

end Create

/-- A host of one signal, which writes a note for each of its calls. -/
def Host.noting : Host where
  Signal := Unit
  Waker := Unit
  Note := String
  Payload := Unit
  State := Unit

instance : Foreign Host.noting where
  beginRead _ := Act.record (.note "begin")
  endRead _ := Act.record (.note "end")
  reactions := { watched := fun _ => none, calls := fun _ _ => [] }

instance : Import Host.noting Unit Unit where
  start := pure
  discard := pure

theorem EntryPoint.pairs_read_noting :
    let unit : Entry Unit := ⟨0, .prerender (some (.foreign ()))⟩
    let w : World Host.noting := { units := { entries := [unit] }, state := () }
    let v : World Host.noting :=
      { w with history := [.leaseBegun (.foreign ()), .note "begin"] }
    exec (some <$> ReadBarrier.trackImport ()) w = (.ok (some ⟨(), some ⟨.foreign ()⟩⟩), v) ∧
      ∀ visits : List (Visit Host.noting Unit Unit),
        TrackedImport.EndsOnce ⟨(), some ⟨.foreign ()⟩⟩ visits v := by
  intro unit w v
  have h : exec (some <$> ReadBarrier.trackImport ()) w =
      (.ok (some ⟨(), some ⟨.foreign ()⟩⟩), v) := rfl
  exact ⟨h, fun visits => ((EntryPoint.trackImport ()).pairs_read h).2.1 visits v⟩

end ReadBarrier
