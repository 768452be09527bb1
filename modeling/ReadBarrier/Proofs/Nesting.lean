import ReadBarrier.Proofs.Transparency

/-!
Tracked functions whose results lie under layers of success or failure.

Pending work is found at the bottom only, under successes only. It is tracked there, after the
function returned, and the layers are put back. Any other result comes back as it is.
-/

namespace ReadBarrier

open Act

variable {H : Host} {α β φ ι : Type} {ε : Nat → Type}

namespace Layers

/-- Work that is pending under `n` successes. -/
def pending : (n : Nat) → φ → Layers ε n (Completion α φ)
  | 0, work => Completion.pending work
  | n + 1, work => (Except.ok (pending n work) : Except (ε n) (Layers ε n (Completion α φ)))

variable [Foreign H] [Import H ι φ]

theorem exec_track_pending : (n : Nat) → (source : ι) → (w : World H) →
    exec (Trackable.track (pending n source : Layers ε n (Completion α ι))) w =
      ((exec (trackImport source) w).1.map fun t => pending n t,
        (exec (trackImport source) w).2)
  | 0, source, w => exec_map Completion.pending (trackImport source) w
  | n + 1, source, w => by
    refine (exec_map Except.ok (Trackable.track (pending n source)) w).trans ?_
    rw [exec_track_pending n source w]
    rcases exec (trackImport source : Act H (TrackedImport H.Signal φ)) w with ⟨_ | t, v⟩ <;> rfl

theorem exec_track_of_ne (f : ι → TrackedImport H.Signal φ) : (n : Nat) →
    (result : Layers ε n (Completion α ι)) → (w : World H) →
    (∀ source : ι, result ≠ pending n source) →
    exec (Trackable.track result) w = (.ok (mapPending f n result), w)
  | 0, .ready _, _, _ => rfl
  | 0, Completion.pending source, _, h => absurd rfl (h source)
  | _ + 1, .error _, _, _ => rfl
  | n + 1, .ok result, w, h => by
    have hinner : ∀ source : ι, result ≠ pending n source := by
      intro source heq
      exact h source (congrArg Except.ok heq)
    refine (exec_map Except.ok (Trackable.track result) w).trans ?_
    rw [exec_track_of_ne f n result w hinner]
    rfl

end Layers

section Call

variable [Foreign H] [Import H ι φ]

/-- To track an import is to begin its read, on the signal that is current, and then to start it. -/
theorem exec_trackImport_eq_ok_iff {source : ι} {t : TrackedImport H.Signal φ} {v u : World H} :
    exec (trackImport source) v = (.ok t, u) ↔
      ∃ x, v.Begins t.lease x ∧ exec (Import.start source) x = (.ok t.inner, u) := by
  constructor
  · exact trackImport_begins
  · rintro ⟨x, hbegins, hstart⟩
    obtain ⟨inner, lease⟩ := t
    rw [exec_trackImport]
    cases hs : v.signal? with
    | none =>
      obtain ⟨rfl, rfl⟩ : lease = none ∧ x = v := by simpa [World.Begins, hs] using hbegins
      exact exec_map_eq_ok.mpr ⟨inner, hstart, rfl⟩
    | some signal =>
      obtain ⟨rfl, hbegin⟩ : lease = some ⟨signal⟩ ∧ _ := by simpa [World.Begins, hs] using hbegins
      simp only [ReadLease.exec_begin, hbegin]
      exact exec_map_eq_ok.mpr ⟨inner, exec_onPanic_eq_ok.mpr hstart, rfl⟩

/-- A call of a tracked function runs the function once, and a panic in it goes on. Work that it
hands back pending, under any number of successes, is tracked where the function left off: its read
begins on the signal that is current then, before it starts and before the call is over, and it
stands tracked where it stood. Any other result comes back as it is, and nothing is done about
it. -/
theorem TrackedFunction.call_tracks_bottom {n : Nat}
    (f : TrackedFunction β (Act H (Layers ε n (Completion α ι)))) (argument : β) (w : World H) :
    (∀ p v, exec (f.func argument) (w.called f.name) = (.error p, v) →
      exec (f.call argument) w = (.error p, v.exited f.name)) ∧
    (∀ source v,
      exec (f.func argument) (w.called f.name) = (.ok (Layers.pending n source), v) →
      exec (f.call argument) w =
        ((exec (trackImport source) v).1.map fun t => Layers.pending n t,
          (exec (trackImport source) v).2.exited f.name) ∧
      ∀ (t : TrackedImport H.Signal φ) u, exec (trackImport source) v = (.ok t, u) ↔
        ∃ x, v.Begins t.lease x ∧ exec (Import.start source) x = (.ok t.inner, u)) ∧
    ∀ result v, exec (f.func argument) (w.called f.name) = (.ok result, v) →
      (∀ source : ι, result ≠ Layers.pending n source) →
      ∀ g : ι → TrackedImport H.Signal φ,
        exec (f.call argument) w = (.ok (Layers.mapPending g n result), v.exited f.name) := by
  have hcall : exec (f.call argument) w =
      ((exec (f.func argument >>= Trackable.track) (w.called f.name)).1,
        (exec (f.func argument >>= Trackable.track) (w.called f.name)).2.exited f.name) :=
    exec_inCall f.name _ w
  refine ⟨?_, ?_, ?_⟩
  · intro p v hfunc
    rw [hcall, exec_bind, hfunc]
  · intro source v hfunc
    refine ⟨?_, fun _ _ => exec_trackImport_eq_ok_iff⟩
    rw [hcall, exec_bind, hfunc]
    simp only [Layers.exec_track_pending]
  · intro result v hfunc hne g
    rw [hcall, exec_bind, hfunc]
    simp only [Layers.exec_track_of_ne g n result v hne]

end Call

/-- A failure under one success. -/
def failedWithin : Layers (fun _ => String) 2 (Completion Unit φ) :=
  (Except.ok (Except.error "not found" : Except String (Completion Unit φ)) :
    Except String (Except String (Completion Unit φ)))

/-- A function that hands back pending work under two successes, or fails, or panics. -/
def nested : TrackedFunction (Option Bool)
    (Act Host.noting (Layers (fun _ => String) 2 (Completion Unit Unit))) :=
  ⟨"load", fun found => do
    Act.record (.note "body")
    match found with
    | none => throw (.thrown ())
    | some true => return Layers.pending 2 ()
    | some false => return failedWithin⟩

theorem TrackedFunction.call_tracks_bottom_nested :
    let w : World Host.noting :=
      { units := { entries := [⟨0, .prerender (some (.foreign ()))⟩] }, state := () }
    let body (w : World Host.noting) : World Host.noting :=
      { w with history := [.note "body", .callEntered "load"] }
    let begun : World Host.noting :=
      { w with history := [.leaseBegun (.foreign ()), .note "begin", .note "body",
          .callEntered "load"] }
    exec (nested.func none) (w.called "load") = (.error (.thrown ()), body w) ∧
    exec (nested.call none) w = (.error (.thrown ()), (body w).exited "load") ∧
    exec (nested.func (some true)) (w.called "load") = (.ok (Layers.pending 2 ()), body w) ∧
    exec (nested.call (some true)) w =
      (.ok (Layers.pending 2 ⟨(), some ⟨.foreign ()⟩⟩), begun.exited "load") ∧
    (∃ x, (body w).Begins (some ⟨.foreign ()⟩) x ∧
      exec (Import.start () : Act Host.noting Unit) x = (.ok (), begun)) ∧
    exec (nested.func (some false)) (w.called "load") = (.ok failedWithin, body w) ∧
    exec (nested.call (some false)) w = (.ok failedWithin, (body w).exited "load") := by
  intro w body begun
  obtain ⟨hpanic, -, -⟩ := TrackedFunction.call_tracks_bottom nested none w
  obtain ⟨-, hpending, -⟩ := TrackedFunction.call_tracks_bottom nested (some true) w
  obtain ⟨-, -, hother⟩ := TrackedFunction.call_tracks_bottom nested (some false) w
  have hfound : exec (nested.func (some true)) (w.called "load") =
      (.ok (Layers.pending 2 ()), body w) := rfl
  have htrack : exec (trackImport ()) (body w) =
      (.ok (⟨(), some ⟨.foreign ()⟩⟩ : TrackedImport Unit Unit), begun) := rfl
  have hfailed : ∀ source : Unit, failedWithin ≠ Layers.pending 2 source := by
    rintro _ ⟨⟩
  obtain ⟨hcall, hbegins⟩ := hpending () (body w) hfound
  rw [htrack] at hcall
  exact ⟨rfl, hpanic (.thrown ()) (body w) rfl, hfound, hcall, (hbegins _ _).mp htrack, rfl,
    hother failedWithin (body w) rfl hfailed fun _ => ⟨(), none⟩⟩

end ReadBarrier
