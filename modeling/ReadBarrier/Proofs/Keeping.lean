import ReadBarrier.Proofs.Books

/-!
The library keeps the books of a counting signal, as long as the foreign code that it calls does.
-/

namespace ReadBarrier.Script

open Act

variable {σ ω α β φ : Type} {i held : Nat} {w : World (host σ ω)}

/-- The leases that come out of a computation. A panic leaves none. -/
def left (hands : α → Nat) : Except (Panic (host σ ω)) α → Nat
  | .ok a => hands a
  | .error _ => 0

theorem left_zero (r : Except (Panic (host σ ω)) α) : left (fun _ => 0) r = 0 := by
  cases r <;> rfl

/-- A computation keeps the books of signal `i`. It is handed `given` leases on it, and its answer
has those that `hands` tells. -/
def Keeps (i given : Nat) (body : Act (host σ ω) α) (hands : α → Nat) : Prop :=
  ∀ w k, Books i w (given + k) → Books i (exec body w).2 (left hands (exec body w).1 + k)

/-- The same for a computation that always answers. -/
def RunKeeps (i given : Nat) (body : Run (host σ ω) α) (hands : α → Nat) : Prop :=
  ∀ w k, Books i w (given + k) → Books i (body.run w).2 (hands (body.run w).1 + k)

variable {given more : Nat} {hands : α → Nat} {body : Act (host σ ω) α}

/-- Two worlds do not differ in what the books of signal `i` are about. -/
structure Alike (i : Nat) (w v : World (host σ ω)) : Prop where
  caches : v.caches = w.caches
  history : v.history = w.history
  live : (stockOf v).live i = (stockOf w).live i

theorem Books.congr {v : World (host σ ω)} (hb : Books i w held) (h : Alike i w v) :
    Books i v held where
  calm := h.history ▸ hb.calm
  leases := by
    rw [h.history, h.live]
    exact hb.leases
  signal := by
    rw [h.caches, h.history]
    exact hb.signal
  sound := h.history ▸ hb.sound

namespace Keeps

theorem pure (a : α) (h : hands a = given) : Keeps i given (Pure.pure a : Act (host σ ω) α) hands := by
  intro w k hb
  obtain rfl := h
  exact hb

theorem throw (p : Panic (host σ ω)) :
    Keeps i 0 (MonadExcept.throw p : Act (host σ ω) α) hands := by
  intro w k hb
  exact hb

theorem bind {f : α → Act (host σ ω) β} {later : β → Nat} (hbody : Keeps i given body hands)
    (hf : ∀ a, Keeps i (hands a) (f a) later) : Keeps i given (body >>= f) later := by
  intro w k hb
  have hv := hbody w k hb
  rw [exec_bind]
  rcases hr : exec body w with ⟨p | a, v⟩
  · rw [hr] at hv
    exact hv
  · rw [hr] at hv
    exact hf a v k hv

theorem map {f : α → β} {later : β → Nat} (h : Keeps i given body hands)
    (hf : ∀ a, later (f a) = hands a) : Keeps i given (f <$> body) later := by
  rw [map_eq_pure_bind]
  exact h.bind fun a => .pure (f a) (hf a)

theorem congr {hands' : α → Nat} {given' : Nat} (h : Keeps i given body hands)
    (hgiven : given' = given) (hhands : ∀ a, hands a = hands' a) : Keeps i given' body hands' := by
  obtain rfl : hands = hands' := funext hhands
  exact hgiven ▸ h

theorem attempt (h : Keeps i given body hands) : Keeps i given body.attempt (left hands) := by
  intro w k hb
  exact h w k hb

/-- Leases can be set aside for what is done after a panic, too. -/
theorem attempt_aside (h : Keeps i given body hands) (more : Nat) :
    Keeps i (given + more) body.attempt fun r => left hands r + more := by
  intro w k hb
  rw [Nat.add_assoc] at hb
  have hv := h w (more + k) hb
  rw [← Nat.add_assoc] at hv
  exact hv

theorem always {cleanup : Act (host σ ω) Unit} (h : Keeps i given body fun _ => 0)
    (hc : Keeps i more cleanup fun _ => 0) :
    Keeps i (given + more) (body.always cleanup) fun _ => 0 := by
  refine (h.attempt_aside more).bind fun r => ?_
  cases r with
  | ok a => exact (hc.congr (Nat.zero_add _) fun _ => rfl).bind fun _ => .pure a rfl
  | error p => exact (hc.attempt.congr (Nat.zero_add _) left_zero).bind fun _ => .throw p

theorem onPanic {cleanup : Act (host σ ω) Unit} (h : Keeps i given body hands)
    (hc : Keeps i more cleanup fun _ => 0) :
    Keeps i (given + more) (body.onPanic cleanup) fun a => hands a + more := by
  refine (h.attempt_aside more).bind fun r => ?_
  cases r with
  | ok a => exact .pure a rfl
  | error p => exact (hc.attempt.congr (Nat.zero_add _) left_zero).bind fun _ => .throw p

theorem quiet (h : ∀ w, Alike i w (exec body w).2) : Keeps i 0 body fun _ => 0 := by
  intro w k hb
  rw [left_zero]
  exact hb.congr (h w)

/-- Leases can be set aside during a computation that does not panic. -/
theorem after {f : α → Act (host σ ω) β} {later : β → Nat}
    (h : ∀ w, ∃ a v, exec body w = (.ok a, v) ∧ Alike i w v)
    (hf : ∀ a, Keeps i given (f a) later) : Keeps i given (body >>= f) later := by
  intro w k hb
  obtain ⟨a, v, hbody, hv⟩ := h w
  rw [exec_bind, hbody]
  exact hf a v k (hb.congr hv)

theorem lift {body : Run (host σ ω) α} (h : RunKeeps i given body hands) :
    Keeps i given (liftM body : Act (host σ ω) α) hands :=
  fun w k hb => h w k hb

theorem forM {ops : List α} {f : α → Act (host σ ω) Unit}
    (h : ∀ op ∈ ops, Keeps i 0 (f op) fun _ => 0) : Keeps i 0 (ops.forM f) fun _ => 0 := by
  induction ops with
  | nil => exact .pure () rfl
  | cons op ops ih =>
    change Keeps i 0 (f op >>= fun _ => ops.forM f) _
    exact (h op (List.mem_cons_self ..)).bind fun _ =>
      ih fun op hop => h op (List.mem_cons_of_mem _ hop)

end Keeps

/-! ### The library keeps the books -/

/-- Events that do not matter for the books. -/
def Aside : Event (host σ ω) → Prop
  | .leaseBegun (.foreign _) | .leaseEnded (.foreign _) | .callEntered _ | .callExited _ => True
  | _ => False

theorem Books.aside (hb : Books i w held) {e : Event (host σ ω)} (he : Aside e) :
    Books i { w with history := e :: w.history } held := by
  obtain ⟨-, hleases, ⟨s, hs, htotal, hpending, hpaired⟩, hsound⟩ := hb
  have hsignal : calls (e :: w.history) = calls w.history →
      leased i (e :: w.history) = leased i w.history →
      returned i (e :: w.history) = returned i w.history →
      complaints i (e :: w.history) = complaints i w.history →
      ∃ s, w.caches[i]? = some s ∧ Tallies i s (e :: w.history) := by
    intro hcalls hleased hreturned hcomplaints
    exact ⟨s, hs, by rw [hcalls, hleased, htotal], by rwa [hcalls, hleased, hreturned],
      by rwa [hcalls, hcomplaints]⟩
  cases e with
  | leaseBegun signal =>
    cases signal with
    | cache j => exact he.elim
    | foreign f => exact ⟨by rintro o h ⟨⟩, hleases, hsignal rfl rfl rfl rfl, hsound⟩
  | leaseEnded signal =>
    cases signal with
    | cache j => exact he.elim
    | foreign f => exact ⟨by rintro o h ⟨⟩, hleases, hsignal rfl rfl rfl rfl, hsound⟩
  | callEntered name => exact ⟨by rintro o h ⟨⟩, hleases, hsignal rfl rfl rfl rfl, hsound⟩
  | callExited name => exact ⟨by rintro o h ⟨⟩, hleases, hsignal rfl rfl rfl rfl, hsound⟩
  | _ => exact he.elim

namespace Keeps

theorem aside {e : Event (host σ ω)} (he : Aside e) : Keeps i 0 (Act.record e) fun _ => 0 :=
  fun _ _ hb => hb.aside he

theorem inCall (name : String) (h : Keeps i given body hands) :
    Keeps i given (ReadBarrier.inCall name body) hands := by
  intro w k hb
  have hentered := hb.aside (e := .callEntered name) trivial
  have hbody := h _ k hentered
  rw [ReadBarrier.inCall, exec_bind, exec_record]
  simp only [exec_always]
  rcases hr : exec body { w with history := .callEntered name :: w.history } with ⟨p | a, v⟩
  · rw [hr] at hbody
    exact hbody.aside (e := .callExited name) trivial
  · rw [hr] at hbody
    exact hbody.aside (e := .callExited name) trivial

section Library

variable [Foreign (host σ ω)]
  (hbegin : ∀ s : σ, Keeps i 0 (Foreign.beginRead (H := host σ ω) s) fun _ => 0)
  (hend : ∀ s : σ, Keeps i 0 (Foreign.endRead (H := host σ ω) s) fun _ => 0)

include hbegin in
theorem begin (signal : SignalRef σ) :
    Keeps i 0 (ReadLease.begin (H := host σ ω) signal) fun lease => leaseOn i (some lease) := by
  cases signal with
  | cache j =>
    intro w k hb
    have hv := hb.leaseBegun (Foreign.reactions (H := host σ ω)) j
    rw [Nat.zero_add, Nat.add_comm] at hv
    exact hv
  | foreign s =>
    refine (hbegin s).bind fun _ => ?_
    exact (aside (e := .leaseBegun (.foreign s)) trivial).bind fun _ => .pure _ rfl

include hend in
theorem release (lease : ReadLease σ) :
    Keeps i (leaseOn i (some lease)) (lease.release (H := host σ ω)) fun _ => 0 := by
  obtain ⟨signal⟩ := lease
  cases signal with
  | cache j =>
    intro w k hb
    rw [Nat.add_comm] at hb
    have hv := Books.leaseEnded j hb (Foreign.reactions (H := host σ ω))
    rw [← Nat.zero_add k] at hv
    exact hv
  | foreign s => exact (hend s).bind fun _ => aside (e := .leaseEnded (.foreign s)) trivial

include hend in
theorem releaseAny (lease : Option (ReadLease σ)) :
    Keeps i (leaseOn i lease) (ReadLease.releaseAny (H := host σ ω) lease) fun _ => 0 := by
  cases lease with
  | none => exact .pure () rfl
  | some lease => exact release hend lease

omit [Foreign (host σ ω)] in
theorem withCurrent {look : Option (WorkUnit σ) → Act (host σ ω) α}
    (h : ∀ unit, Keeps i 0 (look unit) fun _ => 0) :
    Keeps i 0 (ReadBarrier.withCurrent look) fun _ => 0 := by
  refine after (fun w => ⟨w, w, rfl, rfl, rfl, rfl⟩) fun w => ?_
  refine after (fun w => ⟨(), _, rfl, rfl, rfl, rfl⟩) fun _ => ?_
  exact (h _).always (quiet fun w => ⟨rfl, rfl, rfl⟩)

include hbegin in
theorem beginCurrent :
    Keeps i 0 (ReadLease.beginCurrent (H := host σ ω)) fun lease => leaseOn i lease := by
  refine (withCurrent fun unit => .pure _ rfl).bind fun signal => ?_
  cases signal with
  | none => exact .pure none rfl
  | some signal => exact (begin hbegin signal).map fun _ => rfl

variable {ι : Type} {weight : φ → Nat}

include hbegin hend in
theorem trackImport [Import (host σ ω) ι φ] {source : ι}
    (hstart : Keeps i given (Import.start (H := host σ ω) source) weight)
    (hdiscard : Keeps i given (Import.discard (H := host σ ω) source) fun _ => 0) :
    Keeps i given (ReadBarrier.trackImport (H := host σ ω) source) fun t =>
      weight t.inner + leaseOn i t.lease := by
  refine (((beginCurrent hbegin).onPanic hdiscard).congr (Nat.zero_add _).symm fun _ => rfl).bind
    fun lease => ?_
  refine ((hstart.onPanic (releaseAny hend lease)).congr (Nat.add_comm _ _) fun _ => rfl).bind
    fun inner => ?_
  exact .pure _ rfl

include hbegin hend in
theorem trackImportWith [Import (host σ ω) ι φ] {make : Act (host σ ω) ι}
    (hmake : Keeps i 0 (make >>= Import.start (H := host σ ω)) weight) :
    Keeps i 0 (ReadBarrier.trackImportWith make) fun t => weight t.inner + leaseOn i t.lease := by
  refine (beginCurrent hbegin).bind fun lease => ?_
  refine ((hmake.onPanic (releaseAny hend lease)).congr (Nat.zero_add _).symm fun _ => rfl).bind
    fun inner => ?_
  exact .pure _ rfl

include hend in
theorem discard (t : TrackedImport σ φ) {giveUp : Act (host σ ω) Unit}
    (h : Keeps i given giveUp fun _ => 0) :
    Keeps i (given + leaseOn i t.lease) (t.discard (H := host σ ω) giveUp) fun _ => 0 :=
  h.always (releaseAny hend t.lease)

include hend in
theorem poll (weight : φ → Nat) (t : TrackedImport σ φ)
    {inner : Run (host σ ω) (Outcome (host σ ω) β × φ)}
    (h : RunKeeps i (weight t.inner) inner fun r => weight r.2) :
    RunKeeps i (weight t.inner + leaseOn i t.lease) (t.poll (H := host σ ω) inner) fun r =>
      weight r.2.inner + leaseOn i r.2.lease := by
  intro w k hb
  rw [Nat.add_assoc] at hb
  have hv := h w _ hb
  let visit : Visit (host σ ω) φ β := ⟨id, fun _ => inner⟩
  rcases hr : inner.run w with ⟨⟨p | ⟨value⟩ | _, rest⟩, v⟩
  · rw [hr] at hv
    have hpoll := t.poll_of_unfinished (v := visit) (w := w) hr trivial
    change (t.poll (H := host σ ω) inner).run w = _ at hpoll
    rw [hpoll, Nat.add_assoc]
    exact hv
  · rw [hr] at hv
    have hpoll := t.poll_of_ready (v := visit) (w := w) hr
    change (t.poll (H := host σ ω) inner).run w = _ at hpoll
    rw [hpoll]
    have hended := releaseAny hend t.lease v (weight rest + k) (Nat.add_left_comm .. ▸ hv)
    rw [left_zero, Nat.zero_add] at hended
    exact hended
  · rw [hr] at hv
    have hpoll := t.poll_of_unfinished (v := visit) (w := w) hr trivial
    change (t.poll (H := host σ ω) inner).run w = _ at hpoll
    rw [hpoll, Nat.add_assoc]
    exact hv

include hend in
theorem discardLoad {giveUp : φ → Act (host σ ω) Unit}
    (h : ∀ load, Keeps i 0 (giveUp load) fun _ => 0) :
    ∀ future : LoadFuture σ φ,
      Keeps i (leasesIn i future) (future.discard (H := host σ ω) giveUp) fun _ => 0
  | .raw load => h load
  | .tracked ⟨inner, lease⟩ => discard hend ⟨inner, lease⟩ (discardLoad h inner)

include hend in
theorem pollLoad {pollRaw : φ → Run (host σ ω) (Outcome (host σ ω) β × φ)}
    (h : ∀ load, RunKeeps i 0 (pollRaw load) fun _ => 0) :
    ∀ future : LoadFuture σ φ,
      RunKeeps i (leasesIn i future) (future.poll (H := host σ ω) pollRaw) fun r =>
        leasesIn i r.2
  | .raw load => fun w k hb => h load w k hb
  | .tracked ⟨inner, lease⟩ => fun w k hb =>
    poll hend (leasesIn i) ⟨inner, lease⟩ (pollLoad h inner) w k hb

include hbegin hend in
theorem trackResult {_ : Import (host σ ω) ι (LoadFuture σ φ)} (weigh : ι → Nat)
    (hstart : ∀ source : ι,
      Keeps i (weigh source) (Import.start (H := host σ ω) source) (leasesIn i))
    (hdiscard : ∀ source : ι,
      Keeps i (weigh source) (Import.discard (H := host σ ω) source) fun _ => 0)
    (result : Completion β ι) :
    Keeps i (leasesAny weigh result.pending?) (Trackable.track (H := host σ ω) result) fun tracked =>
      leasesAny (leasesOf i) tracked.pending? := by
  cases result with
  | ready value => exact .pure _ rfl
  | pending source =>
    exact (trackImport hbegin hend (hstart source) (hdiscard source)).map fun _ => rfl

include hbegin hend in
/-- Pending work is tracked wherever it is in a result. -/
theorem trackLayers [Import (host σ ω) ι (LoadFuture σ φ)] {ε : Nat → Type}
    (hstart : ∀ source : ι, Keeps i 0 (Import.start (H := host σ ω) source) (leasesIn i))
    (hdiscard : ∀ source : ι, Keeps i 0 (Import.discard (H := host σ ω) source) fun _ => 0) :
    ∀ {n : Nat} (result : Layers ε n (Completion β ι)),
      Keeps i 0 (Trackable.track (H := host σ ω) result) fun tracked =>
        leasesAny (leasesOf i) (Layers.pending? n tracked)
  | 0, result => by
    refine (trackResult hbegin hend (fun _ => 0) hstart hdiscard result).congr ?_
      fun _ => rfl
    cases result <;> rfl
  | _ + 1, .error _ => .pure _ rfl
  | n + 1, .ok result =>
    (trackLayers hstart hdiscard (n := n) result).map fun _ => rfl

include hbegin hend in
theorem loaderCall {κ ε : Type} [Discard (host σ ω) φ]
    (hdiscard : ∀ load : φ, Keeps i 0 (Discard.discard (H := host σ ω) load) fun _ => 0)
    {run : κ → String → Act (host σ ω) (Completion (LoadResult ε) (LoadFuture σ φ))}
    (hrun : ∀ code specifier,
      Keeps i 0 (run code specifier) fun r => leasesAny (leasesIn i) r.pending?)
    (specifier : String) (f : LoaderFunction κ) :
    Keeps i 0 (f.call run specifier) fun r => leasesAny (leasesIn i) r.pending? := by
  induction f with
  | raw code => exact hrun code specifier
  | tracked name inner ih =>
    refine (inCall name (ih.bind (trackResult hbegin hend (leasesIn i)
      (fun future => .pure future rfl) (discardLoad hend hdiscard)))).bind fun result => ?_
    cases result with
    | ready value => exact .pure _ rfl
    | pending t => exact .pure _ rfl

end Library

/-! ### Units and threads -/

theorem alike_enter (unit : WorkUnit σ) (w : World (host σ ω)) :
    Alike i w (exec unit.enter w).2 := by
  rw [WorkUnit.enter, exec_bind, exec_modifyGet]
  simp only [exec_bind, exec_get]
  by_cases hz : w.units.borrows = 0
  · simp only [hz, ↓reduceIte]
    exact ⟨rfl, rfl, rfl⟩
  · simp only [hz, ↓reduceIte]
    exact ⟨rfl, rfl, rfl⟩

theorem alike_leave (guard : Guard) (w : World (host σ ω)) :
    Alike i w (exec guard.leave w).2 := by
  rw [Guard.leave, exec_bind, exec_get]
  by_cases hz : w.units.borrows = 0
  · simp only [hz, ↓reduceIte]
    exact ⟨rfl, rfl, rfl⟩
  · simp only [hz, ↓reduceIte]
    exact ⟨rfl, rfl, rfl⟩

theorem run (unit : WorkUnit σ) (h : Keeps i 0 body fun _ => 0) :
    Keeps i 0 (unit.run body) fun _ => 0 :=
  (quiet (alike_enter unit)).bind fun guard => h.always (quiet (alike_leave guard))

theorem onFreshThread (h : Keeps i 0 body fun _ => 0) :
    Keeps i 0 (ReadBarrier.onFreshThread body) fun _ => 0 :=
  after (fun _ => ⟨_, _, rfl, rfl, rfl, rfl⟩) fun _ => h.always (quiet fun _ => ⟨rfl, rfl, rfl⟩)

theorem pollScoped (future : Scoped σ φ)
    {inner : Run (host σ ω) (Outcome (host σ ω) β × φ)} {weight : φ → Nat}
    (h : RunKeeps i (weight future.inner) inner fun r => weight r.2) :
    RunKeeps i (weight future.inner) (Scoped.poll (H := host σ ω) future inner) fun r =>
      weight r.2.inner := by
  intro w k hb
  have hentered := alike_enter (i := i) future.unit w
  rcases he : exec future.unit.enter w with ⟨p | guard, v⟩
  · rw [he] at hentered
    have hrun : (Scoped.poll (H := host σ ω) future inner).run w = ((.error p, future), v) := by
      have henter : StateT.run (ExceptT.run future.unit.enter) w = _ := he
      simp only [Scoped.poll, StateT.run_bind, henter]
      rfl
    rw [hrun]
    exact hb.congr hentered
  · rw [he] at hentered
    have hrun : (Scoped.poll (H := host σ ω) future inner).run w =
        ((Outcome.after (exec guard.leave (inner.run v).2).1 (inner.run v).1.1,
          { future with inner := (inner.run v).1.2 }), (exec guard.leave (inner.run v).2).2) := by
      have henter : StateT.run (ExceptT.run future.unit.enter) w = _ := he
      simp only [Scoped.poll, StateT.run_bind, henter]
      rfl
    rw [hrun]
    exact (h v k (hb.congr hentered)).congr (alike_leave guard _)

/-! ### Calls, and objects that are kept -/

section Calls

variable [Foreign (host σ ω)]

theorem makeCall (c : ReadCall) : Keeps i 0 (Script.makeCall (σ := σ) (ω := ω) c) fun _ => 0 := by
  intro w k hb
  have hv := hb.called (Foreign.reactions (H := host σ ω)) c
  cases c with
  | beginRead j => exact hv
  | endRead j => exact hv

theorem tryCall (j : Nat) : Keeps i 0 (Script.tryCall (σ := σ) (ω := ω) j) fun _ => 0 := by
  intro w k hb
  simp only [Script.tryCall, remark, exec_bind, exec_record, exec_tryEndRead]
  by_cases hz : (w.caches.counts j).getD 0 = 0
  · simp only [hz, ↓reduceIte]
    exact hb.refused hz
  · simp only [hz, ↓reduceIte]
    exact (hb.called (Foreign.reactions (H := host σ ω)) (.endRead j)).congr ⟨rfl, rfl, rfl⟩

end Calls

theorem newKey {f : Nat → Act (host σ ω) α} (h : ∀ key, Keeps i given (f key) hands) :
    Keeps i given (Script.newKey >>= f) hands :=
  after (fun _ => ⟨_, _, rfl, rfl, rfl, rfl⟩) h

theorem restock {f : Stock σ ω → α × Stock σ ω}
    (h : ∀ s, (f s).2.live i + hands (f s).1 = s.live i + given) :
    Keeps i given (Script.restock f) hands := by
  intro w k hb
  refine ⟨hb.calm, ?_, hb.signal, hb.sound⟩
  have hleases := hb.leases
  have hlive := h (stockOf w)
  change leased i w.history = returned i w.history + (f (stockOf w)).2.live i +
    (hands (f (stockOf w)).1 + k)
  omega

theorem putLease (key : Nat) (lease : ReadLease σ) :
    Keeps i (leaseOn i (some lease)) (Script.putLease (ω := ω) key lease) fun _ => 0 :=
  restock fun s => by
    simp only [Stock.live, Shelf.weigh]
    omega

theorem takeLease (key : Nat) :
    Keeps i 0 (Script.takeLease (σ := σ) (ω := ω) key) fun lease => leaseOn i lease :=
  restock fun s => by
    have htake := Shelf.weigh_take (fun lease => leaseOn i (some lease)) key s.leases
    have hany : leasesAny (fun lease => leaseOn i (some lease)) (Shelf.take key s.leases).1 =
        leaseOn i (Shelf.take key s.leases).1 := by
      cases (Shelf.take key s.leases).1 <;> rfl
    simp only [Stock.live]
    omega

theorem putFuture (key : Nat) (future : LoadFuture σ Unit) :
    Keeps i (leasesIn i future) (Script.putFuture (ω := ω) key future) fun _ => 0 :=
  restock fun s => by
    simp only [Stock.live, Shelf.weigh]
    omega

theorem takeFuture (key : Nat) :
    Keeps i 0 (Script.takeFuture (σ := σ) (ω := ω) key) fun future =>
      leasesAny (leasesIn i) future :=
  restock fun s => by
    have htake := Shelf.weigh_take (leasesIn i) key s.futures
    simp only [Stock.live]
    omega

theorem pollReady (ready : CacheReady) (waker : ω) :
    RunKeeps i 0 (ready.poll (H := host σ ω) waker) fun _ => 0 := by
  intro w k hb
  cases hs : w.caches[ready.signal]? with
  | none =>
    rw [CacheReady.run_poll_of_none hs]
    exact hb
  | some s =>
    obtain ⟨hpending, htotal⟩ := CacheSignal.pollReady_counts s ready.ticket waker
    rw [CacheReady.run_poll hs]
    exact hb.waiting hs hpending htotal

theorem discardReady (ready : CacheReady) :
    Keeps i 0 (ready.discard (H := host σ ω)) fun _ => 0 := by
  intro w k hb
  cases hs : w.caches[ready.signal]? with
  | none =>
    rw [CacheReady.discard, exec_modify, hs]
    exact hb
  | some s =>
    rw [CacheReady.exec_discard hs]
    exact hb.waiting hs (by cases ready.ticket <;> rfl) (by cases ready.ticket <;> rfl)

/-- After each operation the signal is balanced. -/
theorem moment (h : Keeps i 0 body fun _ => 0) :
    Keeps i 0 (body.always do remark (.moment (← get).caches)) fun _ => 0 := by
  have hremark : Keeps i 0 (do remark (.moment (← get).caches) : Act (host σ ω) Unit) fun _ => 0 :=
    fun w k hb => hb.moment
  exact h.always hremark

end Keeps

end ReadBarrier.Script
