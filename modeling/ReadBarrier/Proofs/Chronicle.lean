import Mathlib
import ReadBarrier.Proofs.Parking
import ReadBarrier.Proofs.Trail
import ReadBarrier.Proofs.UnitStore

/-!
The log is a chronicle of the counting signals: read from the first event to the last, it tells how
many reads are outstanding at every time, which ends found none, and how many leases there are.

A session is what code outside of the library makes of the signals. The last end on a signal wakes
those who wait, and until a waker returns the code in it may do all that other code may: begin and
end reads, take and release leases, wait for the signal, or panic. A panic leaves the remaining
wakers asleep, and a lease that was being released gets no event.
-/

namespace ReadBarrier

open Act Cascade

variable {H : Host} {ω : Type}

/-- What an event tells of the counting signals. -/
def Event.occurrence? : Event H → Option (Occurrence H.Waker)
  | .cache o => some o
  | .leaseBegun _ | .leaseEnded _ | .callEntered _ | .callExited _ | .passDisabled | .wrapped ..
  | .note _ => none

def Event.beginsLease (i : Nat) : Event H → Bool
  | .leaseBegun (.cache j) => j == i
  | _ => false

def Event.endsLease (i : Nat) : Event H → Bool
  | .leaseEnded (.cache j) => j == i
  | _ => false

namespace ReadLease

variable {σ : Type}

def isOn (i : Nat) (lease : ReadLease σ) : Bool :=
  match lease.signal with
  | .cache j => j == i
  | .foreign _ => false

/-- How many leases on a signal are among some that may be absent. -/
def live (i : Nat) (leases : List (Option (ReadLease σ))) : Nat := leases.countP (·.any (·.isOn i))

theorem live_append (leases : List (Option (ReadLease σ))) (lease : ReadLease σ) (i : Nat) :
    live i (leases ++ [some lease]) = live i leases + if lease.isOn i then 1 else 0 := by
  simp [live, List.countP_append, List.countP_singleton]

theorem live_set {leases : List (Option (ReadLease σ))} {key : Nat} {lease : ReadLease σ}
    (h : (leases[key]?).join = some lease) (i : Nat) :
    live i (leases.set key none) + (if lease.isOn i then 1 else 0) = live i leases := by
  obtain ⟨hkey, hlease⟩ := List.getElem?_eq_some_iff.mp (Option.join_eq_some_iff.mp h)
  have hpos : lease.isOn i = true → 0 < live i leases := by
    intro hi
    apply List.countP_pos_iff.mpr
    exact ⟨some lease, hlease ▸ List.getElem_mem hkey, hi⟩
  rw [live, List.countP_set hkey, ← live, hlease]
  simp only [Option.any_some, Option.any_none]
  split
  · next hi =>
    have := hpos hi
    simp only [Bool.false_eq_true, ↓reduceIte]
    omega
  · simp

end ReadLease

/-! ### Sessions -/

/-- Something that code outside of the library does to counting signals. -/
inductive Dealing (ω : Type) where
  | beginRead (signal : Nat)
  | endRead (signal : Nat)
  | tryEndRead (signal : Nat)
  | lease (signal : Nat)
  /-- A lease on the signal of the current unit, which is a prerender with this signal. -/
  | leaseCurrent (signal : Nat)
  | release (key : Nat)
  | poll (ready : CacheReady) (waker : ω)
  | discard (ready : CacheReady)
  /-- The waker that was woken last returns. -/
  | wakerReturns
  /-- The waker that was woken last panics, and so does the call that woke it. -/
  | wakerPanics

/-- An end of a read, during which wakers are woken. -/
structure Ending (H : Host) where
  /-- The lease that is being released, if that is what ends the read. -/
  lease : Option (ReadLease H.Signal)
  /-- The wakers that are still to be woken, after the latest. -/
  wakers : List H.Waker
  /-- The log when the signal had counted the end. -/
  since : List (Event H)

structure Session (H : Host) where
  world : World H
  /-- The leases taken, by key. One that was released leaves its place empty. -/
  leases : List (Option (ReadLease H.Signal)) := []
  /-- The ends in progress, innermost first. -/
  endings : List (Ending H) := []
  /-- The leases whose release was cut short by a panic. -/
  severed : List (ReadLease H.Signal) := []
  /-- The duties done so far, the latest first, each with the signals as it found them. -/
  done : List (Bank H.Waker × Duty H.Waker) := []

/-! ### The balance of leases -/

namespace Session

/-- How many releases of leases on a signal are in progress. -/
def underway (i : Nat) (endings : List (Ending H)) : Nat :=
  endings.countP (·.lease.any (·.isOn i))

/-- The leases on a signal that have begun and have not ended are those that are live, those that are
being released, and those whose release was cut short. -/
def Balances (i : Nat) (history : List (Event H)) (leases : List (Option (ReadLease H.Signal)))
    (endings : List (Ending H)) (severed : List (ReadLease H.Signal)) : Prop :=
  history.countP (·.beginsLease i) =
    history.countP (·.endsLease i) + ReadLease.live i leases + underway i endings +
      severed.countP (·.isOn i)

namespace Balances

variable {i j : Nat} {history : List (Event H)} {leases : List (Option (ReadLease H.Signal))}
  {endings : List (Ending H)} {severed : List (ReadLease H.Signal)}

theorem told (h : Balances i history leases endings severed) (o : Option (Occurrence H.Waker)) :
    Balances i ((o.map .cache).toList ++ history) leases endings severed := by
  cases o <;> exact h

theorem begun (h : Balances i history leases endings severed) (j : Nat) :
    Balances i (.leaseBegun (.cache j) :: history) (leases ++ [some ⟨.cache j⟩]) endings
      severed := by
  have hlive : ReadLease.live i (leases ++ [some (⟨.cache j⟩ : ReadLease H.Signal)]) =
      ReadLease.live i leases + if j == i then 1 else 0 := ReadLease.live_append ..
  rw [Balances] at h
  rw [Balances, List.countP_cons, List.countP_cons, hlive, h]
  change _ + (if j == i then 1 else 0) = _ + 0 + (_ + _) + _ + _
  omega

/-- An end that releases no lease does not matter. -/
theorem direct (h : Balances i history leases endings severed) (wakers : List H.Waker)
    (since : List (Event H)) :
    Balances i history leases (⟨none, wakers, since⟩ :: endings) severed := by
  rw [Balances] at h
  rw [Balances, underway, List.countP_cons, ← underway, h]
  rfl

/-- A lease that is to be released is no longer live. -/
theorem opened (h : Balances i history leases endings severed) {key : Nat}
    (hkey : (leases[key]?).join = some ⟨.cache j⟩) (wakers : List H.Waker)
    (since : List (Event H)) :
    Balances i history (leases.set key none) (⟨some ⟨.cache j⟩, wakers, since⟩ :: endings)
      severed := by
  have hlive : ReadLease.live i (leases.set key none) + (if j == i then 1 else 0) =
      ReadLease.live i leases := ReadLease.live_set hkey i
  rw [Balances] at h
  rw [Balances, underway, List.countP_cons, ← underway, h, ← hlive]
  change _ = _ + _ + (_ + if j == i then 1 else 0) + _
  omega

theorem ended {wakers : List H.Waker} {since : List (Event H)}
    (h : Balances i history leases (⟨some ⟨.cache j⟩, wakers, since⟩ :: endings) severed) :
    Balances i (.leaseEnded (.cache j) :: history) leases endings severed := by
  rw [Balances, underway, List.countP_cons, ← underway] at h
  rw [Balances, List.countP_cons, List.countP_cons, h]
  change _ + _ + (_ + if j == i then 1 else 0) + _ + 0 = _ + (if j == i then 1 else 0) + _ + _ + _
  omega

theorem cut {e : Ending H} (h : Balances i history leases (e :: endings) severed) :
    Balances i history leases endings (e.lease.toList ++ severed) := by
  rw [Balances, underway, List.countP_cons, ← underway] at h
  rw [Balances, List.countP_append, h]
  cases e.lease with
  | none => simp
  | some lease =>
    simp only [Option.any_some, Option.toList_some, List.countP_singleton]
    omega

end Balances

end Session

/-! ### Steps of a session -/

/-- Signals on which nothing has happened yet. -/
def Bank.idle (signals : Nat) : Bank ω := List.replicate signals {}

section Does

variable [Foreign H]

/-- Does a duty by itself, and logs it. -/
def World.does (w : World H) (d : Duty H.Waker) : World H :=
  { w with
    caches := d.apply w.caches
    history := ((d.told? Foreign.reactions.watched w.caches).map .cache).toList ++ w.history }

theorem World.settle_cons (w : World H) (d : Duty H.Waker) (rest : List (Duty H.Waker)) :
    w.settle (d :: rest) =
      (w.does d).settle (d.sequel Foreign.reactions w.caches ++ rest) := by
  simp only [World.settle, Cascade.settle_cons, World.does, List.map_append, List.reverse_append]
  cases d.told? Foreign.reactions.watched w.caches <;> simp

theorem World.settle_append (w : World H) (first rest : List (Duty H.Waker)) :
    w.settle (first ++ rest) = (w.settle first).settle rest := by
  match first with
  | [] => rw [World.settle_nil, List.nil_append]
  | d :: first =>
    have hlt := (d.step Foreign.reactions w.caches first).measure_lt
    rw [List.cons_append, World.settle_cons, World.settle_cons, ← List.append_assoc]
    exact World.settle_append (w.does d) _ rest
termination_by measure (w.caches, first)
decreasing_by exact hlt

/-- The event by which the log tells of a call comes at once. -/
theorem World.history_does {w : World H} {c : ReadCall} {s : CacheSignal H.Waker}
    (hs : w.caches[c.signal]? = some s) :
    ∃ o, o.call? = some c ∧ (w.does (.call c)).history = .cache o :: w.history := by
  cases c with
  | beginRead i =>
    have hi : w.caches.counts i = some s.pending := congrArg (Option.map _) hs
    exact ⟨.begun i (s.pending + 1), rfl, by simp [does, Duty.told?, hi]⟩
  | endRead i =>
    have hi : w.caches.counts i = some s.pending := congrArg (Option.map _) hs
    cases hn : s.pending with
    | zero => exact ⟨.unpaired i, rfl, by simp [does, Duty.told?, hi, hn]⟩
    | succ n => exact ⟨.ended i n, rfl, by simp [does, Duty.told?, hi, hn]⟩

end Does

namespace Session

variable [Foreign H]

def held? (x : Session H) (key : Nat) : Option (ReadLease H.Signal) := (x.leases[key]?).join

def does (x : Session H) (d : Duty H.Waker) : Session H :=
  { x with world := x.world.does d, done := (x.world.caches, d) :: x.done }

def record (x : Session H) (event : Event H) : Session H :=
  { x with world := { x.world with history := event :: x.world.history } }

/-- Takes a lease whose read has begun. -/
def keep (x : Session H) (lease : ReadLease H.Signal) : Session H :=
  { x with leases := x.leases ++ [some lease] }.record (.leaseBegun lease.signal)

/-- Goes on with the innermost end: wakes the next waker or, after the last one, completes the
call. -/
def resume (x : Session H) : Session H :=
  match x.endings with
  | [] => x
  | ⟨lease, w :: wakers, since⟩ :: endings =>
    { x with endings := ⟨lease, wakers, since⟩ :: endings }.does (.wake w)
  | ⟨some lease, [], _⟩ :: endings => { x with endings }.record (.leaseEnded lease.signal)
  | ⟨none, [], _⟩ :: endings => { x with endings }

/-- The wakers that an end on a signal would wake. -/
def roused (bank : Bank ω) (i : Nat) : List ω := (((bank[i]?).bind (·.endRead?)).map (·.2)).getD []

/-- Ends a read on a signal, for a lease or without one. -/
def endBy (x : Session H) (lease : Option (ReadLease H.Signal)) (i : Nat) : Session H :=
  let y := x.does (.call (.endRead i))
  { y with
    endings := ⟨lease, roused x.world.caches i, y.world.history⟩ :: x.endings }.resume

/-- Keeps the lease on a signal that was made, if one was. -/
def put (x : Session H) (i : Nat) :
    Except (Panic H) (Option (ReadLease H.Signal)) × World H → Session H
  | (.ok (some lease), w) =>
    { x with
      world := w
      leases := x.leases ++ [some lease]
      done := (x.world.caches, .call (.beginRead i)) :: x.done }
  | (.ok none, w) | (.error _, w) => { x with world := w }

def step (x : Session H) : Dealing H.Waker → Session H
  | .beginRead i => x.does (.call (.beginRead i))
  | .endRead i => x.endBy none i
  | .tryEndRead i => if (x.world.caches.counts i).getD 0 = 0 then x else x.endBy none i
  | .lease i => x.put i (exec (some <$> ReadLease.begin (.cache i)) x.world)
  | .leaseCurrent i =>
    x.put i (exec ((WorkUnit.prerender (some (.cache i))).run ReadLease.beginCurrent) x.world)
  | .release key =>
    match x.held? key with
    | some ⟨.cache i⟩ => { x with leases := x.leases.set key none }.endBy (some ⟨.cache i⟩) i
    | some ⟨.foreign _⟩ | none => x
  | .poll ready waker => { x with world := ((ready.poll waker).run x.world).2 }
  | .discard ready => { x with world := (exec ready.discard x.world).2 }
  | .wakerReturns => x.resume
  | .wakerPanics =>
    match x.endings with
    | [] => x
    | e :: endings => { x with endings, severed := e.lease.toList ++ x.severed }

def run (x : Session H) (dealings : List (Dealing H.Waker)) : Session H := dealings.foldl step x

def start (signals : Nat) (state : H.State) : Session H where
  world := { caches := Bank.idle signals, state }

/-! ### What the log tells of a session -/

/-- What holds of a session at every time. -/
structure Chronicled (signals : Nat) (x : Session H) : Prop where
  log : x.world.history.filterMap Event.occurrence? = account Foreign.reactions.watched x.done
  tells : ∀ i, i < signals →
    Tells Foreign.reactions.watched i x.world.caches (account Foreign.reactions.watched x.done)
  leases : ∀ i, Balances i x.world.history x.leases x.endings x.severed
  since : ∀ e ∈ x.endings, e.since <:+ x.world.history
  told : ∀ e ∈ x.endings, ∀ lease, e.lease = some lease → ∃ i, lease.signal = .cache i ∧
    (i < signals → ∃ o past, e.since = .cache o :: past ∧ o.call? = some (.endRead i))
  idle : x.world.units.borrows = 0

namespace Chronicled

variable {x : Session H} {signals : Nat}

theorem start (signals : Nat) (state : H.State) : Chronicled signals (start signals state) where
  log := rfl
  tells i hi := ⟨⟨{}, by simp [Session.start, Bank.idle, hi], rfl, rfl⟩, trivial⟩
  leases i := rfl
  since e he := by simp [Session.start] at he
  told e he := by simp [Session.start] at he
  idle := rfl

theorem does (hx : Chronicled signals x) (d : Duty H.Waker) : Chronicled signals (x.does d) where
  log := by
    rw [Session.does, account_cons, ← hx.log, World.does, List.filterMap_append]
    cases d.told? Foreign.reactions.watched x.world.caches <;> rfl
  tells i hi := by
    rw [Session.does, account_cons]
    exact (hx.tells i hi).apply d
  leases i := (hx.leases i).told _
  since e he := (hx.since e he).trans (List.suffix_append _ _)
  told := hx.told
  idle := hx.idle

/-- Nothing but the signals, the log and the use of the store matters of a world. -/
theorem of_world (hx : Chronicled signals x) {w : World H} (hcaches : w.caches = x.world.caches)
    (hhistory : w.history = x.world.history) (hborrows : w.units.borrows = x.world.units.borrows) :
    Chronicled signals { x with world := w } where
  log := hhistory ▸ hx.log
  tells := hcaches ▸ hx.tells
  leases := hhistory ▸ hx.leases
  since := hhistory ▸ hx.since
  told := hx.told
  idle := hborrows.trans hx.idle

/-- Who waits for a signal does not matter. -/
theorem set (hx : Chronicled signals x) {i : Nat} {s t : CacheSignal H.Waker}
    (hs : x.world.caches[i]? = some s) (hpending : t.pending = s.pending)
    (htotal : t.total = s.total) :
    Chronicled signals
      { x with world := { x.world with caches := x.world.caches.set i t } } where
  log := hx.log
  tells j hj := (hx.tells j hj).set hs hpending htotal
  leases := hx.leases
  since := hx.since
  told := hx.told
  idle := hx.idle

theorem keep (hx : Chronicled signals x) (i : Nat) : Chronicled signals (x.keep ⟨.cache i⟩) where
  log := hx.log
  tells := hx.tells
  leases j := (hx.leases j).begun i
  since e he := (hx.since e he).trans (List.suffix_cons _ _)
  told := hx.told
  idle := hx.idle

/-- The end in progress goes on, or its call is complete. -/
theorem resume (hx : Chronicled signals x) : Chronicled signals x.resume := by
  obtain ⟨w, leases, endings, severed, done⟩ := x
  rcases endings with _ | ⟨⟨lease, wakers, since⟩, endings⟩
  · exact hx
  have hsince := List.forall_mem_cons.mp hx.since
  have htold := List.forall_mem_cons.mp hx.told
  cases wakers with
  | cons waker wakers =>
    apply does
    exact { hx with
      since := List.forall_mem_cons.mpr hsince
      told := List.forall_mem_cons.mpr htold }
  | nil =>
    cases lease with
    | none =>
      exact { hx with
        since := hsince.2
        told := htold.2 }
    | some lease =>
      obtain ⟨i, hi, -⟩ := htold.1 lease rfl
      obtain ⟨signal⟩ := lease
      obtain rfl : signal = .cache i := hi
      exact { hx with
        leases := fun j => (hx.leases j).ended
        since := fun e he => (hsince.2 e he).trans (List.suffix_cons _ _)
        told := htold.2 }

theorem wakerPanics (hx : Chronicled signals x) : Chronicled signals (x.step .wakerPanics) := by
  obtain ⟨w, leases, endings, severed, done⟩ := x
  cases endings with
  | nil => exact hx
  | cons e endings =>
    exact { hx with
      leases := fun i => (hx.leases i).cut
      since := (List.forall_mem_cons.mp hx.since).2
      told := (List.forall_mem_cons.mp hx.told).2 }

theorem endBy_none (hx : Chronicled signals x) (i : Nat) : Chronicled signals (x.endBy none i) := by
  have hy := hx.does (.call (.endRead i))
  apply resume
  exact { hy with
    leases := fun j => (hy.leases j).direct _ _
    since := List.forall_mem_cons.mpr ⟨List.suffix_rfl, hy.since⟩
    told := List.forall_mem_cons.mpr ⟨nofun, hy.told⟩ }

theorem release (hx : Chronicled signals x) {key i : Nat} (hkey : x.held? key = some ⟨.cache i⟩) :
    Chronicled signals
      ({ x with leases := x.leases.set key none }.endBy (some ⟨.cache i⟩) i) := by
  have hy := hx.does (.call (.endRead i))
  apply resume
  exact { hy with
    leases := fun j => (hy.leases j).opened hkey _ _
    since := List.forall_mem_cons.mpr ⟨List.suffix_rfl, hy.since⟩
    told := by
      refine List.forall_mem_cons.mpr ⟨?_, hy.told⟩
      rintro lease ⟨⟩
      refine ⟨i, rfl, fun hi => ?_⟩
      obtain ⟨s, hs, -⟩ := (hx.tells i hi).counts
      obtain ⟨o, ho, hhistory⟩ := World.history_does (c := .endRead i) hs
      exact ⟨o, _, hhistory, ho⟩ }

end Chronicled

/-- How a lease on a signal is taken. -/
theorem step_lease (x : Session H) (i : Nat) :
    x.step (.lease i) = (x.does (.call (.beginRead i))).keep ⟨.cache i⟩ := by
  have hbegin : exec (some <$> ReadLease.begin (.cache i)) x.world =
      (.ok (some ⟨.cache i⟩), { x.world.settle [.call (.beginRead i)] with
        history := .leaseBegun (.cache i) :: (x.world.settle [.call (.beginRead i)]).history }) :=
    rfl
  have hsettle : x.world.settle [.call (.beginRead i)] = x.world.does (.call (.beginRead i)) :=
    (World.settle_cons ..).trans (World.settle_nil _)
  rw [step, hbegin, hsettle]
  rfl

/-- A lease on the signal of the current unit is the same, but for the use of the store. -/
theorem step_leaseCurrent (x : Session H) (hidle : x.world.units.borrows = 0) (i : Nat) :
    let y := x.step (.lease i)
    ∃ w : World H, w.caches = y.world.caches ∧ w.history = y.world.history ∧
      w.units.borrows = 0 ∧ x.step (.leaseCurrent i) = { y with world := w } := by
  have hrun : exec ((WorkUnit.prerender (some (.cache i))).run ReadLease.beginCurrent) x.world =
      _ := exec_run hidle (ReadLease.exec_beginCurrent _) hidle
  intro y
  refine ⟨(x.step (.leaseCurrent i)).world, ?_, ?_, ?_, ?_⟩
  all_goals rw [step, hrun]
  · rfl
  · rfl
  · exact hidle
  · rfl

theorem Chronicled.step {x : Session H} {signals : Nat} (hx : Chronicled signals x)
    (dealing : Dealing H.Waker) : Chronicled signals (x.step dealing) := by
  have hlease (i : Nat) : Chronicled signals (x.step (.lease i)) := by
    rw [step_lease]
    exact (hx.does _).keep i
  cases dealing with
  | beginRead i => exact hx.does _
  | endRead i => exact hx.endBy_none i
  | tryEndRead i =>
    rw [Session.step]
    split
    · exact hx
    · exact hx.endBy_none i
  | lease i => exact hlease i
  | leaseCurrent i =>
    obtain ⟨w, hcaches, hhistory, hidle, hw⟩ := x.step_leaseCurrent hx.idle i
    rw [hw]
    exact (hlease i).of_world hcaches hhistory (hidle.trans (hlease i).idle.symm)
  | release key =>
    rw [Session.step]
    split
    · next i hkey => exact hx.release hkey
    · exact hx
    · exact hx
  | poll ready waker =>
    rw [Session.step]
    cases hs : x.world.caches[ready.signal]? with
    | none =>
      rw [CacheReady.run_poll_of_none hs]
      exact hx
    | some s =>
      obtain ⟨hpending, htotal⟩ := CacheSignal.pollReady_counts s ready.ticket waker
      rw [CacheReady.run_poll hs]
      exact hx.set hs hpending htotal
  | discard ready =>
    rw [Session.step]
    cases hs : x.world.caches[ready.signal]? with
    | none =>
      rw [CacheReady.discard, exec_modify, hs]
      exact hx
    | some s =>
      rw [CacheReady.exec_discard hs]
      exact hx.set hs (by cases ready.ticket <;> rfl) (by cases ready.ticket <;> rfl)
  | wakerReturns => exact hx.resume
  | wakerPanics => exact hx.wakerPanics

theorem Chronicled.run {x : Session H} {signals : Nat} (hx : Chronicled signals x)
    (dealings : List (Dealing H.Waker)) : Chronicled signals (x.run dealings) := by
  induction dealings generalizing x with
  | nil => exact hx
  | cons dealing dealings ih => exact ih (hx.step dealing)

theorem severed_resume (x : Session H) : x.resume.severed = x.severed := by
  obtain ⟨w, leases, endings, severed, done⟩ := x
  rcases endings with _ | ⟨⟨_ | lease, _ | ⟨waker, wakers⟩, since⟩, endings⟩ <;> rfl

omit [Foreign H] in
theorem severed_put (x : Session H) (i : Nat)
    (made : Except (Panic H) (Option (ReadLease H.Signal)) × World H) :
    (x.put i made).severed = x.severed := by
  rcases made with ⟨_ | _ | _, w⟩ <;> rfl

/-- Only a panic cuts a release short. -/
theorem severed_step (x : Session H) {dealing : Dealing H.Waker} (h : dealing ≠ .wakerPanics) :
    (x.step dealing).severed = x.severed := by
  cases dealing with
  | beginRead | poll | discard => rfl
  | endRead | wakerReturns => exact severed_resume _
  | tryEndRead i =>
    rw [step]
    split
    · rfl
    · exact severed_resume _
  | lease | leaseCurrent => exact severed_put ..
  | release key =>
    rw [step]
    split
    · exact severed_resume _
    · rfl
    · rfl
  | wakerPanics => exact absurd rfl h

theorem severed_run (x : Session H) {dealings : List (Dealing H.Waker)}
    (h : ∀ dealing ∈ dealings, dealing ≠ .wakerPanics) : (x.run dealings).severed = x.severed := by
  induction dealings generalizing x with
  | nil => rfl
  | cons dealing dealings ih =>
    obtain ⟨hdealing, hrest⟩ := List.forall_mem_cons.mp h
    exact (ih (x.step dealing) hrest).trans (x.severed_step hdealing)

/-- The event of a lease comes after the one by which its signal tells of the same call. Where a lease
is taken, both come at once. Where it is released, the signal's comes at once, and that of the lease
completes the call, after the last waker. -/
structure LeasesLast (x : Session H) (i : Nat) : Prop where
  taken : ∀ dealing ∈ [.lease i, .leaseCurrent i], ∃ n, (x.step dealing).world.history =
    .leaseBegun (.cache i) :: .cache (.begun i n) :: x.world.history
  released : ∀ key, x.held? key = some ⟨.cache i⟩ → ∃ o, o.call? = some (.endRead i) ∧
    let y := x.step (.release key)
    let since := .cache o :: x.world.history
    (y.world.history = .leaseEnded (.cache i) :: since ∧ y.endings = x.endings) ∨
    ∃ w seen wakers, y.world.history = .cache (.woken w seen) :: since ∧
      y.endings = ⟨some ⟨.cache i⟩, wakers, since⟩ :: x.endings
  underway : ∀ e ∈ x.endings, e.lease = some ⟨.cache i⟩ →
    ∃ o past, o.call? = some (.endRead i) ∧ e.since = .cache o :: past ∧
      .cache o :: past <:+ x.world.history
  ended : ∀ since endings, x.endings = ⟨some ⟨.cache i⟩, [], since⟩ :: endings →
    (x.step .wakerReturns).world.history = .leaseEnded (.cache i) :: x.world.history ∧
      (x.step .wakerReturns).endings = endings

theorem Chronicled.leasesLast {x : Session H} {signals : Nat} (hx : Chronicled signals x) {i : Nat}
    (hi : i < signals) : x.LeasesLast i := by
  obtain ⟨s, hs, -⟩ := (hx.tells i hi).counts
  have htaken : (x.step (.lease i)).world.history =
      .leaseBegun (.cache i) :: .cache (.begun i (s.pending + 1)) :: x.world.history := by
    have hcount : x.world.caches.counts i = some s.pending := congrArg (Option.map _) hs
    rw [step_lease]
    simp only [Session.keep, record, Session.does, World.does, Duty.told?, hcount]
    rfl
  constructor
  · intro dealing hdealing
    refine ⟨s.pending + 1, ?_⟩
    rcases List.mem_cons.mp hdealing with rfl | hdealing
    · exact htaken
    · obtain rfl := List.mem_singleton.mp hdealing
      obtain ⟨w, -, hhistory, -, hw⟩ := x.step_leaseCurrent hx.idle i
      rw [hw]
      exact hhistory.trans htaken
  · intro key hkey
    obtain ⟨o, ho, hhistory⟩ := World.history_does (c := .endRead i) hs
    have hstep : x.step (.release key) =
        { x with leases := x.leases.set key none }.endBy (some ⟨.cache i⟩) i := by
      simp only [Session.step, hkey]
    refine ⟨o, ho, ?_⟩
    rw [hstep, endBy]
    simp only [Session.does, hhistory]
    cases roused x.world.caches i with
    | nil => exact .inl ⟨congrArg (Event.leaseEnded _ :: ·) hhistory, rfl⟩
    | cons w wakers =>
      right
      refine ⟨w, _, wakers, congrArg (Event.cache _ :: ·) hhistory, rfl⟩
  · intro e he hlease
    obtain ⟨j, hj, htold⟩ := hx.told e he _ hlease
    obtain rfl : i = j := by simpa using hj
    obtain ⟨o, past, hsince, ho⟩ := htold hi
    exact ⟨o, past, ho, hsince, hsince ▸ hx.since e he⟩
  · intro since endings hendings
    rw [Session.step, Session.resume, hendings]
    exact ⟨rfl, rfl⟩

/-! ### Wakers that only call the signals -/

/-- The duties that are due after the calls of the waker woken last, while some ends are in progress.
The code that made an end has further calls to make afterwards. -/
inductive Due : List (Ending H) → List (Duty H.Waker) → Prop
  | top : Due [] []
  | ending {wakers : List H.Waker} {since : List (Event H)} {endings : List (Ending H)}
      {duties : List (Duty H.Waker)} (calls : List ReadCall) (h : Due endings duties) :
      Due (⟨none, wakers, since⟩ :: endings) (wakeAll wakers ++ (callAll calls ++ duties))

/-- The world and the ends in progress after the wakers. -/
def settled (x : Session H) (duties : List (Duty H.Waker)) (endings : List (Ending H))
    (done : List (Bank H.Waker × Duty H.Waker)) : Session H :=
  { x with world := x.world.settle duties, endings, done }

theorem settled_does (x : Session H) (d : Duty H.Waker) (rest : List (Duty H.Waker))
    (endings : List (Ending H)) (done : List (Bank H.Waker × Duty H.Waker)) :
    (x.does d).settled (d.sequel Foreign.reactions x.world.caches ++ rest) endings done =
      x.settled (d :: rest) endings done := by
  simp only [settled, World.settle_cons]
  rfl

theorem sequel_endRead (bank : Bank ω) (reactions : Reactions ω) (i : Nat) :
    (Duty.call (.endRead i)).sequel reactions bank = wakeAll (roused bank i) := by
  rw [Duty.sequel, roused]
  cases (bank[i]?).bind (·.endRead?) <;> rfl

/-- What the wakers of a host do of their own accord is a session. -/
theorem exists_run_due (x : Session H) (calls : List ReadCall) {endings base : List (Ending H)}
    {duties : List (Duty H.Waker)} (h : Due endings duties) (hx : x.endings = endings ++ base) :
    ∃ dealings done, x.run dealings = x.settled (callAll calls ++ duties) base done := by
  have hlt (x : Session H) (d : Duty H.Waker) (rest : List (Duty H.Waker)) :=
    (d.step Foreign.reactions x.world.caches rest).measure_lt
  -- the waker woken last makes its calls first, and then the innermost end goes on
  match calls with
  | .beginRead i :: calls =>
    have hdone := hlt x (.call (.beginRead i)) (callAll calls ++ duties)
    obtain ⟨dealings, done, hrun⟩ := (x.does (.call (.beginRead i))).exists_run_due calls h hx
    exact ⟨.beginRead i :: dealings, done, hrun.trans (settled_does ..)⟩
  | .endRead i :: calls =>
    let d : Duty H.Waker := .call (.endRead i)
    have hsequel := sequel_endRead x.world.caches (Foreign.reactions (H := H)) i
    have hsettled := x.settled_does d (callAll calls ++ duties) base
    have hdone := hlt x d (callAll calls ++ duties)
    rw [hsequel] at hsettled hdone
    cases hw : roused x.world.caches i with
    | nil =>
      have hstep : x.step (.endRead i) = x.does d := by
        simp only [step, endBy, hw]
        rfl
      obtain ⟨dealings, done, hrun⟩ := (x.does d).exists_run_due calls h hx
      rw [hw] at hsettled
      refine ⟨.endRead i :: dealings, done, Eq.trans ?_ (hrun.trans (hsettled done))⟩
      exact congrArg (Session.run · dealings) hstep
    | cons w wakers =>
      let e : Ending H := ⟨none, wakers, (x.does d).world.history⟩
      let y : Session H := { x.does d with endings := e :: x.endings }
      have hstep : x.step (.endRead i) = y.does (.wake w) := by
        simp only [step, endBy, hw]
        rfl
      have hwoken := hlt y (.wake w) (wakeAll wakers ++ (callAll calls ++ duties))
      obtain ⟨dealings, done, hrun⟩ := (y.does (.wake w)).exists_run_due
        (Foreign.reactions.calls w y.world.caches) (.ending calls h) (congrArg (e :: ·) hx)
      rw [hw] at hsettled
      refine ⟨.endRead i :: dealings, done, Eq.trans ?_ (hrun.trans ?_)⟩
      · exact congrArg (Session.run · dealings) hstep
      · exact (y.settled_does (.wake w) _ base done).trans (hsettled done)
  | [] =>
    cases h with
    | top =>
      refine ⟨[], x.done, ?_⟩
      obtain rfl : x.endings = base := hx
      rw [settled, callAll, List.map_nil, List.nil_append, World.settle_nil]
      rfl
    | @ending wakers since endings duties calls h =>
      cases wakers with
      | nil =>
        let y : Session H := { x with endings := endings ++ base }
        have hstep : x.step .wakerReturns = y := by
          rw [step, resume, hx]
          rfl
        obtain ⟨dealings, done, hrun⟩ := y.exists_run_due calls h rfl
        refine ⟨.wakerReturns :: dealings, done, Eq.trans ?_ hrun⟩
        exact congrArg (Session.run · dealings) hstep
      | cons w wakers =>
        let y : Session H := { x with endings := ⟨none, wakers, since⟩ :: endings ++ base }
        have hstep : x.step .wakerReturns = y.does (.wake w) := by
          rw [step, resume, hx]
          rfl
        have hwoken := hlt x (.wake w) (wakeAll wakers ++ (callAll calls ++ duties))
        obtain ⟨dealings, done, hrun⟩ := (y.does (.wake w)).exists_run_due
          (Foreign.reactions.calls w y.world.caches) (.ending calls h) rfl
        refine ⟨.wakerReturns :: dealings, done, Eq.trans ?_ (hrun.trans ?_)⟩
        · exact congrArg (Session.run · dealings) hstep
        · exact y.settled_does (.wake w) _ base done
termination_by (measure (x.world.caches, callAll calls ++ duties), endings.length)
decreasing_by
  · exact .left _ _ hdone
  · rw [hsequel, hw] at hdone
    exact .left _ _ hdone
  · -- the end and the first wake are one step of the session, and two duties
    rw [hsequel, hw] at hdone
    exact .left _ _ (Prod.Lex.trans hwoken hdone)
  · subst_vars
    exact .right _ (Nat.lt_succ_self _)
  · subst_vars
    exact .left _ _ hwoken

/-- So is what calls on the signals set off, as the library runs it. -/
theorem exists_run_settle (x : Session H) (calls : List ReadCall) :
    ∃ dealings done, x.run dealings = { x with world := x.world.settle (callAll calls), done } := by
  obtain ⟨dealings, done, hrun⟩ := x.exists_run_due calls .top rfl
  rw [List.append_nil] at hrun
  exact ⟨dealings, done, hrun⟩

/-- The release of a lease is complete once its wakers have done what they do. -/
theorem exists_run_resume (x : Session H) {lease : ReadLease H.Signal} {since : List (Event H)}
    {base : List (Ending H)} (wakers : List H.Waker)
    (hx : x.endings = ⟨some lease, wakers, since⟩ :: base) :
    ∃ dealings done, x.resume.run dealings =
      (x.settled (wakeAll wakers) base done).record (.leaseEnded lease.signal) := by
  induction wakers generalizing x with
  | nil =>
    refine ⟨[], x.done, ?_⟩
    rw [resume, hx, settled, wakeAll, List.map_nil, World.settle_nil]
    rfl
  | cons w wakers ih =>
    let y : Session H := { x with endings := ⟨some lease, wakers, since⟩ :: base }
    have hresume : x.resume = y.does (.wake w) := by rw [resume, hx]
    obtain ⟨calls, done, hcalls⟩ :=
      (y.does (.wake w)).exists_run_settle (Foreign.reactions.calls w y.world.caches)
    obtain ⟨dealings, done', hrun⟩ := ih ((y.does (.wake w)).run calls) (by rw [hcalls]; rfl)
    refine ⟨calls ++ .wakerReturns :: dealings, done', ?_⟩
    rw [hresume, run, List.foldl_append, ← run]
    refine hrun.trans ?_
    have hsettle : x.world.settle (wakeAll (w :: wakers)) =
        ((y.does (.wake w)).world.settle (callAll (Foreign.reactions.calls w y.world.caches))).settle
          (wakeAll wakers) := by
      rw [← World.settle_append, wakeAll, List.map_cons, World.settle_cons]
      rfl
    rw [hcalls, settled, settled, hsettle]
    rfl

/-- And so is the release of a lease, as the library runs it. -/
theorem exists_run_release (x : Session H) {key i : Nat} (hkey : x.held? key = some ⟨.cache i⟩) :
    ∃ dealings done, x.run dealings =
      { x with
        world := (exec (ReadLease.mk (.cache i)).release x.world).2
        leases := x.leases.set key none
        done } := by
  let lease : ReadLease H.Signal := ⟨.cache i⟩
  let d : Duty H.Waker := .call (.endRead i)
  let wakers := roused x.world.caches i
  let y : Session H :=
    { x.does d with
      leases := x.leases.set key none
      endings := ⟨some lease, wakers, (x.does d).world.history⟩ :: x.endings }
  have hstep : x.step (.release key) = y.resume := by
    simp only [step, hkey]
    rfl
  have hsettle : x.world.settle [d] = y.world.settle (wakeAll wakers) := by
    rw [World.settle_cons, sequel_endRead, List.append_nil]
    rfl
  obtain ⟨dealings, done, hrun⟩ := y.exists_run_resume wakers rfl
  refine ⟨.release key :: dealings, done, ?_⟩
  have hlater : x.run (.release key :: dealings) = y.resume.run dealings :=
    congrArg (Session.run · dealings) hstep
  have hrelease : (exec lease.release x.world).2 =
      { x.world.settle [d] with
        history := .leaseEnded (.cache i) :: (x.world.settle [d]).history } := rfl
  rw [hlater, hrun, hrelease, hsettle]
  rfl

/-! ### The chronicle -/

/-- The log replays the counters, at every time, be it in the midst of waking. The events on a signal
lead from zero, each going on from the count before it, to the reads outstanding now. There are as
many begins as reads were begun, and one unpaired end for each end that found no read. The leases
that began and have not ended are the live ones, those whose wakers have not returned yet, and those
of which a waker panicked. The event of a lease comes after that of its signal in the same call. -/
theorem run_replays (signals : Nat) (state : H.State) (dealings : List (Dealing H.Waker))
    (i : Fin signals) :
    let x := (start signals state).run dealings
    let log := x.world.history.filterMap Event.occurrence?
    log = account Foreign.reactions.watched x.done ∧
      (∃ s, x.world.caches[i]? = some s ∧ s.pending = lastCount i log ∧ s.total = begunOn i log) ∧
      Continues Foreign.reactions.watched i log ∧
      unpairedOn i log = shortfalls i x.done ∧
      Balances i x.world.history x.leases x.endings x.severed ∧
      ((∀ dealing ∈ dealings, dealing ≠ .wakerPanics) → x.severed = []) ∧
      x.LeasesLast i := by
  intro x log
  have hx : Chronicled signals x := (Chronicled.start signals state).run dealings
  have htells := hx.tells i i.2
  rw [← hx.log] at htells
  refine ⟨hx.log, htells.counts, htells.continues, ?_, hx.leases i, ?_, hx.leasesLast i.2⟩
  · have hlog : log = account Foreign.reactions.watched x.done := hx.log
    rw [hlog]
    exact unpairedOn_account _ i x.done
  · exact severed_run _

end Session

/-- A host of one waker, which looks at the first signal. -/
def Host.listening : Host := ⟨Empty, Unit, Empty, Unit, Unit⟩

instance : Foreign Host.listening where
  beginRead := Empty.elim
  endRead := Empty.elim
  reactions := ⟨fun _ => some 0, fun _ _ => []⟩

/-- Someone waits while a lease is released, and takes and releases another one when woken, which
wakes the waiter again. Afterwards an end is one too many. -/
def reentering : List (Dealing Host.listening.Waker) :=
  [.lease 0, .poll { signal := 0 } (), .release 0, .lease 0, .poll { signal := 0 } (), .release 1,
    .wakerReturns, .wakerReturns, .endRead 0]

def reentered : Session Host.listening := (Session.start 1 ()).run reentering

theorem Session.run_replays_reentered :
    reentered.world.history.reverse = [.cache (.begun 0 1), .leaseBegun (.cache 0),
      .cache (.ended 0 0), .cache (.woken () (some 0)), .cache (.begun 0 1),
      .leaseBegun (.cache 0), .cache (.ended 0 0), .cache (.woken () (some 0)),
      .leaseEnded (.cache 0), .leaseEnded (.cache 0), .cache (.unpaired 0)] ∧
    reentered.endings = [] ∧ reentered.severed = [] ∧
    ∃ s, reentered.world.caches[0]? = some s ∧ s.pending = 0 ∧ s.total = 2 := by
  have hhistory : reentered.world.history = [.cache (.unpaired 0), .leaseEnded (.cache 0),
      .leaseEnded (.cache 0), .cache (.woken () (some 0)), .cache (.ended 0 0),
      .leaseBegun (.cache 0), .cache (.begun 0 1), .cache (.woken () (some 0)),
      .cache (.ended 0 0), .leaseBegun (.cache 0), .cache (.begun 0 1)] := by cbv
  obtain ⟨-, ⟨s, hs, hpending, htotal⟩, -, -, -, hsevered, -⟩ :=
    run_replays (H := Host.listening) 1 () reentering 0
  change s.pending = lastCount 0 (reentered.world.history.filterMap Event.occurrence?) at hpending
  change s.total = begunOn 0 (reentered.world.history.filterMap Event.occurrence?) at htotal
  rw [hhistory] at hpending htotal
  refine ⟨by rw [hhistory]; rfl, by cbv, hsevered (by simp [reentering]), s, hs, hpending, htotal⟩

/-- Someone waits while a lease is released. -/
def releasing : Session Host.listening :=
  (Session.start 1 ()).run [.lease 0, .poll { signal := 0 } (), .release 0]

/-- A lease that is released is no longer live, but while the wakers are woken its end has not been
logged, and if one of them panics it never will be. -/
theorem Session.release_severed :
    releasing.world.history = [.cache (.woken () (some 0)), .cache (.ended 0 0),
      .leaseBegun (.cache 0), .cache (.begun 0 1)] ∧
    ReadLease.live 0 releasing.leases = 0 ∧
    (releasing.step .wakerPanics).world.history = releasing.world.history ∧
    ReadLease.live 0 (releasing.step .wakerPanics).leases = 0 ∧
    (releasing.step .wakerPanics).endings = [] :=
  ⟨by cbv, by cbv, by cbv, by cbv, by cbv⟩

end ReadBarrier
