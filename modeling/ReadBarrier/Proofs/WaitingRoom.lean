import Mathlib.Data.List.Perm.Subperm
import Mathlib.Logic.ExistsUnique
import ReadBarrier.Proofs.EntryPoint
import ReadBarrier.Proofs.Parking

/-!
Who owns the entries in a list of waiters.

A future that waits stores the ticket of its entry, and the list may be emptied behind its back. So
many tickets have no entry any more. The other way round every entry has its future: a ticket is
given out once, and whoever goes takes its own entry along.
-/

namespace ReadBarrier

open Act

variable {H : Host} {ω : Type}

namespace CacheSignal

variable {s t : CacheSignal ω}

/-- The tickets in the list of waiters. -/
def tickets (s : CacheSignal ω) : List Nat := s.waiters.map (·.ticket)

/-- Entries may leave the list of waiters, and no ticket is given out. -/
structure Shrinks (s t : CacheSignal ω) : Prop where
  next : t.nextTicket = s.nextTicket
  sublist : t.tickets.Sublist s.tickets

/-- Entries leave the list of waiters, or the next ticket comes to its end. -/
def GoesOn (s t : CacheSignal ω) : Prop :=
  s.Shrinks t ∨ (t.nextTicket = s.nextTicket + 1 ∧ t.tickets = s.tickets ++ [s.nextTicket])

/-- The tickets rise along the list of waiters, and the next one is above them. -/
structure Ranked (s : CacheSignal ω) : Prop where
  ascending : s.tickets.Pairwise (· < ·)
  below : ∀ n ∈ s.tickets, n < s.nextTicket

theorem Shrinks.refl (s : CacheSignal ω) : s.Shrinks s := ⟨rfl, .refl _⟩

theorem Shrinks.trans {u : CacheSignal ω} (h : s.Shrinks t) (h' : t.Shrinks u) : s.Shrinks u :=
  ⟨h'.next.trans h.next, h'.sublist.trans h.sublist⟩

theorem GoesOn.refl (s : CacheSignal ω) : s.GoesOn s := .inl (.refl s)

theorem Ranked.goesOn (hs : s.Ranked) (h : s.GoesOn t) : t.Ranked := by
  rcases h with ⟨hnext, hsub⟩ | ⟨hnext, hadd⟩
  · constructor
    · exact hs.ascending.sublist hsub
    · intro n hn
      rw [hnext]
      exact hs.below n (hsub.subset hn)
  · constructor
    · rw [hadd]
      apply List.pairwise_append.mpr
      refine ⟨hs.ascending, List.pairwise_singleton _ _, ?_⟩
      intro n hn m hm
      obtain rfl := List.mem_singleton.mp hm
      exact hs.below n hn
    · intro n hn
      rw [hadd] at hn
      rw [hnext]
      rcases List.mem_append.mp hn with hn | hn
      · exact Nat.lt_succ_of_lt (hs.below n hn)
      · obtain rfl := List.mem_singleton.mp hn
        exact Nat.lt_succ_self _

/-- The tickets that come up are the next ones. -/
theorem Ranked.range_append (hs : s.Ranked) (h : s.GoesOn t) :
    List.range s.nextTicket ++ t.tickets.filter (· ∉ s.tickets) = List.range t.nextTicket := by
  rcases h with ⟨hnext, hsub⟩ | ⟨hnext, hadd⟩
  · have hnone : t.tickets.filter (· ∉ s.tickets) = [] := by
      apply List.filter_eq_nil_iff.mpr
      intro n hn
      simpa using hsub.subset hn
    rw [hnone, hnext, List.append_nil]
  · have hnew : s.nextTicket ∉ s.tickets := by
      intro hmem
      exact Nat.lt_irrefl _ (hs.below _ hmem)
    have hold : s.tickets.filter (· ∉ s.tickets) = [] := by
      apply List.filter_eq_nil_iff.mpr
      intro n hn
      simpa using hn
    rw [hadd, List.filter_append, hold, hnext, List.range_succ]
    simp [hnew]

theorem shrinks_of_endRead? {wakers : List ω} (h : s.endRead? = some (t, wakers)) :
    s.Shrinks t := by
  obtain ⟨-, -, hnext, hwaiters, -⟩ := endRead?_eq_some h
  refine ⟨hnext, ?_⟩
  simp only [tickets, hwaiters]
  split
  · exact List.nil_sublist _
  · exact .refl _

theorem shrinks_rewake (s : CacheSignal ω) (n : Nat) (waker : ω) :
    s.Shrinks (s.rewake n waker) := by
  have hsame : (s.rewake n waker).tickets = s.tickets := by
    simp only [tickets, rewake, List.map_map]
    apply List.map_congr_left
    intro x _
    by_cases hx : x.ticket = n <;> simp [hx]
  exact ⟨rfl, hsame ▸ .refl _⟩

theorem goesOn_register (s : CacheSignal ω) (waker : ω) : s.GoesOn (s.register waker) :=
  .inr ⟨rfl, by simp [tickets, register]⟩

theorem goesOn_pollReady (s : CacheSignal ω) (ticket : Option Nat) (waker : ω) :
    s.GoesOn (s.pollReady ticket waker).2.2 := by
  simp only [pollReady]
  split
  · exact .refl s
  · split
    · exact .inl (shrinks_rewake s _ waker)
    · exact goesOn_register s waker

theorem shrinks_abandon (s : CacheSignal ω) (ticket : Option Nat) :
    s.Shrinks (s.abandon ticket) := by
  cases ticket with
  | none => exact .refl s
  | some n => exact ⟨rfl, List.filter_sublist.map _⟩

end CacheSignal

namespace Lot

variable {lot : Lot ω} {move : Move ω}

/-- A begin or an end makes no entry. -/
theorem shrinks_step (h : move = .beginRead ∨ move = .endRead) :
    lot.signal.Shrinks (lot.step move).1.signal := by
  rcases h with rfl | rfl
  · exact ⟨rfl, .refl _⟩
  · simp only [step]
    split
    · exact .refl _
    · next hs => exact CacheSignal.shrinks_of_endRead? hs

theorem shrinks_run {moves : List (Move ω)}
    (h : ∀ move ∈ moves, move = .beginRead ∨ move = .endRead) (lot : Lot ω) (trace : List (Moved ω)) :
    lot.signal.Shrinks (lot.run trace moves).1.signal := by
  induction moves generalizing lot trace with
  | nil => exact .refl _
  | cons move moves ih =>
    obtain ⟨hmove, hmoves⟩ := List.forall_mem_cons.mp h
    exact (shrinks_step hmove).trans (ih hmoves _ _)

theorem goesOn_step (lot : Lot ω) (move : Move ω) :
    lot.signal.GoesOn (lot.step move).1.signal := by
  cases move with
  | beginRead => exact .inl (shrinks_step (.inl rfl))
  | endRead => exact .inl (shrinks_step (.inr rfl))
  | poll k waker => exact CacheSignal.goesOn_pollReady lot.signal (lot.ticket k) waker
  | drop k => exact .inl (CacheSignal.shrinks_abandon lot.signal (lot.ticket k))

end Lot

/-- What can be done to counting signals and to the futures that wait for them. The futures are
given by keys, in the order in which they were made. -/
inductive Errand (ω : Type) where
  /-- A begin or an end, with all that the end sets off. -/
  | call (call : ReadCall)
  | tryEndRead (signal : Nat)
  /-- The part of an end that no other thread sees half done. Whoever is to be woken after it is
  woken by errands of their own, and other errands may come in between. -/
  | drain (signal : Nat)
  | wake (waker : ω)
  | newReady (signal : Nat)
  | poll (key : Nat) (waker : ω)
  | drop (key : Nat)

/-- A world, and the futures that were made in it to wait for its counting signals. Those that were
dropped are gone. -/
structure WaitingRoom (H : Host) where
  world : World H
  futures : List (Option CacheReady) := []

namespace WaitingRoom

/-- Some signals on which nothing has happened, and nobody who waits. -/
def start (signals : Nat) (state : H.State) : WaitingRoom H where
  world := { caches := List.replicate signals {}, state }

section Run

variable [Foreign H]

def step (room : WaitingRoom H) : Errand H.Waker → WaitingRoom H
  | .call (.beginRead i) =>
    { room with world := (exec (SignalRef.cache i : SignalRef H.Signal).beginRead room.world).2 }
  | .call (.endRead i) =>
    { room with world := (exec (SignalRef.cache i : SignalRef H.Signal).endRead room.world).2 }
  | .tryEndRead i => { room with world := (exec (ReadBarrier.tryEndRead i) room.world).2 }
  | .drain i =>
    match room.world.caches[i]?.bind (·.endRead?) with
    | none => room
    | some (s, _) => { room with world.caches := room.world.caches.set i s }
  | .wake waker => { room with world := (exec (ReadBarrier.wake waker) room.world).2 }
  | .newReady i => { room with futures := room.futures ++ [some { signal := i }] }
  | .poll k waker =>
    match room.futures[k]? with
    | some (some r) =>
      let polled := (r.poll waker).run room.world
      ⟨polled.2, room.futures.set k (some polled.1.2)⟩
    | _ => room
  | .drop k =>
    match room.futures[k]? with
    | some (some r) => ⟨(exec r.discard room.world).2, room.futures.set k none⟩
    | _ => room

def run (room : WaitingRoom H) (errands : List (Errand H.Waker)) : WaitingRoom H :=
  errands.foldl step room

/-- The tickets in the list of a signal. -/
def listed (room : WaitingRoom H) (i : Nat) : List Nat :=
  match room.world.caches[i]? with
  | some s => s.tickets
  | none => []

/-- The tickets that come up in the list of a signal, each time that an entry is made. -/
def issued (i : Nat) : WaitingRoom H → List (Errand H.Waker) → List Nat
  | _, [] => []
  | room, errand :: errands =>
    ((room.step errand).listed i).filter (· ∉ room.listed i) ++ issued i (room.step errand) errands

end Run

/-- The ticket that a future has stored, if it is alive and waits for signal `i`. -/
def ticket? (room : WaitingRoom H) (i k : Nat) : Option Nat :=
  match room.futures[k]? with
  | some (some r) => if r.signal = i then r.ticket else none
  | _ => none

/-- Whether an entry in the list of signal `i` is that of future `k`. -/
def owns (room : WaitingRoom H) (i k : Nat) (x : Waiter H.Waker) : Bool :=
  room.ticket? i k == some x.ticket

/-- The keys of the futures that are alive and wait for signal `i`. -/
def live (room : WaitingRoom H) (i : Nat) : List Nat :=
  (List.range room.futures.length).filter fun k =>
    room.futures[k]?.any fun future => future.any (·.signal == i)

/-- A signal's list of waiters agrees with the futures that wait for it. -/
structure Accounted [Foreign H] (room : WaitingRoom H) (i : Nat) (s : CacheSignal H.Waker) :
    Prop where
  /-- Nobody is listed while no read is outstanding. -/
  idle : s.pending = 0 → s.waiters = []
  ascending : s.waiters.Pairwise (·.ticket < ·.ticket)
  below : ∀ x ∈ s.waiters, x.ticket < s.nextTicket
  /-- Each entry is owned by one future that is alive, and by no other. -/
  owner : ∀ x ∈ s.waiters, ∃! k, k ∈ room.live i ∧ room.owns i k x
  single : ∀ k, (s.waiters.filter (room.owns i k)).length ≤ 1
  fits : s.waiters.length ≤ (room.live i).length
  /-- The list is empty when the futures are gone. -/
  gone : room.live i = [] → s.waiters = []
  /-- A future that goes takes the entry that it owns along, if there is one, and no other. What it
  has stored may be out of date. -/
  drop : ∀ k, (room.step (.drop k)).world.caches[i]? =
    some { s with waiters := s.waiters.filter (!room.owns i k ·) }

/-- A signal with the futures that wait for it. -/
def lot (room : WaitingRoom H) (i : Nat) (s : CacheSignal H.Waker) : Lot H.Waker :=
  ⟨s, room.ticket? i⟩

section Tickets

variable {futures : List (Option CacheReady)} {i k : Nat}

theorem ticket?_set (hk : k < futures.length) (w : World H) (future : Option CacheReady)
    (i j : Nat) : ticket? ⟨w, futures.set k future⟩ i j =
      if j = k then future.bind fun r => if r.signal = i then r.ticket else none
      else ticket? ⟨w, futures⟩ i j := by
  by_cases hj : j = k
  · subst hj
    simp only [ticket?, List.getElem?_set_self hk, ↓reduceIte]
    cases future <;> rfl
  · simp [ticket?, Ne.symm hj, hj]

/-- A future of another signal may change as it likes. -/
theorem ticket?_set_of_ne {r : CacheReady} (hr : futures[k]? = some (some r)) (hi : r.signal ≠ i)
    (w : World H) {future : Option CacheReady} (hfuture : ∀ r', future = some r' → r'.signal ≠ i)
    (j : Nat) : ticket? ⟨w, futures.set k future⟩ i j = ticket? ⟨w, futures⟩ i j := by
  rw [ticket?_set (List.getElem?_eq_some_iff.mp hr).1]
  split
  · next hj =>
    subst hj
    cases future with
    | none => simp [ticket?, hr, hi]
    | some r' => simp [ticket?, hr, hi, hfuture r' rfl]
  · rfl

theorem ticket?_append (futures : List (Option CacheReady)) (w : World H) (i j k : Nat) :
    ticket? ⟨w, futures ++ [some { signal := j }]⟩ i k = ticket? ⟨w, futures⟩ i k := by
  rcases Nat.lt_trichotomy k futures.length with hk | hk | hk
  · simp [ticket?, List.getElem?_append_left hk]
  · subst hk
    simp [ticket?]
  · have hnone : futures[k]? = none := List.getElem?_eq_none (by omega)
    have hafter : (futures ++ [some { signal := j }])[k]? = none :=
      List.getElem?_eq_none (by simp; omega)
    simp [ticket?, hnone, hafter]

theorem mem_live_iff {room : WaitingRoom H} :
    k ∈ room.live i ↔ ∃ r, room.futures[k]? = some (some r) ∧ r.signal = i := by
  simp only [live, List.mem_filter, List.mem_range, Option.any_eq_true, beq_iff_eq]
  constructor
  · rintro ⟨-, _, hk, r, rfl, hr⟩
    exact ⟨r, hk, hr⟩
  · rintro ⟨r, hk, hr⟩
    exact ⟨(List.getElem?_eq_some_iff.mp hk).1, some r, hk, r, rfl, hr⟩

/-- Only a future that is alive has a ticket. -/
theorem mem_live_of_ticket? {room : WaitingRoom H} {n : Nat} (h : room.ticket? i k = some n) :
    k ∈ room.live i := by
  simp only [ticket?] at h
  split at h
  · next r hr =>
    split at h
    · next hi => exact mem_live_iff.mpr ⟨r, hr, hi⟩
    · simp at h
  · simp at h

end Tickets

section Step

variable {room after : WaitingRoom H} {i : Nat} {s : CacheSignal H.Waker}

/-- What became of signal `i` and of the futures that wait for it is the work of moves. -/
def Advances (i : Nat) (s : CacheSignal H.Waker) (room after : WaitingRoom H) : Prop :=
  ∀ trace, ∃ moves t, after.world.caches[i]? = some t ∧ s.GoesOn t ∧
    ((room.lot i s).run trace moves).1 = after.lot i t

/-- A future that goes gives up its own ticket, whatever that is. -/
theorem caches_drop [Foreign H] (hs : room.world.caches[i]? = some s) (k : Nat) :
    (room.step (.drop k)).world.caches[i]? = some (s.abandon (room.ticket? i k)) := by
  simp only [step, ticket?]
  split
  · next r hr =>
    by_cases hi : r.signal = i
    · subst hi
      rw [CacheReady.exec_discard hs, if_pos rfl]
      exact List.getElem?_set_self (List.getElem?_eq_some_iff.mp hs).1
    · rw [CacheReady.discard, exec_modify, if_neg hi]
      cases room.world.caches[r.signal]? with
      | none => exact hs
      | some t => exact (List.getElem?_set_ne hi).trans hs
  · exact hs

theorem ticket?_drop [Foreign H] (room : WaitingRoom H) (i k j : Nat) :
    (room.step (.drop k)).ticket? i j = if j = k then none else room.ticket? i j := by
  simp only [step]
  split
  · next r hr => exact ticket?_set (List.getElem?_eq_some_iff.mp hr).1 _ none i j
  · next hnone =>
    split
    · next hj =>
      subst hj
      unfold ticket?
      split
      · next r hr => exact absurd hr (hnone r)
      · rfl
    · rfl

theorem abandon_ticket? (room : WaitingRoom H) (i k : Nat) (s : CacheSignal H.Waker) :
    s.abandon (room.ticket? i k) = { s with waiters := s.waiters.filter (!room.owns i k ·) } := by
  unfold owns
  cases room.ticket? i k with
  | none => simp [CacheSignal.abandon]
  | some n => simp [CacheSignal.abandon, CacheSignal.deregister, bne, BEq.comm]

namespace Advances

theorem still (hs : after.world.caches[i]? = some s)
    (hticket : ∀ k, after.ticket? i k = room.ticket? i k) : Advances i s room after := by
  intro trace
  refine ⟨[], s, hs, .refl s, ?_⟩
  exact congrArg (Lot.mk s) (funext hticket).symm

theorem move (move : Move H.Waker)
    (ht : after.world.caches[i]? = some ((room.lot i s).step move).1.signal)
    (hticket : ∀ k, after.ticket? i k = ((room.lot i s).step move).1.ticket k) :
    Advances i s room after := by
  intro trace
  refine ⟨[move], _, ht, Lot.goesOn_step (room.lot i s) move, ?_⟩
  exact congrArg (Lot.mk _) (funext hticket).symm

variable [Foreign H]

/-- What is set off on all the signals does begins and ends on this one. -/
theorem settle (hs : room.world.caches[i]? = some s) (duties : List (Duty H.Waker)) :
    Advances i s room { room with world := room.world.settle duties } := by
  intro trace
  have hlot : room.world.caches[i]? = some (room.lot i s).signal := hs
  obtain ⟨moves, hmoves⟩ := Lot.called_settle Foreign.reactions room.world.caches duties trace hlot
  refine ⟨moves, _, hmoves.signal, .inl (Lot.shrinks_run hmoves.reads (room.lot i s) trace), ?_⟩
  exact congrArg (Lot.mk _) hmoves.ticket

theorem tryEndRead (hs : room.world.caches[i]? = some s) (j : Nat) :
    Advances i s room (room.step (.tryEndRead j)) := by
  simp only [step, exec_tryEndRead]
  split
  · exact still hs fun _ => rfl
  · exact settle hs _

theorem drain (hs : room.world.caches[i]? = some s) (j : Nat) :
    Advances i s room (room.step (.drain j)) := by
  simp only [step]
  split
  · exact still hs fun _ => rfl
  · next t wakers ht =>
    by_cases hj : j = i
    · subst hj
      rw [hs] at ht
      replace ht : s.endRead? = some (t, wakers) := ht
      have hstep : ((room.lot j s).step .endRead).1 = ⟨t, room.ticket? j⟩ := by
        simp [Lot.step, lot, ht]
      have hj := (List.getElem?_eq_some_iff.mp hs).1
      apply move .endRead
      · rw [hstep]
        exact List.getElem?_set_self hj
      · intro k
        rw [hstep]
        rfl
    · apply still
      · exact (List.getElem?_set_ne hj).trans hs
      · exact fun _ => rfl

theorem newReady (hs : room.world.caches[i]? = some s) (j : Nat) :
    Advances i s room (room.step (.newReady j)) :=
  still hs fun k => ticket?_append room.futures room.world i j k

theorem poll (hs : room.world.caches[i]? = some s) (k : Nat) (waker : H.Waker) :
    Advances i s room (room.step (.poll k waker)) := by
  simp only [step]
  split
  · next r hr =>
    have hk := (List.getElem?_eq_some_iff.mp hr).1
    by_cases hi : r.signal = i
    · subst hi
      have hticket : room.ticket? r.signal k = r.ticket := by simp [ticket?, hr]
      have hi := (List.getElem?_eq_some_iff.mp hs).1
      rw [CacheReady.run_poll hs]
      apply move (.poll k waker)
      · simp only [Lot.step, lot, hticket]
        exact List.getElem?_set_self hi
      · intro j
        rw [ticket?_set hk]
        simp only [Lot.step, Lot.setTicket, lot, hticket, Option.bind_some, ↓reduceIte]
        rfl
    · -- The poll is one of another signal, and may register there.
      cases hj : room.world.caches[r.signal]? with
      | none =>
        rw [CacheReady.run_poll_of_none hj]
        refine still hs (ticket?_set_of_ne hr hi _ ?_)
        rintro _ ⟨⟩
        exact hi
      | some t =>
        rw [CacheReady.run_poll hj]
        apply still
        · exact (List.getElem?_set_ne hi).trans hs
        · apply ticket?_set_of_ne hr hi
          rintro _ ⟨⟩
          exact hi
  · exact still hs fun _ => rfl

theorem drop (hs : room.world.caches[i]? = some s) (k : Nat) :
    Advances i s room (room.step (.drop k)) := by
  apply move (.drop k)
  · exact caches_drop hs k
  · intro j
    exact ticket?_drop room i k j

end Advances

theorem advances_step [Foreign H] (hs : room.world.caches[i]? = some s)
    (errand : Errand H.Waker) : Advances i s room (room.step errand) := by
  cases errand with
  | call call => cases call <;> exact Advances.settle hs _
  | tryEndRead j => exact Advances.tryEndRead hs j
  | drain j => exact Advances.drain hs j
  | wake waker => exact Advances.settle hs [.wake waker]
  | newReady j => exact Advances.newReady hs j
  | poll k waker => exact Advances.poll hs k waker
  | drop k => exact Advances.drop hs k

end Step

/-- What every errand keeps for a signal and its futures. -/
structure Orderly (room : WaitingRoom H) (i : Nat) (s : CacheSignal H.Waker) : Prop where
  here : room.world.caches[i]? = some s
  parks : ∃ trace ks, (room.lot i s).Parks trace ks
  ranked : s.Ranked

namespace Orderly

variable {room : WaitingRoom H} {i : Nat} {s : CacheSignal H.Waker}

theorem start {signals : Nat} (state : H.State) (hi : i < signals) :
    (start signals state).Orderly i {} where
  here := by simp [WaitingRoom.start, hi]
  parks := ⟨[], [], Lot.Parks.empty⟩
  ranked := ⟨.nil, by simp [CacheSignal.tickets]⟩

/-- Each entry is that of a future, and no other future has its ticket. -/
theorem owner (h : room.Orderly i s) {x : Waiter H.Waker} (hx : x ∈ s.waiters) :
    ∃! k, k ∈ room.live i ∧ room.owns i k x := by
  obtain ⟨trace, ks, hparks⟩ := h.parks
  have hmem := List.mem_map_of_mem (f := fun x => (some x.ticket, some x.waker)) hx
  rw [show s = (room.lot i s).signal from rfl, hparks.listed] at hmem
  obtain ⟨k, -, hk⟩ := List.mem_map.mp hmem
  have hticket : room.ticket? i k = some x.ticket := congrArg Prod.fst hk
  refine ⟨k, ⟨mem_live_of_ticket? hticket, beq_iff_eq.mpr hticket⟩, ?_⟩
  rintro j ⟨-, hj⟩
  exact hparks.distinct j k x.ticket (beq_iff_eq.mp hj) hticket

theorem ascending (h : room.Orderly i s) : s.waiters.Pairwise (·.ticket < ·.ticket) :=
  List.pairwise_map.mp h.ranked.ascending

theorem single (h : room.Orderly i s) (k : Nat) :
    (s.waiters.filter (room.owns i k)).length ≤ 1 := by
  have hpair := h.ascending.filter (room.owns i k)
  cases hw : s.waiters.filter (room.owns i k) with
  | nil => exact Nat.zero_le 1
  | cons x rest =>
    cases rest with
    | nil => exact Nat.le_refl 1
    | cons y rest =>
      have howns : ∀ z ∈ s.waiters.filter (room.owns i k), room.ticket? i k = some z.ticket :=
        fun z hz => beq_iff_eq.mp (List.mem_filter.mp hz).2
      rw [hw] at howns hpair
      have hlt := (List.pairwise_cons.mp hpair).1 y (by simp)
      have hx := howns x (by simp)
      have hy := howns y (by simp)
      have heq := Option.some.inj (hx.symm.trans hy)
      omega

theorem fits (h : room.Orderly i s) : s.waiters.length ≤ (room.live i).length := by
  obtain ⟨trace, ks, hparks⟩ := h.parks
  have hlength : s.waiters.length = ks.length := by
    have hlisted := congrArg List.length hparks.listed
    rwa [List.length_map, List.length_map] at hlisted
  have hnodup : ks.Nodup := hparks.ordered.imp fun hlt heq => by
    subst heq
    exact Nat.lt_irrefl _ hlt
  have hsub : ks ⊆ room.live i := by
    intro k hk
    obtain ⟨n, hn⟩ := hparks.ticket_isSome hk
    exact mem_live_of_ticket? hn
  rw [hlength]
  exact (List.subperm_of_subset hnodup hsub).length_le

variable [Foreign H]

theorem step (h : room.Orderly i s) (errand : Errand H.Waker) :
    ∃ t, (room.step errand).Orderly i t ∧ s.GoesOn t := by
  obtain ⟨trace, ks, hparks⟩ := h.parks
  obtain ⟨moves, t, ht, hgoes, hrun⟩ := advances_step h.here errand trace
  obtain ⟨ks', hparks'⟩ := hparks.run moves
  rw [hrun] at hparks'
  exact ⟨t, ⟨ht, ⟨_, ks', hparks'⟩, h.ranked.goesOn hgoes⟩, hgoes⟩

/-- The tickets that come up in a run are those from the next one on, each once and in order. -/
theorem run (h : room.Orderly i s) (errands : List (Errand H.Waker)) :
    ∃ t, (room.run errands).Orderly i t ∧
      List.range s.nextTicket ++ room.issued i errands = List.range t.nextTicket := by
  induction errands generalizing room s with
  | nil => exact ⟨s, h, List.append_nil _⟩
  | cons errand errands ih =>
    obtain ⟨t, ht, hgoes⟩ := h.step errand
    obtain ⟨u, hu, hissued⟩ := ih ht
    refine ⟨u, hu, ?_⟩
    have hrange := h.ranked.range_append hgoes
    simp only [issued, listed, h.here, ht.here]
    rw [← List.append_assoc, hrange, hissued]

theorem accounted (h : room.Orderly i s) : room.Accounted i s where
  idle hz := by
    obtain ⟨trace, ks, hparks⟩ := h.parks
    have hlisted := hparks.listed
    rw [hparks.idle hz] at hlisted
    exact List.map_eq_nil_iff.mp hlisted
  ascending := h.ascending
  below x hx := h.ranked.below x.ticket (List.mem_map_of_mem hx)
  owner _ := h.owner
  single := h.single
  fits := h.fits
  gone hnone := by
    have hfits := h.fits
    rw [hnone] at hfits
    exact List.length_eq_zero_iff.mp (Nat.le_zero.mp hfits)
  drop k := (caches_drop h.here k).trans (congrArg some (abandon_ticket? room i k s))

end Orderly

section Result

variable [Foreign H]

/-- Whatever is done to counting signals and to the futures that wait for them, in whatever order:
the list of waiters of each signal agrees with the futures, and the tickets were given out one after
the other, none of them twice. -/
theorem run_accounted (signals : Nat) (state : H.State) (errands : List (Errand H.Waker)) {i : Nat}
    (hi : i < signals) :
    let room := (start signals state).run errands
    ∃ s, room.world.caches[i]? = some s ∧ room.Accounted i s ∧
      (start signals state).issued i errands = List.range s.nextTicket := by
  obtain ⟨s, hs, hissued⟩ := (Orderly.start state hi).run errands
  exact ⟨s, hs.here, hs.accounted, hissued⟩

theorem step_beginRead {room : WaitingRoom H} {i : Nat} {s : CacheSignal H.Waker}
    (hs : room.world.caches[i]? = some s) :
    room.step (.call (.beginRead i)) =
      ⟨room.world.moved i s.beginRead (.begun s.beginRead.pending), room.futures⟩ :=
  congrArg (WaitingRoom.mk · room.futures) (World.settle_beginRead hs)

/-- Two futures wait. The first is dropped when the entry of its ticket is gone and the second is
listed. -/
def staleDrop : List (Errand Host.noting.Waker) :=
  [.call (.beginRead 0), .newReady 0, .newReady 0, .poll 0 (), .drain 0, .call (.beginRead 0),
    .poll 1 (), .drop 0]

theorem run_accounted_staleDrop :
    0 < 1 ∧ ((start (H := Host.noting) 1 ()).run staleDrop).listed 0 = [1] ∧
      ∃ s, ((start (H := Host.noting) 1 ()).run staleDrop).world.caches[0]? = some s ∧
        ((start (H := Host.noting) 1 ()).run staleDrop).Accounted 0 s ∧
        (start (H := Host.noting) 1 ()).issued 0 staleDrop = List.range s.nextTicket := by
  refine ⟨by decide, ?_, ?_⟩
  · have hfirst : (start (H := Host.noting) 1 ()).step (.call (.beginRead 0)) = _ :=
      step_beginRead rfl
    simp only [run, staleDrop, List.foldl_cons, List.foldl_nil]
    rw [hfirst, step_beginRead (s := { total := 1, nextTicket := 1 })]
    · rfl
    · rfl
  · exact run_accounted (H := Host.noting) 1 () staleDrop (by decide)

end Result

end WaitingRoom

end ReadBarrier
