import ReadBarrier.Proofs.Cascade
import ReadBarrier.Proofs.Lot

/-!
Who is woken when a counting signal becomes quiescent: the library's own calls make the moves on a
signal, and the wakers that a move tells are woken.
-/

namespace ReadBarrier

section Calls

open Act Cascade Moved

variable {H : Host}

variable [Foreign H]

/-- The world after a move on signal `i` that leaves it as `s`, before anyone is woken. -/
def World.moved (w : World H) (i : Nat) (s : CacheSignal H.Waker) (moved : Moved H.Waker) :
    World H :=
  { w with caches := w.caches.set i s, history := (moved.log i).map .cache ++ w.history }

theorem World.settle_beginRead {w : World H} {i : Nat} {s : CacheSignal H.Waker}
    (hs : w.caches[i]? = some s) :
    w.settle [.call (.beginRead i)] = w.moved i s.beginRead (.begun s.beginRead.pending) := by
  simp [World.settle, Cascade.settle_beginRead _ hs, World.moved, log]

theorem World.settle_endRead_of_none {w : World H} {i : Nat} {s : CacheSignal H.Waker}
    (hs : w.caches[i]? = some s) (ht : s.endRead? = none) :
    w.settle [.call (.endRead i)] = w.moved i s .refused := by
  have hset : w.caches.set i s = w.caches := by
    obtain ⟨hi, rfl⟩ := List.getElem?_eq_some_iff.mp hs
    exact List.set_getElem_self hi
  simp [World.settle, Cascade.settle_endRead_of_none _ hs ht, World.moved, log, hset]

theorem World.settle_endRead_of_some {w : World H} {i : Nat} {s t : CacheSignal H.Waker}
    {wakers : List H.Waker} (hs : w.caches[i]? = some s) (ht : s.endRead? = some (t, wakers)) :
    w.settle [.call (.endRead i)] =
      (w.moved i t (.ended t.pending wakers)).settle (wakeAll wakers) := by
  simp [World.settle, Cascade.settle_endRead_of_some _ hs ht, World.moved, log]

theorem World.settle_nil (w : World H) : w.settle [] = w := by
  simp [World.settle, Cascade.settle]

/-- Makes a move on signal `i` with the calls that the library has for it. Answers with the tickets
afterwards and with the answer of a poll. -/
def Lot.perform (lot : Lot H.Waker) (i : Nat) :
    Move H.Waker → Act H ((Nat → Option Nat) × Option (Poll Unit))
  | .beginRead => do
    (SignalRef.cache i : SignalRef H.Signal).beginRead
    return (lot.ticket, none)
  | .endRead => do
    (SignalRef.cache i : SignalRef H.Signal).endRead
    return (lot.ticket, none)
  | .poll k v => do
    let (outcome, ready) ← (CacheReady.mk i (lot.ticket k)).poll v
    match outcome with
    | .ok answer => return (lot.setTicket k ready.ticket, some answer)
    | .error p => throw p
  | .drop k => do
    (CacheReady.mk i (lot.ticket k)).discard
    return (lot.setTicket k none, none)

/-- Every move changes its signal in one go and wakes its wakers after that. -/
theorem Lot.exec_perform (lot : Lot H.Waker) (move : Move H.Waker) {i : Nat} {w : World H}
    (hs : w.caches[i]? = some lot.signal) :
    exec (lot.perform i move) w =
      (.ok ((lot.step move).1.ticket, (lot.step move).2.answer?),
        (w.moved i (lot.step move).1.signal (lot.step move).2).settle
          (wakeAll (lot.step move).2.wakers)) := by
  cases move with
  | beginRead =>
    have hcall := World.settle_beginRead hs
    rw [perform, exec_bind, SignalRef.beginRead, exec_settle, hcall]
    exact congrArg _ (World.settle_nil _).symm
  | endRead =>
    rw [perform, exec_bind, SignalRef.endRead, exec_settle]
    cases ht : lot.signal.endRead? with
    | none =>
      rw [World.settle_endRead_of_none hs ht]
      simp only [step, ht]
      exact congrArg _ (World.settle_nil _).symm
    | some t =>
      rw [World.settle_endRead_of_some hs ht]
      simp only [step, ht]
      rfl
  | poll k v =>
    rw [perform, exec_bind, exec_lift, CacheReady.run_poll hs]
    exact congrArg _ (World.settle_nil _).symm
  | drop k =>
    rw [perform, exec_bind, CacheReady.exec_discard hs]
    exact congrArg _ (World.settle_nil _).symm

/-- No wake is lost, doubled or made up. The library's calls do to a signal, and to the futures that
wait for it, what the moves do; the wakers of a move are all woken after it, in order, and the wakes
in between are those of the signals which these wakers empty. What they do to the signal itself are
moves again. -/
theorem Lot.run_wakes_parked (moves : List (Move H.Waker)) :
    let lot := (Lot.run {} [] moves).1
    let trace := (Lot.run {} [] moves).2
    Fair lot trace ∧
      (∀ (w : World H) (i : Nat), w.caches[i]? = some lot.signal →
        (∀ move, exec (lot.perform i move) w =
          (.ok ((lot.step move).1.ticket, (lot.step move).2.answer?),
            (w.moved i (lot.step move).1.signal (lot.step move).2).settle
              (wakeAll (lot.step move).2.wakers))) ∧
        exec (tryEndRead i) w =
          if lot.signal.pending = 0 then (.ok (.error .unpairedEndRead), w)
          else (.ok (.ok ()), (exec (lot.perform i .endRead) w).2)) ∧
      ∀ (bank : Bank H.Waker) (wakers : List H.Waker),
        let after := (Cascade.settle Foreign.reactions bank (wakeAll wakers)).1
        let happened := (Cascade.settle Foreign.reactions bank (wakeAll wakers)).2
        wakers.Sublist (woken happened) ∧
          (woken happened).Perm (wakers ++ bank.wakersOf (emptied · happened)) ∧
          ∀ i, bank[i]? = some lot.signal → ∃ calls, Called lot trace calls i after happened := by
  obtain ⟨ks, hparks⟩ := Parks.empty.run moves
  refine ⟨hparks.fair, fun w i hs => ⟨fun move => exec_perform _ move hs, ?_⟩, fun bank wakers => ?_⟩
  · have hcount : (w.caches.counts i).getD 0 = (Lot.run {} [] moves).1.signal.pending := by
      simp [Bank.counts, hs]
    rw [exec_tryEndRead, hcount]
    rfl
  · have hsub := due_sublist_woken Foreign.reactions bank (wakeAll wakers)
    have hperm := woken_settle_perm Foreign.reactions bank (wakeAll wakers)
    rw [due_wakeAll] at hsub hperm
    exact ⟨hsub, hperm, fun i hs => called_settle Foreign.reactions bank (wakeAll wakers) _ hs⟩

end Calls

end ReadBarrier
