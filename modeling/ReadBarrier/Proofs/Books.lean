import ReadBarrier.Proofs.Ledger

/-!
The barrier: a counting signal is quiescent exactly when the reads that foreign code began itself are
ended and no lease is left.

The books of a signal are kept by all that the library does, with foreign code that keeps them.
-/

namespace ReadBarrier.Script

open Act Cascade ReadCall

variable {σ ω α β φ : Type}

/-! ### Leases and where they are held -/

/-- How much a lease adds to the leases on signal `i`. -/
def leaseOn (i : Nat) : Option (ReadLease σ) → Nat
  | some ⟨.cache j⟩ => if j = i then 1 else 0
  | some ⟨.foreign _⟩ | none => 0

/-- The leases on signal `i` that a future holds. -/
def leasesIn (i : Nat) : LoadFuture σ φ → Nat
  | .raw _ => 0
  | .tracked ⟨inner, lease⟩ => leasesIn i inner + leaseOn i lease

/-- The leases on signal `i` that a tracked import holds. -/
def leasesOf (i : Nat) (t : TrackedImport σ (LoadFuture σ φ)) : Nat :=
  leasesIn i t.inner + leaseOn i t.lease

/-- The leases on signal `i` in pending work that may be there. -/
def leasesAny (weight : φ → Nat) (work : Option φ) : Nat := (work.map weight).getD 0

def Shelf.weigh (weight : β → Nat) : Shelf β → Nat
  | [] => 0
  | (_, b) :: shelf => Shelf.weigh weight shelf + weight b

/-- The leases on signal `i` that foreign code holds, those inside of futures included. -/
def Stock.live (i : Nat) (s : Stock σ ω) : Nat :=
  Shelf.weigh (fun lease => leaseOn i (some lease)) s.leases + Shelf.weigh (leasesIn i) s.futures

theorem Shelf.weigh_take (weight : β → Nat) (key : Nat) (shelf : Shelf β) :
    Shelf.weigh weight (Shelf.take key shelf).2 + leasesAny weight (Shelf.take key shelf).1 =
      Shelf.weigh weight shelf := by
  induction shelf with
  | nil => rfl
  | cons entry shelf ih =>
    obtain ⟨k, b⟩ := entry
    by_cases hk : k = key
    · simp [take, hk, weigh, leasesAny]
    · simp only [take, hk, ↓reduceIte, weigh]
      omega

/-! ### The books of a signal -/

/-- How a signal stands after a log. Its reads are those of the calls and those of the leases. -/
structure Tallies (i : Nat) (s : CacheSignal ω) (h : List (Event (host σ ω))) : Prop where
  total : s.total = begins i (calls h) + leased i h
  pending : Covered i (calls h) →
    s.pending + ends i (calls h) + returned i h = begins i (calls h) + leased i h
  paired : Covered i (calls h) → complaints i h = 0

/-- All the signal's reads were begun by foreign code itself or for a lease. As long as foreign code
made no more ends than begins, those outstanding are its own and those of the leases that have not
ended, no end was reported as unpaired, and a future that waits for the signal, polled now, is ready
exactly if there is no read of either sort, and otherwise pending. -/
def Balanced (i : Nat) (bank : Bank ω) (h : List (Event (host σ ω))) : Prop :=
  ∃ s, bank[i]? = some s ∧ s.total = begins i (calls h) + leased i h ∧
    (Covered i (calls h) →
      s.pending = (begins i (calls h) - ends i (calls h)) + (leased i h - returned i h) ∧
      ends i (calls h) ≤ begins i (calls h) ∧ returned i h ≤ leased i h ∧ complaints i h = 0 ∧
      ∀ (w : World (host σ ω)) (ready : CacheReady) (waker : ω),
        w.caches = bank → ready.signal = i →
        ((ready.poll waker).run w).1.1 =
          if begins i (calls h) = ends i (calls h) ∧ leased i h = returned i h then .ok (.ready ())
          else .ok .pending)

/-- After each operation in a log, the signal was balanced. -/
def Sound (i : Nat) : List (Event (host σ ω)) → Prop
  | [] => True
  | .note (.moment bank) :: h => Balanced i bank h ∧ Sound i h
  | _ :: h => Sound i h

/-- The books of a signal are in order, while `held` leases on it are neither with foreign code nor
ended. -/
structure Books (i : Nat) (w : World (host σ ω)) (held : Nat) : Prop where
  calm : Calm w.history
  leases : leased i w.history = returned i w.history + (stockOf w).live i + held
  signal : ∃ s, w.caches[i]? = some s ∧ Tallies i s w.history
  sound : Sound i w.history

variable {i held : Nat} {w : World (host σ ω)}

theorem Sound.logged {h : List (Event (host σ ω))} (hs : Sound i h) (os : List (Occurrence ω)) :
    Sound i (logged os h) := by
  induction os generalizing h with
  | nil => exact hs
  | cons o os ih =>
    rw [logged_cons]
    exact ih (h := .cache o :: h) hs

theorem Tallies.balanced {s : CacheSignal ω} {bank : Bank ω} {h : List (Event (host σ ω))}
    (ht : Tallies i s h) (hs : bank[i]? = some s) (hle : returned i h ≤ leased i h) :
    Balanced i bank h := by
  refine ⟨s, hs, ht.total, fun hcov => ?_⟩
  have hpending := ht.pending hcov
  have hends := hcov.le
  refine ⟨by omega, hends, hle, ht.paired hcov, ?_⟩
  rintro w ready waker rfl rfl
  rw [CacheReady.run_poll hs, CacheSignal.pollReady_answer]
  by_cases hz : s.pending = 0
  · rw [if_pos hz, if_pos (by omega)]
  · rw [if_neg hz, if_neg (by omega)]

theorem Books.called (hb : Books i w held) (reactions : Reactions ω) (c : ReadCall) :
    Books i { w with
      caches := (Cascade.settle reactions w.caches [.call c]).1
      history := .note .returned ::
        logged (Cascade.settle reactions w.caches [.call c]).2 (.note (.called c) :: w.history) }
      held := by
  obtain ⟨s, hs, htallies⟩ := hb.signal
  have hcalm : Calm (.note (.called c) :: w.history : List (Event (host σ ω))) := by
    rintro o h ⟨⟩
  refine ⟨by rintro o h ⟨⟩, ?_, ?_, ?_⟩
  · have hleases := hb.leases
    simp only [leased, returned, leased_logged, returned_logged]
    exact hleases
  · cases hc : w.caches[c.signal]? with
    | none =>
      have hne : c.signal ≠ i := by
        rintro rfl
        simp [hs] at hc
      obtain ⟨hbegins, hends, hcov⟩ := of_signal_ne hne (calls w.history)
      rw [settle_of_none reactions hc]
      refine ⟨s, hs, ?_, ?_, ?_⟩
      · simpa only [logged, calls, leased, List.map_nil, List.reverse_nil, List.nil_append, hbegins]
          using htallies.total
      · simpa only [logged, calls, leased, returned, List.map_nil, List.reverse_nil, List.nil_append,
          hbegins, hends, hcov] using htallies.pending
      · simpa only [logged, calls, complaints, List.map_nil, List.reverse_nil, List.nil_append, hcov]
          using htallies.paired
    | some s' =>
      obtain ⟨o, rest, hrest, ho⟩ := settle_of_some reactions hc
      obtain ⟨t, ht, htotal, hcount⟩ := settle_covered reactions w.caches [.call c] hs
      rw [hrest] at htotal hcount ⊢
      have hcalls : calls (.note .returned ::
          logged (o :: rest) (.note (.called c) :: w.history) : List (Event (host σ ω))) =
          callsOf (o :: rest) ++ calls w.history := by
        simp only [calls, calls_logged o rest hcalm, callsOf_cons, ho, Option.toList_some,
          List.append_assoc, List.singleton_append]
      have hle : returned i w.history ≤ leased i w.history := by
        have := hb.leases
        omega
      refine ⟨t, ht, ?_, ?_, ?_⟩
      · simp only [hcalls, leased, leased_logged, begins_append, htotal, htallies.total]
        omega
      · intro hcov
        rw [hcalls] at hcov ⊢
        have hpending := htallies.pending hcov.of_append
        obtain ⟨-, htpending⟩ :=
          @hcount _ (leased i w.history - returned i w.history) (by omega) hcov
        simp only [leased, returned, leased_logged, returned_logged]
        omega
      · intro hcov
        rw [hcalls] at hcov
        have hpending := htallies.pending hcov.of_append
        obtain ⟨hunpaired, -⟩ :=
          @hcount _ (leased i w.history - returned i w.history) (by omega) hcov
        simp only [complaints, complaints_logged, hunpaired, htallies.paired hcov.of_append]
  · exact Sound.logged (h := .note (.called c) :: w.history) hb.sound _

/-- An end is refused only if foreign code made too many. -/
theorem Books.refused {j : Nat} (hb : Books i w held) (hz : (w.caches.counts j).getD 0 = 0) :
    Books i { w with
      history := .note (.refused j) :: .note (.called (.endRead j)) :: w.history } held := by
  obtain ⟨s, hs, htallies⟩ := hb.signal
  have hleases := hb.leases
  refine ⟨by rintro o h ⟨⟩, hleases, ⟨s, hs, htallies.total, ?_, ?_⟩, hb.sound⟩
  · intro hcov
    by_cases hij : j = i
    · subst hij
      have hpending := htallies.pending hcov.2
      have hle := hcov.1
      simp only [begins, ends, ↓reduceIte] at hle
      simp only [Bank.counts, hs, Option.map_some, Option.getD_some] at hz
      omega
    · simpa only [calls, leased, returned, begins, ends, hij, ↓reduceIte, Nat.add_zero] using
        htallies.pending hcov.2
  · intro hcov
    by_cases hij : j = i
    · subst hij
      have hpending := htallies.pending hcov.2
      have hle := hcov.1
      simp only [begins, ends, ↓reduceIte] at hle
      simp only [Bank.counts, hs, Option.map_some, Option.getD_some] at hz
      omega
    · simpa only [complaints, hij, ↓reduceIte, Nat.add_zero] using htallies.paired hcov.2

/-- Who waits does not matter. -/
theorem Books.waiting {j : Nat} {b b' : CacheSignal ω} (hb : Books i w held)
    (hj : w.caches[j]? = some b) (hpending : b'.pending = b.pending) (htotal : b'.total = b.total) :
    Books i { w with caches := w.caches.set j b' } held := by
  obtain ⟨s, hs, htallies⟩ := hb.signal
  refine ⟨hb.calm, hb.leases, ?_, hb.sound⟩
  by_cases hij : j = i
  · subst hij
    obtain rfl : s = b := by simpa [hs] using hj
    exact ⟨b', by simp [(List.getElem?_eq_some_iff.mp hs).1], htotal ▸ htallies.total,
      hpending ▸ htallies.pending, htallies.paired⟩
  · exact ⟨s, by simpa [hij] using hs, htallies⟩

theorem Books.moment (hb : Books i w held) :
    Books i { w with history := .note (.moment w.caches) :: w.history } held := by
  obtain ⟨s, hs, htallies⟩ := hb.signal
  have hleases := hb.leases
  exact ⟨by rintro o h ⟨⟩, hleases, ⟨s, hs, htallies.total, htallies.pending, htallies.paired⟩,
    htallies.balanced hs (by omega), hb.sound⟩

theorem Books.leaseBegun (hb : Books i w held) (reactions : Reactions ω) (j : Nat) :
    Books i { w with
      caches := (Cascade.settle reactions w.caches [.call (.beginRead j)]).1
      history := .leaseBegun (.cache j) ::
        logged (Cascade.settle reactions w.caches [.call (.beginRead j)]).2 w.history }
      (held + if j = i then 1 else 0) := by
  obtain ⟨s, hs, htallies⟩ := hb.signal
  have hleases := hb.leases
  refine ⟨by rintro o h ⟨⟩, ?_, ?_, hb.sound.logged _⟩
  · simp only [leased, returned, leased_logged, returned_logged, stockOf] at hleases ⊢
    omega
  · cases hj : w.caches[j]? with
    | none =>
      have hne : j ≠ i := by
        rintro rfl
        simp [hs] at hj
      rw [settle_of_none reactions (c := .beginRead j) hj]
      exact ⟨s, hs, by simpa [logged, calls, leased, hne] using htallies.total,
        by simpa [logged, calls, leased, returned, hne] using htallies.pending,
        by simpa [logged, calls, complaints] using htallies.paired⟩
    | some b =>
      have hcalls : ∀ n, calls (.leaseBegun (.cache j) :: .cache (.begun j n) :: w.history :
          List (Event (host σ ω))) = calls w.history := fun n => calls_cache hb.calm
      rw [settle_beginRead reactions hj]
      simp only [logged, List.map_cons, List.map_nil, List.reverse_singleton, List.singleton_append]
      by_cases hij : j = i
      · subst hij
        obtain rfl : s = b := by simpa [hs] using hj
        refine ⟨s.beginRead, by simp [(List.getElem?_eq_some_iff.mp hs).1], ?_, ?_, ?_⟩
        · have htotal := htallies.total
          simp only [hcalls, leased, CacheSignal.beginRead, ↓reduceIte]
          omega
        · intro hcov
          rw [hcalls] at hcov ⊢
          have hpending := htallies.pending hcov
          simp only [leased, returned, CacheSignal.beginRead, ↓reduceIte]
          omega
        · intro hcov
          rw [hcalls] at hcov
          exact htallies.paired hcov
      · refine ⟨s, by simpa [hij] using hs, ?_, ?_, ?_⟩
        · simpa only [hcalls, leased, hij, ↓reduceIte, Nat.add_zero] using htallies.total
        · simpa only [hcalls, leased, returned, hij, ↓reduceIte, Nat.add_zero] using
            htallies.pending
        · intro hcov
          rw [hcalls] at hcov
          exact htallies.paired hcov

theorem Books.leaseEnded (j : Nat) (hb : Books i w (held + if j = i then 1 else 0))
    (reactions : Reactions ω) :
    Books i { w with
      caches := (Cascade.settle reactions w.caches [.call (.endRead j)]).1
      history := .leaseEnded (.cache j) ::
        logged (Cascade.settle reactions w.caches [.call (.endRead j)]).2 w.history }
      held := by
  obtain ⟨s, hs, htallies⟩ := hb.signal
  have hleases := hb.leases
  refine ⟨by rintro o h ⟨⟩, ?_, ?_, hb.sound.logged _⟩
  · simp only [leased, returned, leased_logged, returned_logged, stockOf] at hleases ⊢
    omega
  · cases hj : w.caches[j]? with
    | none =>
      have hne : j ≠ i := by
        rintro rfl
        simp [hs] at hj
      rw [settle_of_none reactions (c := .endRead j) hj]
      exact ⟨s, hs, by simpa [logged, calls, leased] using htallies.total,
        by simpa [logged, calls, leased, returned, hne] using htallies.pending,
        by simpa [logged, calls, complaints] using htallies.paired⟩
    | some b =>
      cases ht : b.endRead? with
      | none =>
        have hcalls : calls (.leaseEnded (.cache j) :: .cache (.unpaired j) :: w.history :
            List (Event (host σ ω))) = calls w.history := calls_cache hb.calm
        have hz := CacheSignal.endRead?_eq_none_iff.mp ht
        -- the lease itself keeps a read outstanding
        have hne : Covered i (calls w.history) → j ≠ i := by
          rintro hcov rfl
          obtain rfl : s = b := by simpa [hs] using hj
          have hpending := htallies.pending hcov
          have hle := hcov.le
          simp only [↓reduceIte] at hleases
          omega
        rw [settle_endRead_of_none reactions hj ht]
        simp only [logged, List.map_cons, List.map_nil, List.reverse_singleton,
          List.singleton_append]
        refine ⟨s, hs, ?_, ?_, ?_⟩
        · simpa only [hcalls, leased] using htallies.total
        · intro hcov
          rw [hcalls] at hcov ⊢
          simpa only [leased, returned, hne hcov, ↓reduceIte, Nat.add_zero] using
            htallies.pending hcov
        · intro hcov
          rw [hcalls] at hcov
          simpa only [complaints, hne hcov, ↓reduceIte, Nat.add_zero] using htallies.paired hcov
      | some ended =>
        obtain ⟨b', wakers⟩ := ended
        obtain ⟨hdown, hkeep, -⟩ := CacheSignal.endRead?_eq_some ht
        rw [settle_endRead_of_some reactions hj ht]
        have hset : ∃ s', (w.caches.set j b')[i]? = some s' ∧ s'.total = s.total ∧
            s.pending = s'.pending + if j = i then 1 else 0 := by
          by_cases hij : j = i
          · subst hij
            obtain rfl : s = b := by simpa [hs] using hj
            exact ⟨b', by simp [(List.getElem?_eq_some_iff.mp hs).1], hkeep, by simpa using hdown⟩
          · exact ⟨s, by simpa [hij] using hs, rfl, by simp [hij]⟩
        obtain ⟨s', hs', htotal', hpending'⟩ := hset
        obtain ⟨t, ht', htotal, hcount⟩ :=
          settle_covered reactions (w.caches.set j b') (wakeAll wakers) hs'
        generalize Cascade.settle reactions (w.caches.set j b') (wakeAll wakers) = settled at *
        have hcalls : calls (.leaseEnded (.cache j) ::
            logged (.ended j b'.pending :: settled.2) w.history : List (Event (host σ ω))) =
            callsOf settled.2 ++ calls w.history := calls_logged _ _ hb.calm
        refine ⟨t, ht', ?_, ?_, ?_⟩
        · have hsum := htallies.total
          simp only [hcalls, leased, leased_logged, begins_append]
          omega
        · intro hcov
          rw [hcalls] at hcov ⊢
          have hpending := htallies.pending hcov.of_append
          obtain ⟨-, htpending⟩ := @hcount _
            (leased i w.history - returned i w.history - if j = i then 1 else 0) (by omega) hcov
          simp only [leased, returned, leased_logged, returned_logged]
          omega
        · intro hcov
          rw [hcalls] at hcov
          have hpending := htallies.pending hcov.of_append
          obtain ⟨hunpaired, -⟩ := @hcount _
            (leased i w.history - returned i w.history - if j = i then 1 else 0) (by omega) hcov
          simp only [complaints, complaints_logged, unpairedOn, hunpaired,
            htallies.paired hcov.of_append]

end ReadBarrier.Script
