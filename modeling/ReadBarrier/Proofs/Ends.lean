import ReadBarrier.Proofs.Act
import ReadBarrier.Proofs.Cascade

/-!
Ends of reads in numbers.

Which of some ends brings a count to zero depends on their order. Whether one does, and who is woken
then, depends on how many there are on each signal.
-/

namespace ReadBarrier

variable {H : Host} {ω : Type}

/-! ### Ends of reads, in numbers -/

namespace CacheSignal

/-- The signal after so many ends, with nothing in between. -/
def endReads (s : CacheSignal ω) (n : Nat) : CacheSignal ω :=
  { s with
    pending := s.pending - n
    waiters := if s.pending = 0 ∨ n < s.pending then s.waiters else [] }

theorem endReads_zero (s : CacheSignal ω) : s.endReads 0 = s := by
  have h : s.pending = 0 ∨ 0 < s.pending := by omega
  simp [endReads, h]

theorem endReads_endReads (s : CacheSignal ω) (m n : Nat) :
    (s.endReads m).endReads n = s.endReads (m + n) := by
  simp only [endReads, Nat.sub_sub, mk.injEq, true_and, and_true]
  by_cases hz : s.pending = 0
  · simp [hz]
  · by_cases hm : m < s.pending
    · have hiff : s.pending - m = 0 ∨ n < s.pending - m ↔ s.pending = 0 ∨ m + n < s.pending := by
        omega
      simp only [hm, or_true, ↓reduceIte, hiff]
    · have hmn : ¬ m + n < s.pending := by omega
      simp [hz, hm, hmn]

theorem mem_waiters_of_endReads {s : CacheSignal ω} {n : Nat} {x : Waiter ω}
    (h : x ∈ (s.endReads n).waiters) : x ∈ s.waiters := by
  simp only [endReads] at h
  split at h
  · exact h
  · simp at h

/-- Whether so many ends bring the count to zero. -/
def emptiedBy (s : CacheSignal ω) (n : Nat) : Bool := 0 < s.pending && s.pending ≤ n

theorem emptiedBy_iff {s : CacheSignal ω} {n : Nat} :
    s.emptiedBy n = true ↔ 0 < s.pending ∧ s.pending ≤ n := by
  simp [emptiedBy]

theorem emptiedBy_succ (s : CacheSignal ω) (n : Nat) :
    s.emptiedBy (n + 1) = (s.emptiedBy 1 || (s.endReads 1).emptiedBy n) := by
  have hpending : (s.endReads 1).pending = s.pending - 1 := rfl
  rw [Bool.eq_iff_iff, Bool.or_eq_true, emptiedBy_iff, emptiedBy_iff, emptiedBy_iff, hpending]
  omega

theorem waiters_endReads_one (s : CacheSignal ω) :
    (s.endReads 1).waiters = if s.emptiedBy 1 then [] else s.waiters := by
  have hiff : s.pending = 0 ∨ 1 < s.pending ↔ ¬ s.emptiedBy 1 = true := by
    rw [emptiedBy_iff]
    omega
  by_cases hs : s.emptiedBy 1 <;> simp [endReads, hiff, hs]

theorem endReads_one_of_none {s : CacheSignal ω} (h : s.endRead? = none) : s.endReads 1 = s := by
  have hz := endRead?_eq_none_iff.mp h
  cases s
  simp_all [endReads]

theorem endReads_one_of_some {s t : CacheSignal ω} {wakers : List ω}
    (h : s.endRead? = some (t, wakers)) :
    s.endReads 1 = t ∧ wakers = if s.emptiedBy 1 then s.waiters.map (·.waker) else [] := by
  obtain ⟨hpending, htotal, hticket, hwaiters, hwakers⟩ := endRead?_eq_some h
  have hlast : s.emptiedBy 1 = decide (t.pending = 0) := by
    simp only [emptiedBy, hpending, Nat.succ_pos, decide_true, Bool.true_and, decide_eq_decide]
    omega
  have hmore : s.pending = 0 ∨ 1 < s.pending ↔ ¬ t.pending = 0 := by omega
  refine ⟨?_, by simpa [hlast] using hwakers⟩
  obtain ⟨pending, total, waiters, nextTicket⟩ := t
  simp only at hpending htotal hticket hwaiters hmore
  simp only [endReads, mk.injEq]
  refine ⟨by omega, htotal.symm, ?_, hticket.symm⟩
  rw [hwaiters]
  by_cases hz : pending = 0 <;> simp [hmore, hz]

end CacheSignal

namespace Bank

/-- The bank after an end on a signal, if it is one of the bank. -/
def endRead (bank : Bank ω) : Option Nat → Bank ω
  | none => bank
  | some i =>
    match bank[i]? with
    | none => bank
    | some s => bank.set i (s.endReads 1)

/-- The wakers that an end on a signal wakes. -/
def dueAt (bank : Bank ω) : Option Nat → List ω
  | none => []
  | some i =>
    match bank[i]? with
    | none => []
    | some s => if s.emptiedBy 1 then s.waiters.map (·.waker) else []

def endAll (bank : Bank ω) (ends : List (Option Nat)) : Bank ω := ends.foldl endRead bank

/-- The wakers that some ends wake, one after the other. -/
def dueAll (bank : Bank ω) : List (Option Nat) → List ω
  | [] => []
  | i :: ends => bank.dueAt i ++ dueAll (bank.endRead i) ends

theorem getElem?_endRead (bank : Bank ω) (end? : Option Nat) (i : Nat) :
    (bank.endRead end?)[i]? = (bank[i]?).map (·.endReads (if end? = some i then 1 else 0)) := by
  cases end? with
  | none => simp [endRead, CacheSignal.endReads_zero]
  | some j =>
    cases hj : bank[j]? with
    | none =>
      by_cases hij : j = i
      · subst hij
        simp [endRead, hj]
      · simp [endRead, hj, hij, CacheSignal.endReads_zero]
    | some s =>
      by_cases hij : j = i
      · subst hij
        simp [endRead, (List.getElem?_eq_some_iff.mp hj).1]
      · simp [endRead, hj, hij, CacheSignal.endReads_zero]

/-- Each signal of a bank counts the ends on itself. -/
theorem getElem?_endAll (bank : Bank ω) (ends : List (Option Nat)) (i : Nat) :
    (bank.endAll ends)[i]? = (bank[i]?).map (·.endReads (ends.count (some i))) := by
  induction ends generalizing bank with
  | nil => simp [endAll, CacheSignal.endReads_zero]
  | cons j ends ih =>
    change ((bank.endRead j).endAll ends)[i]? = _
    rw [ih, getElem?_endRead, Option.map_map, List.count_cons, Nat.add_comm]
    congr 1
    funext s
    simp [CacheSignal.endReads_endReads]

theorem endAll_perm {bank : Bank ω} {ends ends' : List (Option Nat)} (h : ends.Perm ends') :
    bank.endAll ends = bank.endAll ends' := by
  apply List.ext_getElem?
  intro i
  rw [getElem?_endAll, getElem?_endAll, h.count_eq]

theorem counts_endAll (bank : Bank ω) (ends : List (Option Nat)) (i : Nat) :
    (bank.endAll ends).counts i = (bank.counts i).map (· - ends.count (some i)) := by
  simp only [counts, getElem?_endAll, Option.map_map]
  rfl

/-- Whether some ends bring the count of signal `i` to zero. -/
def emptiedBy (bank : Bank ω) (ends : List (Option Nat)) (i : Nat) : Bool :=
  (bank[i]?).any (·.emptiedBy (ends.count (some i)))

theorem emptiedBy_perm {bank : Bank ω} {ends ends' : List (Option Nat)} (h : ends.Perm ends') :
    bank.emptiedBy ends = bank.emptiedBy ends' := by
  funext i
  rw [emptiedBy, emptiedBy, h.count_eq]

/-- Whichever end empties a signal, its waiters are woken once. -/
theorem dueAll_perm (bank : Bank ω) (ends : List (Option Nat)) :
    (bank.dueAll ends).Perm (bank.wakersOf (bank.emptiedBy ends)) := by
  induction ends generalizing bank with
  | nil =>
    have hnone : bank.wakersOf (fun _ => false) = [] := by
      induction bank with
      | nil => rfl
      | cons s bank ih => exact ih
    have hempty : bank.emptiedBy [] = fun _ => false := by
      funext i
      cases hi : bank[i]? with
      | none => simp [emptiedBy, hi]
      | some s => simp [emptiedBy, hi, CacheSignal.emptiedBy]; omega
    rw [hempty, hnone]
    exact .nil
  | cons j ends ih =>
    refine ((ih (bank.endRead j)).append_left _).trans ?_
    cases j with
    | none =>
      have hsame : bank.emptiedBy (none :: ends) = bank.emptiedBy ends := by
        funext i
        simp [emptiedBy]
      rw [hsame]
      exact .rfl
    | some j =>
      cases hj : bank[j]? with
      | none =>
        have hsame : bank.emptiedBy (some j :: ends) = bank.emptiedBy ends := by
          funext i
          by_cases hij : j = i
          · subst hij
            simp [emptiedBy, hj]
          · simp [emptiedBy, hij]
        simp only [dueAt, endRead, hj, hsame, List.nil_append]
        exact .rfl
      | some s =>
        have hlt := (List.getElem?_eq_some_iff.mp hj).1
        have hself : bank.emptiedBy (some j :: ends) j =
            (s.emptiedBy 1 || (bank.endRead (some j)).emptiedBy ends j) := by
          rw [endRead, emptiedBy, emptiedBy, hj, List.count_cons_self]
          simpa [hlt] using s.emptiedBy_succ _
        have hother (i : Nat) (hij : i ≠ j) :
            bank.emptiedBy (some j :: ends) i = (bank.endRead (some j)).emptiedBy ends i := by
          simp [emptiedBy, endRead, hj, Ne.symm hij]
        have hset := wakersOf_set (bank.emptiedBy (some j :: ends)) hj (s.endReads 1)
        have hcongr : wakersOf ((bank.endRead (some j)).emptiedBy ends) (bank.endRead (some j)) =
            wakersOf (bank.emptiedBy (some j :: ends)) (bank.set j (s.endReads 1)) := by
          have hbank : bank.endRead (some j) = bank.set j (s.endReads 1) := by simp [endRead, hj]
          rw [hbank] at hself hother ⊢
          refine wakersOf_congr fun i t hi hne => ?_
          by_cases hij : i = j
          · subst hij
            obtain rfl : s.endReads 1 = t := by simpa [hlt] using hi
            by_cases hs : s.emptiedBy 1
            · simp [CacheSignal.waiters_endReads_one, hs]
            · simp [hself, hs] at hne
          · exact absurd (hother i hij).symm hne
        rw [hcongr]
        simp only [dueAt, hj]
        by_cases hs : s.emptiedBy 1
        · simpa [hself, hs, CacheSignal.waiters_endReads_one] using hset
        · simp only [CacheSignal.waiters_endReads_one, hs] at hset ⊢
          exact (List.perm_append_left_iff _).mp hset

theorem wakersOf_eq_flatMap {bank : Bank ω} {p : Nat → Bool} {f : Nat → List ω}
    (h : ∀ i s, bank[i]? = some s → s.waiters.map (·.waker) = f i) :
    bank.wakersOf p = ((List.range bank.length).filter p).flatMap f := by
  induction bank generalizing p f with
  | nil => rfl
  | cons s bank ih =>
    have hs : s.waiters.map (·.waker) = f 0 := h 0 s rfl
    have hrest : wakersOf (fun i => p (i + 1)) bank =
        ((List.range bank.length).filter fun i => p (i + 1)).flatMap fun i => f (i + 1) := by
      apply ih
      intro i t ht
      exact h (i + 1) t ht
    rw [wakersOf, hs, hrest, List.length_cons, List.range_succ_eq_map, List.filter_cons,
      List.filter_map]
    by_cases hp : p 0 <;> simp [hp, List.flatMap_map, Function.comp_def]

end Bank

/-! ### Ends of reads in a world -/

/-- Whom a log tells of as woken, the latest first. -/
def wokenIn (history : List (Event H)) : List H.Waker :=
  history.filterMap fun
    | .cache (.woken w _) => some w
    | _ => none

def World.woken (w : World H) : List H.Waker := wokenIn w.history

/-- Whoever waits in the bank calls nothing when it is woken. -/
def Bank.Silent (reactions : Reactions ω) (bank : Bank ω) : Prop :=
  ∀ (i : Nat) (s : CacheSignal ω), bank[i]? = some s →
    ∀ x ∈ s.waiters, ∀ now, reactions.calls x.waker now = []

theorem Bank.Silent.endRead {reactions : Reactions ω} {bank : Bank ω} (h : bank.Silent reactions)
    (end? : Option Nat) : Bank.Silent reactions (bank.endRead end?) := by
  intro i s hi x hx
  rw [getElem?_endRead] at hi
  obtain ⟨t, ht, rfl⟩ := Option.map_eq_some_iff.mp hi
  exact h i t ht x (CacheSignal.mem_waiters_of_endReads hx)

theorem Cascade.settle_wakeAll (reactions : Reactions ω) (bank : Bank ω) {wakers : List ω}
    (h : ∀ w ∈ wakers, ∀ now, reactions.calls w now = []) :
    (settle reactions bank (wakeAll wakers)).1 = bank ∧
      woken (settle reactions bank (wakeAll wakers)).2 = wakers := by
  induction wakers with
  | nil => simp [wakeAll, settle]
  | cons w wakers ih =>
    obtain ⟨hbank, hwoken⟩ := ih fun w hw => h w (List.mem_cons_of_mem _ hw)
    change (settle reactions bank (.wake w :: wakeAll wakers)).1 = bank ∧
      woken (settle reactions bank (.wake w :: wakeAll wakers)).2 = w :: wakers
    rw [settle, h w (List.mem_cons_self ..)]
    exact ⟨hbank, congrArg (w :: ·) hwoken⟩

/-- An end of a read whose signal's waiters call nothing. -/
theorem Cascade.settle_endRead {reactions : Reactions ω} {bank : Bank ω} (h : bank.Silent reactions)
    (i : Nat) :
    (settle reactions bank [.call (.endRead i)]).1 = bank.endRead (some i) ∧
      woken (settle reactions bank [.call (.endRead i)]).2 = bank.dueAt (some i) := by
  cases hs : bank[i]? with
  | none =>
    rw [settle_of_none reactions (c := .endRead i) hs]
    simp [Bank.endRead, Bank.dueAt, hs]
  | some s =>
    cases ht : s.endRead? with
    | none =>
      have hsame := CacheSignal.endReads_one_of_none ht
      have hz := CacheSignal.endRead?_eq_none_iff.mp ht
      obtain ⟨hi, rfl⟩ := List.getElem?_eq_some_iff.mp hs
      rw [settle_endRead_of_none reactions hs ht]
      simp [Bank.endRead, Bank.dueAt, hs, hsame, CacheSignal.emptiedBy, hz]
    | some ended =>
      obtain ⟨t, wakers⟩ := ended
      obtain ⟨rfl, hwakers⟩ := CacheSignal.endReads_one_of_some ht
      have hquiet : ∀ w ∈ wakers, ∀ now, reactions.calls w now = [] := by
        intro w hw
        rw [hwakers] at hw
        split at hw
        · obtain ⟨x, hx, rfl⟩ := List.mem_map.mp hw
          exact h i s hs x hx
        · simp at hw
      obtain ⟨hbank, hwoken⟩ := settle_wakeAll reactions (bank.set i (s.endReads 1)) hquiet
      have hdue : bank.dueAt (some i) = wakers := by simp [Bank.dueAt, hs, hwakers]
      rw [settle_endRead_of_some reactions hs ht, hdue]
      exact ⟨by simp [Bank.endRead, hs, hbank], hwoken⟩

theorem wokenIn_logged (happened : List (Occurrence H.Waker)) (history : List (Event H)) :
    wokenIn ((happened.map .cache).reverse ++ history) =
      (Cascade.woken happened).reverse ++ wokenIn history := by
  have hmap : wokenIn (happened.map .cache : List (Event H)) = Cascade.woken happened := by
    induction happened with
    | nil => rfl
    | cons o happened ih =>
      cases o with
      | woken w seen => exact congrArg (w :: ·) ih
      | begun i n => exact ih
      | ended i n => exact ih
      | unpaired i => exact ih
  simp only [wokenIn, List.filterMap_append, List.filterMap_reverse] at hmap ⊢
  rw [hmap]

/-- The counting signal that a lease is on. -/
def ReadLease.cache? {σ : Type} (lease : ReadLease σ) : Option Nat :=
  match lease.signal with
  | .cache i => some i
  | .foreign _ => none

section Release

open Act

variable [Foreign H]

/-- The end of a read on a counting signal changes the signals and the log of a world only. -/
theorem World.settle_endRead {w : World H} (h : w.caches.Silent Foreign.reactions) (i : Nat) :
    ∃ history,
      w.settle [.call (.endRead i)] = { w with caches := w.caches.endRead (some i), history } ∧
      (wokenIn history).Perm (w.caches.dueAt (some i) ++ w.woken) := by
  obtain ⟨hbank, hwoken⟩ := Cascade.settle_endRead h i
  have hlog := wokenIn_logged (H := H)
    (Cascade.settle Foreign.reactions w.caches [.call (.endRead i)]).2 w.history
  refine ⟨(w.settle [.call (.endRead i)]).history, ?_, ?_⟩
  · rw [← hbank]
    rfl
  · change (wokenIn (_ ++ w.history)).Perm _
    rw [hlog, hwoken]
    exact (List.reverse_perm _).append_right _

theorem exec_releaseAny {w : World H} (h : w.caches.Silent Foreign.reactions)
    {lease : Option (ReadLease H.Signal)} (hlease : ∀ l, lease = some l → l.cache?.isSome) :
    ∃ history,
      exec (ReadLease.releaseAny lease) w =
        (.ok (), { w with caches := w.caches.endRead (lease.bind (·.cache?)), history }) ∧
      (wokenIn history).Perm (w.caches.dueAt (lease.bind (·.cache?)) ++ w.woken) := by
  cases lease with
  | none => exact ⟨w.history, rfl, .rfl⟩
  | some lease =>
    obtain ⟨i | signal⟩ := lease
    · obtain ⟨history, hsettle, hwoken⟩ := World.settle_endRead h i
      refine ⟨.leaseEnded (.cache i) :: history, ?_, hwoken⟩
      rw [ReadLease.releaseAny, ReadLease.exec_release, ReadLease.ended]
      simp only [SignalRef.endRead, exec_settle, hsettle]
      rfl
    · simp [ReadLease.cache?] at hlease

end Release

end ReadBarrier
