import ReadBarrier.Proofs.Ledger

/-!
The duties of a cascade one by one: what each does to the signals, what it sets off, what the log
tells of it, and how the counts of a signal are read off the log again.
-/

namespace ReadBarrier

open Cascade

variable {ω : Type}

namespace Duty

/-- What a duty does to the signals by itself. -/
def apply (bank : Bank ω) : Duty ω → Bank ω
  | .call (.beginRead i) =>
    match bank[i]? with
    | none => bank
    | some s => bank.set i s.beginRead
  | .call (.endRead i) =>
    match (bank[i]?).bind (·.endRead?) with
    | none => bank
    | some (t, _) => bank.set i t
  | .wake _ => bank

/-- The duties that it sets off. -/
def sequel (reactions : Reactions ω) (bank : Bank ω) : Duty ω → List (Duty ω)
  | .call (.beginRead _) => []
  | .call (.endRead i) =>
    match (bank[i]?).bind (·.endRead?) with
    | none => []
    | some (_, wakers) => wakeAll wakers
  | .wake w => callAll (reactions.calls w bank)

/-- The event by which the log tells of it. -/
def told? (watched : ω → Option Nat) (bank : Bank ω) : Duty ω → Option (Occurrence ω)
  | .call (.beginRead i) => (bank.counts i).map fun n => .begun i (n + 1)
  | .call (.endRead i) => (bank.counts i).map fun
    | 0 => .unpaired i
    | n + 1 => .ended i n
  | .wake w => some (.woken w ((watched w).bind bank.counts))

/-- It ends a read on a signal that has none outstanding. -/
def fallsShort (i : Nat) (bank : Bank ω) : Duty ω → Bool
  | .call (.endRead j) => j == i && bank.counts i == some 0
  | .call (.beginRead _) | .wake _ => false

theorem step (reactions : Reactions ω) (bank : Bank ω) (d : Duty ω) (rest : List (Duty ω)) :
    Step reactions.watched (fun w b calls => calls = reactions.calls w b) (bank, d :: rest)
      (d.told? reactions.watched bank).toList
      (d.apply bank, d.sequel reactions bank ++ rest) := by
  cases d with
  | wake w => exact .woken rfl
  | call c =>
    cases hs : bank[c.signal]? with
    | none =>
      cases c with
      | beginRead i =>
        have hi : bank[i]? = none := hs
        simpa [told?, apply, sequel, Bank.counts, hi] using Step.absent (c := .beginRead i) hs
      | endRead i =>
        have hi : bank[i]? = none := hs
        simpa [told?, apply, sequel, Bank.counts, hi] using Step.absent (c := .endRead i) hs
    | some s =>
      cases c with
      | beginRead i =>
        have hi : bank[i]? = some s := hs
        simpa [told?, apply, sequel, Bank.counts, hi] using Step.begun hi
      | endRead i =>
        have hi : bank[i]? = some s := hs
        cases ht : s.endRead? with
        | none =>
          have hz := CacheSignal.endRead?_eq_none_iff.mp ht
          simpa [told?, apply, sequel, Bank.counts, hi, ht, hz] using Step.unpaired hi ht
        | some ended =>
          have hp := (CacheSignal.endRead?_eq_some ht).1
          simpa [told?, apply, sequel, Bank.counts, hi, ht, hp] using Step.ended hi ht

theorem getElem?_apply_of_ne (bank : Bank ω) {c : ReadCall} {i : Nat} (hc : c.signal ≠ i) :
    ((call c).apply bank)[i]? = bank[i]? := by
  cases c with
  | beginRead j =>
    have hj : j ≠ i := hc
    simp only [apply]
    cases bank[j]? <;> simp [hj]
  | endRead j =>
    have hj : j ≠ i := hc
    simp only [apply]
    cases (bank[j]?).bind (·.endRead?) <;> simp [hj]

end Duty

namespace Cascade

theorem settle_cons (reactions : Reactions ω) (bank : Bank ω) (d : Duty ω) (rest : List (Duty ω)) :
    settle reactions bank (d :: rest) =
      ((settle reactions (d.apply bank) (d.sequel reactions bank ++ rest)).1,
        (d.told? reactions.watched bank).toList ++
          (settle reactions (d.apply bank) (d.sequel reactions bank ++ rest)).2) := by
  cases d with
  | wake w =>
    rw [settle]
    simp only [Duty.apply, Duty.sequel, Duty.told?, Option.map_bind]
    rfl
  | call c =>
    cases c with
    | beginRead i =>
      rw [settle]
      split
      · next hs => simp [Duty.apply, Duty.sequel, Duty.told?, Bank.counts, hs]
      · next s hs =>
        simp [Duty.apply, Duty.sequel, Duty.told?, Bank.counts, hs, CacheSignal.beginRead]
    | endRead i =>
      rw [settle]
      split
      · next hs => simp [Duty.apply, Duty.sequel, Duty.told?, Bank.counts, hs]
      · next s hs =>
        split
        · next ht =>
          have hz := CacheSignal.endRead?_eq_none_iff.mp ht
          simp [Duty.apply, Duty.sequel, Duty.told?, Bank.counts, hs, ht, hz]
        · next t wakers ht =>
          have hp := (CacheSignal.endRead?_eq_some ht).1
          simp [Duty.apply, Duty.sequel, Duty.told?, Bank.counts, hs, ht, hp]

/-- What the log tells of some duties, each with the signals as it found them. -/
def account (watched : ω → Option Nat) (done : List (Bank ω × Duty ω)) : List (Occurrence ω) :=
  done.filterMap fun duty => duty.2.told? watched duty.1

theorem account_cons (watched : ω → Option Nat) (bank : Bank ω) (d : Duty ω)
    (done : List (Bank ω × Duty ω)) :
    account watched ((bank, d) :: done) =
      (d.told? watched bank).toList ++ account watched done := by
  cases hd : d.told? watched bank <;> simp [account, hd]

/-- How many ends on a signal found no read outstanding. -/
def shortfalls (i : Nat) (done : List (Bank ω × Duty ω)) : Nat :=
  done.countP fun duty => duty.2.fallsShort i duty.1

theorem unpairedOn_account (watched : ω → Option Nat) (i : Nat) (done : List (Bank ω × Duty ω)) :
    unpairedOn i (account watched done) = shortfalls i done := by
  induction done with
  | nil => rfl
  | cons duty done ih =>
    obtain ⟨bank, d⟩ := duty
    rw [shortfalls, List.countP_cons, ← shortfalls, ← ih, account_cons]
    cases d with
    | wake w => simp [Duty.told?, Duty.fallsShort, unpairedOn]
    | call c =>
      cases c with
      | beginRead j =>
        cases hj : bank.counts j <;> simp [Duty.told?, Duty.fallsShort, unpairedOn, hj]
      | endRead j =>
        by_cases hij : j = i
        · subst hij
          rcases hj : bank.counts j with _ | _ | n <;>
            simp [Duty.told?, Duty.fallsShort, unpairedOn, hj]
        · rcases hj : bank.counts j with _ | _ | n <;>
            simp [Duty.told?, Duty.fallsShort, unpairedOn, hj, hij]

/-! ### What the log says about a signal -/

/-- The count of a signal that the latest event on it gives. The latest event comes first. -/
def lastCount (i : Nat) : List (Occurrence ω) → Nat
  | [] => 0
  | .begun j n :: past | .ended j n :: past => if j = i then n else lastCount i past
  | .unpaired _ :: past | .woken .. :: past => lastCount i past

/-- Every event on a signal goes on from the count that the one before it gives: a begin by one
more, an end by one less. Ends that found no read, and wakers that looked, agree with it as well. -/
def Continues (watched : ω → Option Nat) (i : Nat) : List (Occurrence ω) → Prop
  | [] => True
  | .begun j n :: past => (j = i → n = lastCount i past + 1) ∧ Continues watched i past
  | .ended j n :: past => (j = i → n + 1 = lastCount i past) ∧ Continues watched i past
  | .unpaired j :: past => (j = i → lastCount i past = 0) ∧ Continues watched i past
  | .woken w seen :: past =>
    (watched w = some i → seen = some (lastCount i past)) ∧ Continues watched i past

/-- The counts of a signal are those that the log gives. The latest event comes first. -/
structure Tells (watched : ω → Option Nat) (i : Nat) (bank : Bank ω) (past : List (Occurrence ω)) :
    Prop where
  counts : ∃ s, bank[i]? = some s ∧ s.pending = lastCount i past ∧ s.total = begunOn i past
  continues : Continues watched i past

namespace Tells

variable {watched : ω → Option Nat} {i : Nat} {bank : Bank ω} {past : List (Occurrence ω)}

theorem beginRead (h : Tells watched i bank past) :
    Tells watched i ((Duty.call (.beginRead i)).apply bank)
      (((Duty.call (.beginRead i)).told? watched bank).toList ++ past) := by
  obtain ⟨s, hs, hpending, htotal⟩ := h.counts
  have hi := (List.getElem?_eq_some_iff.mp hs).1
  simp only [Duty.apply, Duty.told?, Bank.counts, hs, Option.map_some, Option.toList_some,
    List.singleton_append]
  refine ⟨⟨s.beginRead, by simp [hi], ?_, ?_⟩, ?_, h.continues⟩
  · simp [CacheSignal.beginRead, lastCount]
  · simp [CacheSignal.beginRead, begunOn, htotal]
  · simp [hpending]

theorem endRead (h : Tells watched i bank past) :
    Tells watched i ((Duty.call (.endRead i)).apply bank)
      (((Duty.call (.endRead i)).told? watched bank).toList ++ past) := by
  obtain ⟨s, hs, hpending, htotal⟩ := h.counts
  have hi := (List.getElem?_eq_some_iff.mp hs).1
  simp only [Duty.apply, Duty.told?, Bank.counts, hs, Option.map_some, Option.toList_some,
    List.singleton_append, Option.bind_some]
  cases ht : s.endRead? with
  | none =>
    have hz := CacheSignal.endRead?_eq_none_iff.mp ht
    simp only [hz]
    refine ⟨⟨s, hs, hpending, htotal⟩, ?_, h.continues⟩
    simp [← hpending, hz]
  | some ended =>
    obtain ⟨t, wakers⟩ := ended
    obtain ⟨hp, ht', -⟩ := CacheSignal.endRead?_eq_some ht
    simp only [hp]
    refine ⟨⟨t, by simp [hi], ?_, ?_⟩, ?_, h.continues⟩
    · simp [lastCount]
    · simp [begunOn, ht', htotal]
    · simp [← hpending, hp]

/-- Who waits for a signal does not matter. -/
theorem set (h : Tells watched i bank past) {j : Nat} {s t : CacheSignal ω} (hs : bank[j]? = some s)
    (hpending : t.pending = s.pending) (htotal : t.total = s.total) :
    Tells watched i (bank.set j t) past := by
  refine ⟨?_, h.continues⟩
  by_cases hj : j = i
  · subst hj
    obtain ⟨u, hu, hp, ht⟩ := h.counts
    obtain rfl : s = u := Option.some.inj (hs.symm.trans hu)
    have hlt := (List.getElem?_eq_some_iff.mp hs).1
    exact ⟨t, by simp [hlt], hpending.trans hp, htotal.trans ht⟩
  · simpa [hj] using h.counts

/-- A call on another signal does not matter. -/
theorem call_of_ne (h : Tells watched i bank past) {c : ReadCall} (hc : c.signal ≠ i) :
    Tells watched i ((Duty.call c).apply bank)
      (((Duty.call c).told? watched bank).toList ++ past) := by
  obtain ⟨s, hs, hpending, htotal⟩ := h.counts
  have hbank := (Duty.getElem?_apply_of_ne bank hc).trans hs
  cases c with
  | beginRead j =>
    have hj : j ≠ i := hc
    cases hn : bank.counts j with
    | none => simpa [Duty.told?, hn] using ⟨⟨s, hbank, hpending, htotal⟩, h.continues⟩
    | some n =>
      simp only [Duty.told?, hn, Option.map_some, Option.toList_some, List.singleton_append]
      refine ⟨⟨s, hbank, ?_, ?_⟩, fun h => absurd h hj, h.continues⟩
      · simp [lastCount, hj, hpending]
      · simp [begunOn, hj, htotal]
  | endRead j =>
    have hj : j ≠ i := hc
    rcases hn : bank.counts j with _ | _ | n
    · simpa [Duty.told?, hn] using ⟨⟨s, hbank, hpending, htotal⟩, h.continues⟩
    · simp only [Duty.told?, hn, Option.map_some, Option.toList_some, List.singleton_append]
      exact ⟨⟨s, hbank, hpending, htotal⟩, fun h => absurd h hj, h.continues⟩
    · simp only [Duty.told?, hn, Option.map_some, Option.toList_some, List.singleton_append]
      refine ⟨⟨s, hbank, ?_, htotal⟩, fun h => absurd h hj, h.continues⟩
      simp [lastCount, hj, hpending]

/-- A duty is told as it is done. -/
theorem apply (h : Tells watched i bank past) (d : Duty ω) :
    Tells watched i (d.apply bank) ((d.told? watched bank).toList ++ past) := by
  cases d with
  | wake w =>
    obtain ⟨s, hs, hpending, htotal⟩ := h.counts
    refine ⟨⟨s, hs, hpending, htotal⟩, ?_, h.continues⟩
    intro hw
    simp [hw, Bank.counts, hs, hpending]
  | call c =>
    by_cases hc : c.signal = i
    · cases c with
      | beginRead j =>
        obtain rfl : j = i := hc
        exact h.beginRead
      | endRead j =>
        obtain rfl : j = i := hc
        exact h.endRead
    · exact h.call_of_ne hc

end Tells

end Cascade

end ReadBarrier
