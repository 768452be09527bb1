import ReadBarrier.Proofs.Cascade
import ReadBarrier.Proofs.Script

/-!
What the log of a scripted run tells about one counting signal: the calls that foreign code made on
it, the leases that were begun and ended on it, and the ends that found no read.
-/

namespace ReadBarrier

variable {σ ω : Type}

/-- The call that an entry of the log came from. -/
def Occurrence.call? : Occurrence ω → Option ReadCall
  | .begun i _ => some (.beginRead i)
  | .ended i _ | .unpaired i => some (.endRead i)
  | .woken .. => none

namespace ReadCall

def begins (i : Nat) : List ReadCall → Nat
  | [] => 0
  | .beginRead j :: calls => begins i calls + if j = i then 1 else 0
  | .endRead _ :: calls => begins i calls

def ends (i : Nat) : List ReadCall → Nat
  | [] => 0
  | .endRead j :: calls => ends i calls + if j = i then 1 else 0
  | .beginRead _ :: calls => ends i calls

/-- At no time there were more ends on a signal than begins. The latest call comes first. -/
def Covered (i : Nat) : List ReadCall → Prop
  | [] => True
  | call :: calls => ends i (call :: calls) ≤ begins i (call :: calls) ∧ Covered i calls

theorem Covered.le {i : Nat} {calls : List ReadCall} (h : Covered i calls) :
    ends i calls ≤ begins i calls := by
  cases calls with
  | nil => exact Nat.le_refl 0
  | cons call calls => exact h.1

theorem Covered.of_append {i : Nat} {later calls : List ReadCall} (h : Covered i (later ++ calls)) :
    Covered i calls := by
  induction later with
  | nil => exact h
  | cons call later ih => exact ih h.2

theorem begins_append (i : Nat) (later calls : List ReadCall) :
    begins i (later ++ calls) = begins i later + begins i calls := by
  induction later with
  | nil => simp [begins]
  | cons call later ih =>
    cases call with
    | beginRead j =>
      simp only [List.cons_append, begins, ih]
      omega
    | endRead j => simp only [List.cons_append, begins, ih]

/-- A call on another signal does not count. -/
theorem of_signal_ne {i : Nat} {c : ReadCall} (h : c.signal ≠ i) (calls : List ReadCall) :
    begins i (c :: calls) = begins i calls ∧ ends i (c :: calls) = ends i calls ∧
      (Covered i (c :: calls) ↔ Covered i calls) := by
  have hb : begins i (c :: calls) = begins i calls := by
    cases c <;> simp_all [begins, signal]
  have he : ends i (c :: calls) = ends i calls := by
    cases c <;> simp_all [ends, signal]
  refine ⟨hb, he, ?_⟩
  rw [Covered, hb, he]
  exact ⟨fun h => h.2, fun h => ⟨h.le, h⟩⟩

end ReadCall

namespace Cascade

open ReadCall

/-- The calls that a log tells of, the latest first. -/
def callsOf (happened : List (Occurrence ω)) : List ReadCall :=
  (happened.filterMap Occurrence.call?).reverse

theorem callsOf_cons (o : Occurrence ω) (happened : List (Occurrence ω)) :
    callsOf (o :: happened) = callsOf happened ++ o.call?.toList := by
  cases h : o.call? <;> simp [callsOf, h]

def unpairedOn (i : Nat) : List (Occurrence ω) → Nat
  | [] => 0
  | .unpaired j :: os => unpairedOn i os + if j = i then 1 else 0
  | .begun .. :: os | .ended .. :: os | .woken .. :: os => unpairedOn i os

theorem begins_callsOf (i : Nat) (happened : List (Occurrence ω)) :
    begins i (callsOf happened) = begunOn i happened := by
  induction happened with
  | nil => rfl
  | cons o happened ih =>
    rw [callsOf_cons, begins_append, ih]
    cases o <;> simp [Occurrence.call?, begins, begunOn]

end Cascade

/-- As long as the calls on a signal are covered, with `live` reads outstanding on top of theirs, no
end among them is refused. -/
theorem Replays.covered {watched : ω → Option Nat} {c d : Nat → Option Nat}
    {os : List (Occurrence ω)} (h : Replays watched c os d) {i n live : Nat} {calls : List ReadCall}
    (hc : c i = some n) (hn : n + ReadCall.ends i calls = ReadCall.begins i calls + live)
    (hcov : ReadCall.Covered i (Cascade.callsOf os ++ calls)) :
    Cascade.unpairedOn i os = 0 ∧ ∃ m, d i = some m ∧
      m + ReadCall.ends i (Cascade.callsOf os ++ calls) =
        ReadCall.begins i (Cascade.callsOf os ++ calls) + live := by
  induction h generalizing n calls with
  | nil c => exact ⟨rfl, n, hc, hn⟩
  | @begun c d j k os hj h ih =>
    rw [Cascade.callsOf_cons, List.append_assoc] at hcov ⊢
    by_cases hij : j = i
    · subst hij
      obtain rfl : k = n := by simpa [hj] using hc
      refine ih (recount_self ..) ?_ hcov
      simp only [Occurrence.call?, Option.toList_some, List.singleton_append, ReadCall.begins,
        ReadCall.ends, ↓reduceIte]
      omega
    · obtain ⟨hb, he, -⟩ := ReadCall.of_signal_ne (c := .beginRead j) hij calls
      refine ih ((recount_of_ne _ _ (Ne.symm hij)).trans hc) ?_ hcov
      simpa only [Occurrence.call?, Option.toList_some, List.singleton_append, hb, he] using hn
  | @ended c d j k os hj h ih =>
    rw [Cascade.callsOf_cons, List.append_assoc] at hcov ⊢
    by_cases hij : j = i
    · subst hij
      obtain rfl : k + 1 = n := by simpa [hj] using hc
      refine ih (recount_self ..) ?_ hcov
      simp only [Occurrence.call?, Option.toList_some, List.singleton_append, ReadCall.begins,
        ReadCall.ends, ↓reduceIte]
      omega
    · obtain ⟨hb, he, -⟩ := ReadCall.of_signal_ne (c := .endRead j) hij calls
      refine ih ((recount_of_ne _ _ (Ne.symm hij)).trans hc) ?_ hcov
      simpa only [Occurrence.call?, Option.toList_some, List.singleton_append, hb, he] using hn
  | @unpaired c d j os hj h ih =>
    rw [Cascade.callsOf_cons, List.append_assoc] at hcov ⊢
    by_cases hij : j = i
    · -- with no read outstanding the end was one too many
      subst hij
      obtain rfl : 0 = n := by simpa [hj] using hc
      have hle := hcov.of_append.le
      simp only [Occurrence.call?, Option.toList_some, List.singleton_append, ReadCall.begins,
        ReadCall.ends, ↓reduceIte] at hle
      omega
    · obtain ⟨hb, he, -⟩ := ReadCall.of_signal_ne (c := .endRead j) hij calls
      simp only [Cascade.unpairedOn, hij, ↓reduceIte, Nat.add_zero]
      refine ih hc ?_ hcov
      simpa only [Occurrence.call?, Option.toList_some, List.singleton_append, hb, he] using hn
  | woken h ih =>
    rw [Cascade.callsOf_cons, List.append_assoc] at hcov ⊢
    exact ih hc hn hcov

namespace Cascade

open ReadCall

/-- The first entry of a cascade tells of the call that set it off. -/
theorem settle_of_some (reactions : Reactions ω) {bank : Bank ω} {c : ReadCall} {s : CacheSignal ω}
    (h : bank[c.signal]? = some s) :
    ∃ o happened, (settle reactions bank [.call c]).2 = o :: happened ∧ o.call? = some c := by
  cases c with
  | beginRead j =>
    have hj : bank[j]? = some s := h
    rw [settle_beginRead reactions hj]
    exact ⟨_, _, rfl, rfl⟩
  | endRead j =>
    have hj : bank[j]? = some s := h
    cases ht : s.endRead? with
    | none =>
      rw [settle_endRead_of_none reactions hj ht]
      exact ⟨_, _, rfl, rfl⟩
    | some t =>
      rw [settle_endRead_of_some reactions hj ht]
      exact ⟨_, _, rfl, rfl⟩

/-- What becomes of a signal in a cascade, told by the calls in its log. -/
theorem settle_covered (reactions : Reactions ω) (bank : Bank ω) (duties : List (Duty ω)) {i : Nat}
    {s : CacheSignal ω} (hs : bank[i]? = some s) :
    ∃ t, (settle reactions bank duties).1[i]? = some t ∧
      t.total = s.total + begins i (callsOf (settle reactions bank duties).2) ∧
      ∀ {calls live}, s.pending + ends i calls = begins i calls + live →
        Covered i (callsOf (settle reactions bank duties).2 ++ calls) →
        unpairedOn i (settle reactions bank duties).2 = 0 ∧
          t.pending + ends i (callsOf (settle reactions bank duties).2 ++ calls) =
            begins i (callsOf (settle reactions bank duties).2 ++ calls) + live := by
  obtain ⟨t, ht, htotal, -, -⟩ := getElem?_settle reactions bank duties hs
  refine ⟨t, ht, by rw [htotal, begins_callsOf], fun {calls live} hcount hcov => ?_⟩
  have hreplays := settle_replays reactions bank duties
  obtain ⟨hunpaired, m, hm, hm'⟩ :=
    hreplays.covered (i := i) (n := s.pending) (by simp [Bank.counts, hs]) hcount hcov
  obtain rfl : t.pending = m := by simpa [Bank.counts, ht] using hm
  exact ⟨hunpaired, hm'⟩

end Cascade

namespace Script

open Cascade ReadCall

/-- The calls that foreign code made on counting signals, the latest first. It remarks on those that
it makes itself. An entry that follows another one of the same cascade comes from a waker. -/
def calls : List (Event (host σ ω)) → List ReadCall
  | [] => []
  | .note (.called call) :: h => call :: calls h
  | .cache o :: .cache p :: h => o.call?.toList ++ calls (.cache p :: h)
  | _ :: h => calls h

/-- The leases that began on a signal. -/
def leased (i : Nat) : List (Event (host σ ω)) → Nat
  | [] => 0
  | .leaseBegun (.cache j) :: h => leased i h + if j = i then 1 else 0
  | _ :: h => leased i h

/-- The leases that ended on a signal. -/
def returned (i : Nat) : List (Event (host σ ω)) → Nat
  | [] => 0
  | .leaseEnded (.cache j) :: h => returned i h + if j = i then 1 else 0
  | _ :: h => returned i h

/-- The ends on a signal that were reported as unpaired, in the log or to the caller. -/
def complaints (i : Nat) : List (Event (host σ ω)) → Nat
  | [] => 0
  | .cache (.unpaired j) :: h => complaints i h + if j = i then 1 else 0
  | .note (.refused j) :: h => complaints i h + if j = i then 1 else 0
  | _ :: h => complaints i h

/-- The latest entry of a log is not one of a cascade. -/
def Calm (h : List (Event (host σ ω))) : Prop := ∀ o h', h ≠ .cache o :: h'

def logged (happened : List (Occurrence ω)) (h : List (Event (host σ ω))) :
    List (Event (host σ ω)) :=
  (happened.map (Event.cache (H := host σ ω))).reverse ++ h

theorem logged_cons (o : Occurrence ω) (happened : List (Occurrence ω))
    (h : List (Event (host σ ω))) :
    logged (o :: happened) h = logged happened (.cache o :: h) := by
  simp [logged]

theorem calls_cache {o : Occurrence ω} {h : List (Event (host σ ω))} (hcalm : Calm h) :
    calls (.cache o :: h) = calls h := by
  cases h with
  | nil => rfl
  | cons e h =>
    cases e with
    | cache p => exact absurd rfl (hcalm p h)
    | _ => simp only [calls]

/-- Of a cascade, the first entry comes from whoever set it off, and the others from wakers. -/
theorem calls_logged (o : Occurrence ω) (happened : List (Occurrence ω))
    {h : List (Event (host σ ω))} (hcalm : Calm h) :
    calls (logged (o :: happened) h) = callsOf happened ++ calls h := by
  have hlater : ∀ (o : Occurrence ω) (h : List (Event (host σ ω))),
      calls (logged (o :: happened) h) = callsOf happened ++ calls (.cache o :: h) := by
    induction happened with
    | nil => exact fun o h => rfl
    | cons x happened ih =>
      intro o h
      rw [logged_cons, ih, callsOf_cons, List.append_assoc]
      rfl
  rw [hlater, calls_cache hcalm]

theorem leased_logged (i : Nat) (happened : List (Occurrence ω)) (h : List (Event (host σ ω))) :
    leased i (logged happened h) = leased i h := by
  induction happened generalizing h with
  | nil => rfl
  | cons o happened ih =>
    rw [logged_cons, ih]
    rfl

theorem returned_logged (i : Nat) (happened : List (Occurrence ω)) (h : List (Event (host σ ω))) :
    returned i (logged happened h) = returned i h := by
  induction happened generalizing h with
  | nil => rfl
  | cons o happened ih =>
    rw [logged_cons, ih]
    rfl

theorem complaints_logged (i : Nat) (happened : List (Occurrence ω)) (h : List (Event (host σ ω))) :
    complaints i (logged happened h) = unpairedOn i happened + complaints i h := by
  induction happened generalizing h with
  | nil => simp [unpairedOn, logged]
  | cons o happened ih =>
    rw [logged_cons, ih]
    cases o with
    | unpaired j =>
      simp only [complaints, unpairedOn]
      omega
    | begun | ended | woken => simp only [complaints, unpairedOn]

end Script

end ReadBarrier
