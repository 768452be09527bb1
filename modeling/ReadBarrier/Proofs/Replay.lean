import ReadBarrier.CacheSignal.Cascade

/-!
The log of a cascade replays the counters: what happened on the signals of a bank, read from first
to last, takes their counts from where they were to where they are.
-/

namespace ReadBarrier

variable {ω : Type}

namespace CacheSignal

theorem endRead?_eq_none_iff {s : CacheSignal ω} : s.endRead? = none ↔ s.pending = 0 := by
  unfold endRead?
  split <;> simp_all

/-- What an accepted end does, whether or not it is the last one. -/
theorem endRead?_eq_some {s t : CacheSignal ω} {wakers : List ω}
    (h : s.endRead? = some (t, wakers)) :
    s.pending = t.pending + 1 ∧ t.total = s.total ∧ t.nextTicket = s.nextTicket ∧
      t.waiters = (if t.pending = 0 then [] else s.waiters) ∧
      wakers = if t.pending = 0 then s.waiters.map (·.waker) else [] := by
  unfold endRead? at h
  split at h
  · simp at h
  · next he =>
    obtain ⟨rfl, rfl⟩ := by simpa using h
    simp [he]
  · next he =>
    obtain ⟨rfl, rfl⟩ := by simpa using h
    simp [he]

theorem holds_iff {s : CacheSignal ω} {t : Nat} :
    s.holds t = true ↔ t ∈ s.waiters.map (·.ticket) := by
  simp [holds]

theorem pollReady_of_zero {s : CacheSignal ω} (h : s.pending = 0) (ticket : Option Nat) (w : ω) :
    s.pollReady ticket w = (.ready (), none, s) := by
  simp [pollReady, h]

theorem pollReady_of_holds {s : CacheSignal ω} {t : Nat} (h : s.pending ≠ 0)
    (ht : s.holds t = true) (w : ω) :
    s.pollReady (some t) w = (.pending, some t, s.rewake t w) := by
  simp [pollReady, h, Option.filter, ht]

theorem pollReady_of_not_holds {s : CacheSignal ω} {ticket : Option Nat} (h : s.pending ≠ 0)
    (ht : ∀ t, ticket = some t → s.holds t = false) (w : ω) :
    s.pollReady ticket w = (.pending, some s.nextTicket, s.register w) := by
  cases ticket with
  | none => simp [pollReady, h]
  | some t => simp [pollReady, h, Option.filter, ht t rfl]

theorem pollReady_answer (s : CacheSignal ω) (ticket : Option Nat) (w : ω) :
    (s.pollReady ticket w).1 = if s.pending = 0 then .ready () else .pending := by
  by_cases hz : s.pending = 0
  · simp [pollReady, hz]
  · simp only [pollReady, hz, ↓reduceIte]
    split <;> rfl

theorem pollReady_counts (s : CacheSignal ω) (ticket : Option Nat) (w : ω) :
    (s.pollReady ticket w).2.2.pending = s.pending ∧
      (s.pollReady ticket w).2.2.total = s.total := by
  by_cases hz : s.pending = 0
  · simp [pollReady, hz]
  · simp only [pollReady, hz, ↓reduceIte]
    split <;> exact ⟨rfl, rfl⟩

end CacheSignal

namespace Cascade

@[simp] def begunOn (i : Nat) : List (Occurrence ω) → Nat
  | [] => 0
  | .begun j _ :: os => begunOn i os + if j = i then 1 else 0
  | .ended .. :: os | .unpaired _ :: os | .woken .. :: os => begunOn i os

/-- How many reads ended on a signal. A refused end is none. -/
@[simp] def endedOn (i : Nat) : List (Occurrence ω) → Nat
  | [] => 0
  | .ended j _ :: os => endedOn i os + if j = i then 1 else 0
  | .begun .. :: os | .unpaired _ :: os | .woken .. :: os => endedOn i os

/-- Whether the last read outstanding on a signal was ended. -/
@[simp] def emptied (i : Nat) : List (Occurrence ω) → Bool
  | [] => false
  | .ended j n :: os => (j == i && n == 0) || emptied i os
  | .begun .. :: os | .unpaired _ :: os | .woken .. :: os => emptied i os

@[simp] def woken : List (Occurrence ω) → List ω
  | [] => []
  | .woken w _ :: os => w :: woken os
  | .begun .. :: os | .ended .. :: os | .unpaired _ :: os => woken os

end Cascade

/-- How many reads are outstanding on each signal of a bank. -/
def Bank.counts (bank : Bank ω) (i : Nat) : Option Nat := (bank[i]?).map (·.pending)

def recount (counts : Nat → Option Nat) (i n : Nat) (j : Nat) : Option Nat :=
  if j = i then some n else counts j

@[simp] theorem recount_self (c : Nat → Option Nat) (i n : Nat) : recount c i n i = some n :=
  if_pos rfl

theorem recount_of_ne {i j : Nat} (c : Nat → Option Nat) (n : Nat) (h : j ≠ i) :
    recount c i n j = c j :=
  if_neg h

theorem Bank.counts_set {bank : Bank ω} {i : Nat} {s : CacheSignal ω} (h : bank[i]? = some s)
    (t : CacheSignal ω) : Bank.counts (bank.set i t) = recount bank.counts i t.pending := by
  have hi : i < bank.length := (List.getElem?_eq_some_iff.mp h).1
  funext j
  by_cases hj : i = j
  · subst hj
    simp [counts, recount, hi]
  · simp [counts, recount, hj, Ne.symm hj]

/-- What happened leads from some counts to others: each entry of the log fits the counts at its
time. A waker that looks at a signal sees the count of that time, too. -/
inductive Replays (watched : ω → Option Nat) :
    (Nat → Option Nat) → List (Occurrence ω) → (Nat → Option Nat) → Prop where
  | nil (c) : Replays watched c [] c
  | begun {c d i n os} (hc : c i = some n) (h : Replays watched (recount c i (n + 1)) os d) :
      Replays watched c (.begun i (n + 1) :: os) d
  | ended {c d i n os} (hc : c i = some (n + 1)) (h : Replays watched (recount c i n) os d) :
      Replays watched c (.ended i n :: os) d
  | unpaired {c d i os} (hc : c i = some 0) (h : Replays watched c os d) :
      Replays watched c (.unpaired i :: os) d
  | woken {c d w os} (h : Replays watched c os d) :
      Replays watched c (.woken w ((watched w).bind c) :: os) d

namespace Replays

open Cascade

variable {watched : ω → Option Nat} {c d : Nat → Option Nat} {os : List (Occurrence ω)}

/-- A log can be cut anywhere. -/
theorem cut {pre post : List (Occurrence ω)} (h : Replays watched c (pre ++ post) d) :
    ∃ e, Replays watched c pre e ∧ Replays watched e post d := by
  induction pre generalizing c with
  | nil => exact ⟨c, .nil c, h⟩
  | cons o pre ih =>
    cases h with
    | begun hc h =>
      obtain ⟨e, hp, hq⟩ := ih h
      exact ⟨e, .begun hc hp, hq⟩
    | ended hc h =>
      obtain ⟨e, hp, hq⟩ := ih h
      exact ⟨e, .ended hc hp, hq⟩
    | unpaired hc h =>
      obtain ⟨e, hp, hq⟩ := ih h
      exact ⟨e, .unpaired hc hp, hq⟩
    | woken h =>
      obtain ⟨e, hp, hq⟩ := ih h
      exact ⟨e, .woken hp, hq⟩

/-- Begins and ends are all that moves a count. -/
theorem count (h : Replays watched c os d) {i n : Nat} (hi : c i = some n) :
    ∃ m, d i = some m ∧ m + endedOn i os = n + begunOn i os := by
  induction h generalizing n with
  | nil c => exact ⟨n, hi, rfl⟩
  | @begun c d j k os hc h ih =>
    by_cases hj : i = j
    · subst hj
      obtain ⟨m, hm, he⟩ := ih (recount_self _ _ _)
      have hk : k = n := by simpa [hc] using hi
      refine ⟨m, hm, ?_⟩
      simp only [begunOn, endedOn, ↓reduceIte]
      omega
    · obtain ⟨m, hm, he⟩ := ih ((recount_of_ne _ _ hj).trans hi)
      exact ⟨m, hm, by simpa [Ne.symm hj] using he⟩
  | @ended c d j k os hc h ih =>
    by_cases hj : i = j
    · subst hj
      obtain ⟨m, hm, he⟩ := ih (recount_self _ _ _)
      have hk : k + 1 = n := by simpa [hc] using hi
      refine ⟨m, hm, ?_⟩
      simp only [begunOn, endedOn, ↓reduceIte]
      omega
    · obtain ⟨m, hm, he⟩ := ih ((recount_of_ne _ _ hj).trans hi)
      exact ⟨m, hm, by simpa [Ne.symm hj] using he⟩
  | unpaired hc h ih => exact ih hi
  | woken h ih => exact ih hi

end Replays

namespace Cascade

/-- A cascade logs all that it does to the counters. -/
theorem settle_replays (reactions : Reactions ω) (bank : Bank ω) (duties : List (Duty ω)) :
    Replays reactions.watched bank.counts (settle reactions bank duties).2
      (Bank.counts (settle reactions bank duties).1) := by
  fun_induction settle reactions bank duties with
  | case1 => exact .nil _
  | case2 bank i rest hs ih => exact ih
  | case3 bank i rest s hs after happened he ih =>
    rw [he, Bank.counts_set hs] at ih
    exact .begun (by simp [Bank.counts, hs]) ih
  | case4 bank i rest hs ih => exact ih
  | case5 bank i rest s hs ht after happened he ih =>
    rw [he] at ih
    have hz := CacheSignal.endRead?_eq_none_iff.mp ht
    exact .unpaired (by simp [Bank.counts, hs, hz]) ih
  | case6 bank i rest s hs t wakers ht after happened he ih =>
    rw [he, Bank.counts_set hs] at ih
    have hp := (CacheSignal.endRead?_eq_some ht).1
    exact .ended (by simp [Bank.counts, hs, hp]) ih
  | case7 bank w rest seen after happened he ih =>
    rw [he] at ih
    have hseen : seen = (reactions.watched w).bind bank.counts := by
      simp only [seen, Option.map_bind]
      rfl
    rw [hseen]
    exact .woken ih

end Cascade

end ReadBarrier
