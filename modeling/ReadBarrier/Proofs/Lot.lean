import ReadBarrier.Proofs.Replay

/-!
Who is woken when a counting signal becomes quiescent.

Futures wait for one signal, in any number. They are polled, with this or that waker, and dropped in
any order with the begins and the ends. What was done so far tells which of them are parked: no list
of waiters is needed for that, and the signal's own one agrees.
-/

namespace ReadBarrier

variable {ω : Type}

/-- What can be done to a signal and to the futures that wait for it, which are given by keys. -/
inductive Move (ω : Type) where
  | beginRead
  | endRead
  | poll (key : Nat) (waker : ω)
  | drop (key : Nat)

/-- What came of a move. An end that was not refused leaves so many reads outstanding and wakes these
wakers. -/
inductive Moved (ω : Type) where
  | begun (pending : Nat)
  | refused
  | ended (pending : Nat) (wakers : List ω)
  | polled (key : Nat) (waker : ω) (answer : Poll Unit)
  | dropped (key : Nat)

/-- Whether an entry of a log tells of a move on signal `i`. -/
def Occurrence.isOn (i : Nat) : Occurrence ω → Bool
  | .begun j _ | .ended j _ | .unpaired j => j == i
  | .woken .. => false

namespace Moved

def wakers : Moved ω → List ω
  | ended _ wakers => wakers
  | begun _ | refused | polled .. | dropped _ => []

def empties : Moved ω → Bool
  | ended n _ => n == 0
  | begun _ | refused | polled .. | dropped _ => false

def answer? : Moved ω → Option (Poll Unit)
  | polled _ _ answer => some answer
  | begun _ | refused | ended .. | dropped _ => none

/-- What a move on signal `i` is logged as. -/
def log (i : Nat) : Moved ω → List (Occurrence ω)
  | begun n => [.begun i n]
  | refused => [.unpaired i]
  | ended n _ => [.ended i n]
  | polled .. | dropped _ => []

/-- The waker of a future's latest poll if that was unfinished and no end has emptied the signal
since; none either if the future was dropped. The latest move comes first. -/
def parked (k : Nat) : List (Moved ω) → Option ω
  | [] => none
  | .begun _ :: trace | .refused :: trace => parked k trace
  | .ended n _ :: trace => if n = 0 then none else parked k trace
  | .polled j w answer :: trace =>
    if j = k then (if answer = .pending then some w else none) else parked k trace
  | .dropped j :: trace => if j = k then none else parked k trace

/-- When a future that is parked was registered: the number of moves before the first poll since
which it is parked. -/
def since (k : Nat) : List (Moved ω) → Nat
  | [] => 0
  | .polled j _ _ :: trace =>
    if j = k ∧ parked k trace = none then trace.length else since k trace
  | .begun _ :: trace | .refused :: trace | .ended .. :: trace | .dropped _ :: trace =>
    since k trace

end Moved

/-- A signal and the futures that wait for it, each given by its ticket. -/
structure Lot (ω : Type) where
  signal : CacheSignal ω := {}
  ticket : Nat → Option Nat := fun _ => none

namespace Lot

def setTicket (lot : Lot ω) (k : Nat) (t : Option Nat) (j : Nat) : Option Nat :=
  if j = k then t else lot.ticket j

def step (lot : Lot ω) : Move ω → Lot ω × Moved ω
  | .beginRead =>
    ({ lot with signal := lot.signal.beginRead }, .begun lot.signal.beginRead.pending)
  | .endRead =>
    match lot.signal.endRead? with
    | none => (lot, .refused)
    | some (s, wakers) => ({ lot with signal := s }, .ended s.pending wakers)
  | .poll k w =>
    let (answer, ticket, s) := lot.signal.pollReady (lot.ticket k) w
    (⟨s, lot.setTicket k ticket⟩, .polled k w answer)
  | .drop k => (⟨lot.signal.abandon (lot.ticket k), lot.setTicket k none⟩, .dropped k)

/-- Makes moves one after the other, starting after those of `trace`. -/
def run (lot : Lot ω) (trace : List (Moved ω)) : List (Move ω) → Lot ω × List (Moved ω)
  | [] => (lot, trace)
  | move :: moves => run (lot.step move).1 ((lot.step move).2 :: trace) moves

open Moved

/-- What the moves made so far tell about the next one. -/
structure Fair (lot : Lot ω) (trace : List (Moved ω)) : Prop where
  /-- Nobody is parked while no read is outstanding. -/
  idle : lot.signal.pending = 0 → ∀ k, parked k trace = none
  /-- An end fails or leaves one read less. -/
  ends : match lot.signal.pending with
    | 0 => (lot.step .endRead).2 = .refused
    | n + 1 => ∃ wakers, (lot.step .endRead).2 = .ended n wakers
  /-- The end that leaves no read wakes the parked futures, each once and with the waker of its
  latest poll, in the order in which they were registered. No other move wakes anyone. -/
  wakes : ∃ ks : List Nat, (∀ k, k ∈ ks ↔ (parked k trace).isSome) ∧
    (ks.Pairwise fun k j => since k trace < since j trace) ∧
    ∀ move, (lot.step move).2.wakers.map some =
      if (lot.step move).2.empties then ks.map (parked · trace) else []
  /-- A poll is unfinished exactly while reads are outstanding. It parks its future, again or anew,
  and one that is parked already keeps its place. -/
  polls : ∀ k w, if lot.signal.pending = 0 then
      (lot.step (.poll k w)).2 = .polled k w (.ready ())
    else
      (lot.step (.poll k w)).2 = .polled k w .pending ∧
      parked k (.polled k w .pending :: trace) = some w ∧
      since k (.polled k w .pending :: trace) =
        if (parked k trace).isSome then since k trace else trace.length

/-- The list of waiters is that of the parked futures, `ks`, in the order in which they were
registered. A ticket is never given to two futures, also not one whose entry is gone. -/
structure Parks (lot : Lot ω) (trace : List (Moved ω)) (ks : List Nat) : Prop where
  listed : lot.signal.waiters.map (fun x => (some x.ticket, some x.waker)) =
    ks.map fun k => (lot.ticket k, parked k trace)
  parked : ∀ k, k ∈ ks ↔ (parked k trace).isSome
  ordered : ks.Pairwise fun k j => since k trace < since j trace
  earlier : ∀ k ∈ ks, since k trace < trace.length
  fresh : ∀ k t, lot.ticket k = some t → t < lot.signal.nextTicket
  distinct : ∀ k j t, lot.ticket k = some t → lot.ticket j = some t → k = j
  idle : lot.signal.pending = 0 → ks = []

end Lot

namespace Lot

open Moved

variable {lot : Lot ω} {trace : List (Moved ω)} {ks : List Nat}

theorem setTicket_self (k : Nat) (t : Option Nat) : lot.setTicket k t k = t := if_pos rfl

theorem setTicket_of_ne {k j : Nat} (t : Option Nat) (h : j ≠ k) :
    lot.setTicket k t j = lot.ticket j :=
  if_neg h

namespace Parks

/-- An entry under the ticket of a future is that of the future. -/
theorem holds_iff (h : Parks lot trace ks) {k t : Nat} (ht : lot.ticket k = some t) :
    lot.signal.holds t = true ↔ k ∈ ks := by
  have hlisted := congrArg (List.map Prod.fst) h.listed
  simp only [List.map_map, Function.comp_def] at hlisted
  have hmem : some t ∈ lot.signal.waiters.map (fun x => some x.ticket) ↔
      some t ∈ ks.map lot.ticket := by rw [hlisted]
  rw [CacheSignal.holds_iff]
  constructor
  · intro hw
    obtain ⟨x, hx, rfl⟩ := List.mem_map.mp hw
    obtain ⟨j, hj, hjt⟩ := List.mem_map.mp (hmem.mp (List.mem_map.mpr ⟨x, hx, rfl⟩))
    exact h.distinct j k x.ticket hjt ht ▸ hj
  · intro hk
    obtain ⟨x, hx, hxt⟩ := List.mem_map.mp (hmem.mpr (List.mem_map.mpr ⟨k, hk, ht⟩))
    exact List.mem_map.mpr ⟨x, hx, Option.some.inj hxt⟩

theorem ticket_isSome (h : Parks lot trace ks) {k : Nat} (hk : k ∈ ks) :
    ∃ t, lot.ticket k = some t := by
  have hmem : (lot.ticket k, Moved.parked k trace) ∈
      lot.signal.waiters.map (fun x => (some x.ticket, some x.waker)) := by
    rw [h.listed]
    exact List.mem_map.mpr ⟨k, hk, rfl⟩
  obtain ⟨x, -, hx⟩ := List.mem_map.mp hmem
  exact ⟨x.ticket, (congrArg Prod.fst hx).symm⟩

theorem parked_of_idle (h : Parks lot trace ks) (hz : lot.signal.pending = 0) (k : Nat) :
    Moved.parked k trace = none := by
  have hk := h.parked k
  rw [h.idle hz] at hk
  simpa using hk

theorem empty : Parks (ω := ω) {} [] [] where
  listed := rfl
  parked k := by simp [Moved.parked]
  ordered := .nil
  earlier k hk := by simp at hk
  fresh k t ht := by simp at ht
  distinct k j t hk := by simp at hk
  idle _ := rfl

theorem beginRead (h : Parks lot trace ks) :
    Parks (lot.step .beginRead).1 ((lot.step .beginRead).2 :: trace) ks where
  listed := h.listed
  parked := h.parked
  ordered := h.ordered
  earlier k hk := Nat.lt_succ_of_lt (h.earlier k hk)
  fresh := h.fresh
  distinct := h.distinct
  idle hz := by simp [step, CacheSignal.beginRead] at hz

theorem refused (h : Parks lot trace ks) : Parks lot (.refused :: trace) ks where
  listed := h.listed
  parked := h.parked
  ordered := h.ordered
  earlier k hk := Nat.lt_succ_of_lt (h.earlier k hk)
  fresh := h.fresh
  distinct := h.distinct
  idle := h.idle

theorem ended (h : Parks lot trace ks) {s : CacheSignal ω} {wakers : List ω}
    (hs : lot.signal.endRead? = some (s, wakers)) :
    Parks { lot with signal := s } (.ended s.pending wakers :: trace)
      (if s.pending = 0 then [] else ks) := by
  obtain ⟨-, -, hticket, hwaiters, -⟩ := CacheSignal.endRead?_eq_some hs
  by_cases hz : s.pending = 0
  · simp only [hz, ↓reduceIte] at hwaiters ⊢
    exact {
      listed := by simp [hwaiters]
      parked := fun k => by simp [Moved.parked]
      ordered := .nil
      earlier := fun k hk => by simp at hk
      fresh := hticket ▸ h.fresh
      distinct := h.distinct
      idle := fun _ => rfl }
  · simp only [hz, ↓reduceIte] at hwaiters ⊢
    exact {
      listed := by simpa [hwaiters, Moved.parked, hz] using h.listed
      parked := fun k => by simpa [Moved.parked, hz] using h.parked k
      ordered := h.ordered
      earlier := fun k hk => Nat.lt_succ_of_lt (h.earlier k hk)
      fresh := hticket ▸ h.fresh
      distinct := h.distinct
      idle := fun h0 => absurd h0 hz }

/-- The ticket of one future is gone or new. -/
theorem distinct_setTicket (h : Parks lot trace ks) (k : Nat) {new : Option Nat}
    (hnew : ∀ t, new = some t → lot.signal.nextTicket ≤ t) (i j t : Nat)
    (hi : lot.setTicket k new i = some t) (hj : lot.setTicket k new j = some t) : i = j := by
  by_cases hik : i = k
  · subst hik
    rw [setTicket_self] at hi
    by_cases hji : j = i
    · exact hji.symm
    · rw [setTicket_of_ne _ hji] at hj
      have hlt := h.fresh j t hj
      have hle := hnew t hi
      omega
  · rw [setTicket_of_ne _ hik] at hi
    by_cases hjk : j = k
    · subst hjk
      rw [setTicket_self] at hj
      have hlt := h.fresh i t hi
      have hle := hnew t hj
      omega
    · rw [setTicket_of_ne _ hjk] at hj
      exact h.distinct i j t hi hj

theorem ready (h : Parks lot trace ks) (hz : lot.signal.pending = 0) (k : Nat) (w : ω) :
    Parks ⟨lot.signal, lot.setTicket k none⟩ (.polled k w (.ready ()) :: trace) [] := by
  obtain rfl := h.idle hz
  exact {
    listed := h.listed
    parked := fun j => by
      by_cases hj : k = j
      · simp [Moved.parked, hj]
      · simpa [Moved.parked, hj] using h.parked j
    ordered := .nil
    earlier := fun j hj => by simp at hj
    fresh := fun j t hj => by
      by_cases hjk : j = k
      · simp [hjk, setTicket_self] at hj
      · exact h.fresh j t ((setTicket_of_ne none hjk).symm.trans hj)
    distinct := h.distinct_setTicket k (by simp)
    idle := fun _ => rfl }

theorem since_polled (h : Parks lot trace ks) {k j : Nat} (hk : k ∈ ks) (w : ω)
    (answer : Poll Unit) : since j (.polled k w answer :: trace) = since j trace := by
  have hp := (h.parked k).mp hk
  by_cases hj : k = j
  · subst hj
    simp [since, Option.ne_none_iff_isSome.mpr hp]
  · simp [since, hj]

theorem rewoken (h : Parks lot trace ks) (hz : lot.signal.pending ≠ 0) {k t : Nat} (hk : k ∈ ks)
    (ht : lot.ticket k = some t) (w : ω) :
    Parks ⟨lot.signal.rewake t w, lot.setTicket k (some t)⟩ (.polled k w .pending :: trace) ks := by
  have hticket : lot.setTicket k (some t) = lot.ticket := by
    funext j
    by_cases hj : j = k
    · rw [hj, setTicket_self, ht]
    · exact setTicket_of_ne _ hj
  rw [hticket]
  exact {
    listed := by
      have hmap := congrArg
        (List.map fun p : Option Nat × Option ω => if p.1 = some t then (p.1, some w) else p)
        h.listed
      simp only [List.map_map] at hmap
      simp only [CacheSignal.rewake, List.map_map]
      refine (List.map_congr_left fun x hx => ?_).trans
        (hmap.trans (List.map_congr_left fun j hj => ?_))
      · by_cases hxt : x.ticket = t <;> simp [hxt]
      · by_cases hjk : k = j
        · subst hjk
          simp [ht, Moved.parked]
        · have hjt : lot.ticket j ≠ some t := fun he => hjk (h.distinct k j t ht he)
          simp [hjt, Moved.parked, hjk]
    parked := fun j => by
      by_cases hj : k = j
      · subst hj
        simpa [Moved.parked] using hk
      · simpa [Moved.parked, hj] using h.parked j
    ordered := by simpa only [h.since_polled hk] using h.ordered
    earlier := fun j hj => by
      rw [h.since_polled hk]
      exact Nat.lt_succ_of_lt (h.earlier j hj)
    fresh := h.fresh
    distinct := h.distinct
    idle := fun h0 => absurd h0 hz }

theorem registered (h : Parks lot trace ks) (hz : lot.signal.pending ≠ 0) {k : Nat} (hk : k ∉ ks)
    (w : ω) :
    Parks ⟨lot.signal.register w, lot.setTicket k (some lot.signal.nextTicket)⟩
      (.polled k w .pending :: trace) (ks ++ [k]) := by
  have hpk : Moved.parked k trace = none := by
    have hp := mt (h.parked k).mpr hk
    simpa using hp
  have hsince : ∀ j ∈ ks, since j (.polled k w .pending :: trace) = since j trace := by
    intro j hj
    have hne : k ≠ j := fun he => hk (he ▸ hj)
    simp [since, hne]
  have hself : since k (.polled k w .pending :: trace) = trace.length := by simp [since, hpk]
  exact {
    listed := by
      simp only [CacheSignal.register, List.map_append, h.listed, List.map_cons, List.map_nil]
      congr 1
      · refine List.map_congr_left fun j hj => ?_
        have hne : j ≠ k := fun he => hk (he ▸ hj)
        simp [setTicket_of_ne _ hne, Moved.parked, Ne.symm hne]
      · simp [setTicket_self, Moved.parked]
    parked := fun j => by
      by_cases hj : k = j
      · subst hj
        simp [Moved.parked]
      · simpa [Moved.parked, hj, Ne.symm hj] using h.parked j
    ordered := by
      refine List.pairwise_append.mpr ⟨?_, List.pairwise_singleton _ _, ?_⟩
      · refine h.ordered.imp_of_mem fun hi hj hlt => ?_
        rw [hsince _ hi, hsince _ hj]
        exact hlt
      · intro i hi j hj
        obtain rfl := List.mem_singleton.mp hj
        rw [hsince i hi, hself]
        exact h.earlier i hi
    earlier := fun j hj => by
      rcases List.mem_append.mp hj with hj | hj
      · rw [hsince j hj]
        exact Nat.lt_succ_of_lt (h.earlier j hj)
      · obtain rfl := List.mem_singleton.mp hj
        rw [hself]
        exact Nat.lt_succ_self _
    fresh := fun j t hj => by
      simp only [CacheSignal.register] at hj ⊢
      by_cases hjk : j = k
      · rw [hjk, setTicket_self] at hj
        cases hj
        exact Nat.lt_succ_self _
      · exact Nat.lt_succ_of_lt (h.fresh j t ((setTicket_of_ne _ hjk).symm.trans hj))
    distinct := h.distinct_setTicket k (by simp)
    idle := fun h0 => absurd h0 hz }

theorem dropped (h : Parks lot trace ks) (k : Nat) :
    Parks ⟨lot.signal.abandon (lot.ticket k), lot.setTicket k none⟩ (.dropped k :: trace)
      (ks.filter (· ≠ k)) := by
  have hpending : (lot.signal.abandon (lot.ticket k)).pending = lot.signal.pending := by
    cases lot.ticket k <;> rfl
  have hnext : (lot.signal.abandon (lot.ticket k)).nextTicket = lot.signal.nextTicket := by
    cases lot.ticket k <;> rfl
  have hwaiters : (lot.signal.abandon (lot.ticket k)).waiters =
      lot.signal.waiters.filter fun x => some x.ticket ≠ lot.ticket k := by
    cases hk : lot.ticket k with
    | none => exact (List.filter_eq_self.mpr (by simp)).symm
    | some t =>
      refine List.filter_congr fun x _ => ?_
      by_cases hx : x.ticket = t <;> simp [hx]
  exact {
    listed := by
      have hfilter := congrArg
        (List.filter fun p : Option Nat × Option ω => p.1 ≠ lot.ticket k) h.listed
      simp only [List.filter_map, Function.comp_def] at hfilter
      rw [hwaiters, hfilter]
      have hks : ks.filter (fun j => lot.ticket j ≠ lot.ticket k) = ks.filter (· ≠ k) := by
        refine List.filter_congr fun j hj => ?_
        obtain ⟨t, ht⟩ := h.ticket_isSome hj
        by_cases hjk : j = k
        · simp [hjk]
        · have hne : lot.ticket j ≠ lot.ticket k := fun he =>
            hjk (h.distinct j k t ht (he ▸ ht))
          simp [hjk, hne]
      rw [hks]
      refine List.map_congr_left fun j hj => ?_
      have hjk : j ≠ k := by simpa using (List.mem_filter.mp hj).2
      simp [setTicket_of_ne _ hjk, Moved.parked, Ne.symm hjk]
    parked := fun j => by
      by_cases hj : k = j
      · simp [Moved.parked, hj]
      · simpa [Moved.parked, hj, Ne.symm hj] using h.parked j
    ordered := h.ordered.filter _
    earlier := fun j hj => Nat.lt_succ_of_lt (h.earlier j (List.mem_filter.mp hj).1)
    fresh := fun j t hj => by
      simp only [hnext] at hj ⊢
      by_cases hjk : j = k
      · simp [hjk, setTicket_self] at hj
      · exact h.fresh j t ((setTicket_of_ne none hjk).symm.trans hj)
    distinct := h.distinct_setTicket k (by simp)
    idle := fun hz => by simp [h.idle (hpending.symm.trans hz)] }

/-- Each move leaves the signal's list one of the parked futures. -/
theorem step (h : Parks lot trace ks) (move : Move ω) :
    ∃ ks', Parks (lot.step move).1 ((lot.step move).2 :: trace) ks' := by
  cases move with
  | beginRead => exact ⟨ks, h.beginRead⟩
  | endRead =>
    simp only [Lot.step]
    split
    · exact ⟨ks, h.refused⟩
    · next s wakers hs => exact ⟨_, h.ended hs⟩
  | poll k w =>
    by_cases hz : lot.signal.pending = 0
    · simp only [Lot.step, CacheSignal.pollReady_of_zero hz]
      exact ⟨[], h.ready hz k w⟩
    · by_cases hk : k ∈ ks
      · obtain ⟨t, ht⟩ := h.ticket_isSome hk
        have hholds := (h.holds_iff ht).mpr hk
        simp only [Lot.step, ht, CacheSignal.pollReady_of_holds hz hholds]
        exact ⟨ks, h.rewoken hz hk ht w⟩
      · have hholds : ∀ t, lot.ticket k = some t → lot.signal.holds t = false := fun t ht =>
          Bool.eq_false_iff.mpr (mt (h.holds_iff ht).mp hk)
        simp only [Lot.step, CacheSignal.pollReady_of_not_holds hz hholds]
        exact ⟨ks ++ [k], h.registered hz hk w⟩
  | drop k => exact ⟨_, h.dropped k⟩

theorem run (h : Parks lot trace ks) (moves : List (Move ω)) :
    ∃ ks', Parks (lot.run trace moves).1 (lot.run trace moves).2 ks' := by
  induction moves generalizing lot trace ks with
  | nil => exact ⟨ks, h⟩
  | cons move moves ih =>
    obtain ⟨ks', h'⟩ := h.step move
    exact ih h'

theorem fair (h : Parks lot trace ks) : Fair lot trace where
  idle := h.parked_of_idle
  ends := by
    simp only [Lot.step]
    cases hs : lot.signal.endRead? with
    | none =>
      rw [CacheSignal.endRead?_eq_none_iff.mp hs]
    | some t =>
      rw [(CacheSignal.endRead?_eq_some hs).1]
      exact ⟨t.2, rfl⟩
  wakes := by
    refine ⟨ks, h.parked, h.ordered, fun move => ?_⟩
    cases move with
    | beginRead => rfl
    | endRead =>
      cases hs : lot.signal.endRead? with
      | none =>
        simp only [Lot.step, hs]
        rfl
      | some t =>
        obtain ⟨-, -, -, -, hwakers⟩ := CacheSignal.endRead?_eq_some hs
        simp only [Lot.step, hs]
        have hlisted := congrArg (List.map Prod.snd) h.listed
        simp only [List.map_map, Function.comp_def] at hlisted
        by_cases hz : t.1.pending = 0
        · simpa [Moved.wakers, empties, hwakers, hz, Function.comp_def] using hlisted
        · simp [Moved.wakers, empties, hwakers, hz]
    | poll k w => rfl
    | drop k => rfl
  polls k w := by
    by_cases hz : lot.signal.pending = 0
    · simp [hz, Lot.step, CacheSignal.pollReady_of_zero hz]
    · have hanswer := CacheSignal.pollReady_answer lot.signal (lot.ticket k) w
      rw [if_neg hz] at hanswer ⊢
      refine ⟨by simp [Lot.step, hanswer], by simp [Moved.parked], ?_⟩
      cases hp : Moved.parked k trace <;> simp [since, hp]

end Parks

/-- A cascade made `calls` on signal `i`, all of them begins and ends. They are moves like those that
were made before, in `trace`. -/
structure Called (lot : Lot ω) (trace : List (Moved ω)) (calls : List (Move ω)) (i : Nat)
    (after : Bank ω) (happened : List (Occurrence ω)) : Prop where
  reads : ∀ move ∈ calls, move = .beginRead ∨ move = .endRead
  signal : after[i]? = some (lot.run trace calls).1.signal
  ticket : (lot.run trace calls).1.ticket = lot.ticket
  logged : (lot.run trace calls).2.flatMap (log i) =
    (happened.filter (·.isOn i)).reverse ++ trace.flatMap (log i)

section Called

variable {calls : List (Move ω)} {i : Nat} {after : Bank ω} {happened : List (Occurrence ω)}
  {o : Occurrence ω}

theorem Called.cons {move : Move ω} (hmove : move = .beginRead ∨ move = .endRead)
    (h : Called (lot.step move).1 ((lot.step move).2 :: trace) calls i after happened)
    (ho : o.isOn i = true) (hlog : log i (lot.step move).2 = [o]) :
    Called lot trace (move :: calls) i after (o :: happened) where
  reads := List.forall_mem_cons.mpr ⟨hmove, h.reads⟩
  signal := h.signal
  ticket := by
    have hticket : (lot.step move).1.ticket = lot.ticket := by
      rcases hmove with rfl | rfl
      · rfl
      · simp only [step]
        split <;> rfl
    exact h.ticket.trans hticket
  logged := by
    rw [run, h.logged]
    simp [ho, hlog]

/-- What happens on other signals leaves this one alone. -/
theorem Called.skip (h : Called lot trace calls i after happened) (ho : o.isOn i = false) :
    Called lot trace calls i after (o :: happened) :=
  ⟨h.reads, h.signal, h.ticket, by simpa [ho] using h.logged⟩

/-- What a cascade does to a signal is done by moves. -/
theorem called_settle (reactions : Reactions ω) (bank : Bank ω) (duties : List (Duty ω))
    (trace : List (Moved ω)) (hs : bank[i]? = some lot.signal) :
    ∃ calls, Called lot trace calls i (Cascade.settle reactions bank duties).1
      (Cascade.settle reactions bank duties).2 := by
  fun_induction Cascade.settle reactions bank duties generalizing lot trace with
  | case1 => exact ⟨[], by simp, hs, rfl, rfl⟩
  | case2 bank j rest hj ih => exact ih trace hs
  | case3 bank j rest s hj after happened he ih =>
    rw [he] at ih
    by_cases hij : j = i
    · subst hij
      obtain rfl : lot.signal = s := by simpa [hs] using hj
      obtain ⟨calls, hcalls⟩ := @ih (lot.step .beginRead).1 ((lot.step .beginRead).2 :: trace)
        (by simp [(List.getElem?_eq_some_iff.mp hs).1, step])
      exact ⟨.beginRead :: calls, hcalls.cons (.inl rfl) (by simp [Occurrence.isOn]) rfl⟩
    · obtain ⟨calls, hcalls⟩ := ih trace (by simpa [hij] using hs)
      exact ⟨calls, hcalls.skip (by simpa [Occurrence.isOn] using hij)⟩
  | case4 bank j rest hj ih => exact ih trace hs
  | case5 bank j rest s hj ht after happened he ih =>
    rw [he] at ih
    by_cases hij : j = i
    · subst hij
      obtain rfl : lot.signal = s := by simpa [hs] using hj
      have hstep : lot.step .endRead = (lot, .refused) := by simp [step, ht]
      obtain ⟨calls, hcalls⟩ := ih (.refused :: trace) hs
      exact ⟨.endRead :: calls, Called.cons (.inr rfl) (hstep ▸ hcalls) (by simp [Occurrence.isOn])
        (by rw [hstep]; rfl)⟩
    · obtain ⟨calls, hcalls⟩ := ih trace hs
      exact ⟨calls, hcalls.skip (by simpa [Occurrence.isOn] using hij)⟩
  | case6 bank j rest s hj t wakers ht after happened he ih =>
    rw [he] at ih
    by_cases hij : j = i
    · subst hij
      obtain rfl : lot.signal = s := by simpa [hs] using hj
      have hstep : lot.step .endRead = ({ lot with signal := t }, .ended t.pending wakers) := by
        simp [step, ht]
      obtain ⟨calls, hcalls⟩ := @ih { lot with signal := t } (.ended t.pending wakers :: trace)
        (by simp [(List.getElem?_eq_some_iff.mp hs).1])
      exact ⟨.endRead :: calls, Called.cons (.inr rfl) (hstep ▸ hcalls) (by simp [Occurrence.isOn])
        (by rw [hstep]; rfl)⟩
    · obtain ⟨calls, hcalls⟩ := ih trace (by simpa [hij] using hs)
      exact ⟨calls, hcalls.skip (by simpa [Occurrence.isOn] using hij)⟩
  | case7 bank w rest seen after happened he =>
    next ih =>
      rw [he] at ih
      obtain ⟨calls, hcalls⟩ := ih trace hs
      exact ⟨calls, hcalls.skip rfl⟩

end Called

end Lot

end ReadBarrier
