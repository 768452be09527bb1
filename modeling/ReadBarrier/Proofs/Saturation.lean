import Mathlib.Data.List.Infix
import Mathlib.Order.Bounds.Basic
import ReadBarrier.Proofs.Parking
import ReadBarrier.Scenario.Stage

/-!
The counting signal beside one that only takes down its calls.

The count of the former stops at zero, and the balance of the latter does not. What lies between
them is how often an end came too early, which is how far the balance was ever below zero.
-/

namespace ReadBarrier

open Act

namespace SignalEvent

/-- Makes a call on a signal. -/
def call {H : Host} [Foreign H] (signal : SignalRef H.Signal) : SignalEvent → Act H Unit
  | .begin => signal.beginRead
  | .finish => signal.endRead

end SignalEvent

/-! ### The lowest balance -/

/-- Reads begun less reads ended in some calls. -/
def SignalEvent.balance (events : List SignalEvent) : Int := (RecordingSignal.mk events).pending

/-- Starting from `pending`, the balance falls below zero by `depth` at some time, and never by
more. -/
structure Dips (pending : Nat) (events : List SignalEvent) (depth : Nat) : Prop where
  above : ∀ before, before <+: events → 0 ≤ pending + SignalEvent.balance before + depth
  reached : depth = 0 ∨
    ∃ before, before <+: events ∧ pending + SignalEvent.balance before + depth = 0

namespace Dips

open SignalEvent

variable {pending depth : Nat} {events : List SignalEvent}

theorem balance_begin (events : List SignalEvent) :
    balance (.begin :: events) = balance events + 1 := by
  simp only [balance, RecordingSignal.pending, RecordingSignal.begins, RecordingSignal.ends,
    List.count_cons_self, List.count_cons_of_ne (by decide : SignalEvent.begin ≠ .finish)]
  omega

theorem balance_finish (events : List SignalEvent) :
    balance (.finish :: events) = balance events - 1 := by
  simp only [balance, RecordingSignal.pending, RecordingSignal.begins, RecordingSignal.ends,
    List.count_cons_self, List.count_cons_of_ne (by decide : SignalEvent.finish ≠ .begin)]
  omega

theorem nil (pending : Nat) : Dips pending [] 0 where
  above before h := by
    rw [List.prefix_nil.mp h]
    exact Int.natCast_nonneg pending
  reached := .inl rfl

theorem begin (h : Dips (pending + 1) events depth) : Dips pending (.begin :: events) depth where
  above before hbefore := by
    rcases List.prefix_cons_iff.mp hbefore with rfl | ⟨rest, rfl, hrest⟩
    · change (0 : Int) ≤ pending + 0 + depth
      omega
    · have habove := h.above rest hrest
      rw [balance_begin]
      omega
  reached := by
    rcases h.reached with hz | ⟨before, hbefore, heq⟩
    · exact .inl hz
    · refine .inr ⟨.begin :: before, List.prefix_cons_inj _ |>.mpr hbefore, ?_⟩
      rw [balance_begin]
      omega

theorem finish (h : Dips pending events depth) : Dips (pending + 1) (.finish :: events) depth where
  above before hbefore := by
    rcases List.prefix_cons_iff.mp hbefore with rfl | ⟨rest, rfl, hrest⟩
    · change (0 : Int) ≤ (pending + 1 : Nat) + 0 + depth
      omega
    · have habove := h.above rest hrest
      rw [balance_finish]
      omega
  reached := by
    rcases h.reached with hz | ⟨before, hbefore, heq⟩
    · exact .inl hz
    · refine .inr ⟨.finish :: before, List.prefix_cons_inj _ |>.mpr hbefore, ?_⟩
      rw [balance_finish]
      omega

/-- An end that comes too early takes the balance one further down. -/
theorem early (h : Dips 0 events depth) : Dips 0 (.finish :: events) (depth + 1) where
  above before hbefore := by
    rcases List.prefix_cons_iff.mp hbefore with rfl | ⟨rest, rfl, hrest⟩
    · change (0 : Int) ≤ (0 : Nat) + 0 + (depth + 1 : Nat)
      omega
    · have habove := h.above rest hrest
      rw [balance_finish]
      omega
  reached := by
    refine .inr ?_
    rcases h.reached with hz | ⟨before, hbefore, heq⟩
    · refine ⟨[.finish], List.prefix_cons_inj _ |>.mpr List.nil_prefix, ?_⟩
      subst hz
      rfl
    · refine ⟨.finish :: before, List.prefix_cons_inj _ |>.mpr hbefore, ?_⟩
      rw [balance_finish]
      omega

/-- The depth is how far the least balance lies below zero. -/
theorem isLeast (h : Dips 0 events depth) :
    IsLeast {b | ∃ before, before <+: events ∧ b = balance before} (-(depth : Int)) := by
  constructor
  · rcases h.reached with hz | ⟨before, hbefore, heq⟩
    · refine ⟨[], List.nil_prefix, ?_⟩
      subst hz
      rfl
    · exact ⟨before, hbefore, by omega⟩
  · rintro b ⟨before, hbefore, rfl⟩
    have habove := h.above before hbefore
    omega

theorem depth_eq_zero_iff (h : Dips 0 events depth) :
    depth = 0 ↔ ∀ before, before <+: events → before.count .finish ≤ before.count .begin := by
  have hcounts (before : List SignalEvent) :
      balance before = (before.count .begin : Int) - before.count .finish := rfl
  constructor
  · intro hz before hbefore
    have habove := h.above before hbefore
    rw [hcounts] at habove
    omega
  · intro hall
    rcases h.reached with hz | ⟨before, hbefore, heq⟩
    · exact hz
    · have hle := hall before hbefore
      rw [hcounts] at heq
      omega

end Dips

/-! ### Both signals, call by call -/

namespace Scenario

variable {ν : Type}

/-- Makes a call on a counting signal and on a recording one. -/
def callBoth (i j : Nat) (event : SignalEvent) : Act (host ν) Unit := do
  event.call (.cache i)
  event.call (.foreign (.recording j))

/-- How many of some calls are ends that find no read outstanding on the counting signal. -/
def tooEarly (i j : Nat) : List SignalEvent → World (host ν) → Nat
  | [], _ => 0
  | event :: events, w =>
    tooEarly i j events (exec (callBoth i j event) w).2 +
      if event = .finish ∧ w.caches.counts i = some 0 then 1 else 0

/-- How the two signals stand, where nobody waits. -/
structure Standing (i j : Nat) (w : World (host ν)) (pending total : Nat)
    (events : List SignalEvent) : Prop where
  counting : ∃ nextTicket, w.caches[i]? = some { pending, total, waiters := [], nextTicket }
  recording : (stageOf w).recordings[j]? = some ⟨events⟩

namespace Standing

variable {i j pending total : Nat} {w : World (host ν)} {events : List SignalEvent}

theorem recorded (h : Standing i j w pending total events) (event : SignalEvent) :
    ∃ v, exec (event.call (.foreign (.recording j) : SignalRef Double)) w = (.ok (), v) ∧
      Standing i j v pending total (events ++ [event]) := by
  obtain ⟨hcounting, hrecording⟩ := h
  cases event with
  | begin =>
    refine ⟨_, rfl, hcounting, ?_⟩
    change ((stageOf w).recordings.modify j (·.beginRead))[j]? = _
    simp [hrecording, RecordingSignal.beginRead]
  | finish =>
    refine ⟨_, rfl, hcounting, ?_⟩
    change ((stageOf w).recordings.modify j (·.endRead))[j]? = _
    simp [hrecording, RecordingSignal.endRead]

theorem moved (h : Standing i j w pending total events) (moved : Moved Waker)
    {s : CacheSignal Waker} (hs : s.waiters = []) :
    Standing i j (w.moved i s moved) s.pending s.total events := by
  obtain ⟨⟨next, hcounting⟩, hrecording⟩ := h
  have hlt := (List.getElem?_eq_some_iff.mp hcounting).1
  refine ⟨⟨s.nextTicket, ?_⟩, hrecording⟩
  change (w.caches.set i s)[i]? = _
  rw [List.getElem?_set_self hlt, ← hs]

theorem begun (h : Standing i j w pending total events) :
    ∃ v, exec (callBoth i j .begin) w = (.ok (), v) ∧
      Standing i j v (pending + 1) (total + 1) (events ++ [.begin]) := by
  obtain ⟨next, hcounting⟩ := h.counting
  have hcall := exec_settle [.call (.beginRead i)] w
  rw [World.settle_beginRead hcounting] at hcall
  have hmoved := h.moved (.begun (pending + 1))
    (s := { pending := pending + 1, total := total + 1, waiters := [], nextTicket := next }) rfl
  obtain ⟨v, hv, hstanding⟩ := hmoved.recorded .begin
  exact ⟨v, exec_bind_eq_ok.mpr ⟨(), _, hcall, hv⟩, hstanding⟩

/-- An end that finds no read outstanding leaves the count as it is. -/
theorem ended (h : Standing i j w pending total events) :
    ∃ v, exec (callBoth i j .finish) w = (.ok (), v) ∧
      Standing i j v (pending - 1) total (events ++ [.finish]) := by
  obtain ⟨next, hcounting⟩ := h.counting
  have hcall := exec_settle [.call (.endRead i)] w
  cases pending with
  | zero =>
    rw [World.settle_endRead_of_none hcounting rfl] at hcall
    have hmoved := h.moved .refused
      (s := { pending := 0, total, waiters := [], nextTicket := next }) rfl
    obtain ⟨v, hv, hstanding⟩ := hmoved.recorded .finish
    exact ⟨v, exec_bind_eq_ok.mpr ⟨(), _, hcall, hv⟩, hstanding⟩
  | succ n =>
    have hend :
        (CacheSignal.endRead? { pending := n + 1, total, waiters := [], nextTicket := next } :
        Option (CacheSignal Waker × List Waker)) =
          some ({ pending := n, total, waiters := [], nextTicket := next }, []) := by
      cases n <;> rfl
    rw [World.settle_endRead_of_some hcounting hend, Cascade.wakeAll, List.map_nil,
      World.settle_nil] at hcall
    have hmoved := h.moved (.ended n [])
      (s := { pending := n, total, waiters := [], nextTicket := next }) rfl
    obtain ⟨v, hv, hstanding⟩ := hmoved.recorded .finish
    exact ⟨v, exec_bind_eq_ok.mpr ⟨(), _, hcall, hv⟩, hstanding⟩

/-- Both signals take all calls. What the count is above the balance, it is by the ends that came
too early. -/
theorem run (h : Standing i j w pending total events) (calls : List SignalEvent) :
    ∃ v outstanding, exec (calls.forM (callBoth i j)) w = (.ok (), v) ∧
      Standing i j v outstanding (total + calls.count .begin) (events ++ calls) ∧
      (outstanding : Int) = pending + SignalEvent.balance calls + tooEarly i j calls w ∧
      Dips pending calls (tooEarly i j calls w) := by
  induction calls generalizing w pending total events with
  | nil =>
    refine ⟨w, pending, rfl, by simpa using h, ?_, .nil pending⟩
    change (pending : Int) = pending + 0 + (0 : Nat)
    omega
  | cons call calls ih =>
    obtain ⟨next, hcounting⟩ := h.counting
    have hcount : w.caches.counts i = some pending := by simp [Bank.counts, hcounting]
    cases call with
    | begin =>
      obtain ⟨u, hu, hstanding⟩ := h.begun
      obtain ⟨v, outstanding, hv, hlater, hbalance, hdips⟩ := ih hstanding
      have hearly : tooEarly i j (.begin :: calls) w = tooEarly i j calls u := by
        simp [tooEarly, hu]
      refine ⟨v, outstanding, exec_bind_eq_ok.mpr ⟨(), u, hu, hv⟩, ?_, ?_, ?_⟩
      · rw [List.count_cons_self, Nat.add_comm (calls.count _), ← Nat.add_assoc]
        simpa using hlater
      · rw [hearly, Dips.balance_begin]
        omega
      · rw [hearly]
        exact hdips.begin
    | finish =>
      obtain ⟨u, hu, hstanding⟩ := h.ended
      obtain ⟨v, outstanding, hv, hlater, hbalance, hdips⟩ := ih hstanding
      have hearly : tooEarly i j (.finish :: calls) w =
          tooEarly i j calls u + if pending = 0 then 1 else 0 := by
        simp [tooEarly, hu, hcount]
      refine ⟨v, outstanding, exec_bind_eq_ok.mpr ⟨(), u, hu, hv⟩, ?_, ?_, ?_⟩
      · rw [List.count_cons_of_ne (by decide : SignalEvent.finish ≠ .begin)]
        simpa using hlater
      · rw [hearly, Dips.balance_finish]
        by_cases hz : pending = 0
        · simp only [hz, ↓reduceIte] at hbalance ⊢
          omega
        · simp only [hz, ↓reduceIte]
          omega
      · rw [hearly]
        cases pending with
        | zero => exact hdips.early
        | succ n => exact hdips.finish

end Standing

/-- The same calls on a counting signal and on a recording one, both fresh. Their totals agree. The
count is above the balance by the number of ends that found no read outstanding, and this number is
how far the balance was ever below zero. So the two agree exactly if no beginning of the calls has
more ends than begins.

On any signal, whoever waits for it, an end that comes too early is refused and changes nothing, and
one that cannot be refused is only logged. -/
theorem pending_eq_add_tooEarly {w : World (host ν)} {i j : Nat} (hi : w.caches[i]? = some {})
    (hj : (stageOf w).recordings[j]? = some {}) (calls : List SignalEvent) :
    (∃ v s, exec (calls.forM (callBoth i j)) w = (.ok (), v) ∧
      let r : RecordingSignal := ⟨calls⟩
      v.caches[i]? = some s ∧ (stageOf v).recordings[j]? = some r ∧
      s.total = r.begins ∧
      (s.pending : Int) = r.pending + tooEarly i j calls w ∧
      (∃ lowest : Int,
        IsLeast {b | ∃ before, before <+: calls ∧ b = SignalEvent.balance before} lowest ∧
        tooEarly i j calls w = max 0 (-lowest)) ∧
      ((s.pending : Int) = r.pending ↔
        ∀ before, before <+: calls → before.count .finish ≤ before.count .begin)) ∧
    ∀ {H : Host} [Foreign H] (w : World H) (k : Nat) (s : CacheSignal H.Waker),
      w.caches[k]? = some s →
      if s.pending = 0 then
        exec (tryEndRead k) w = (.ok (.error .unpairedEndRead), w) ∧
        exec (SignalRef.cache k : SignalRef H.Signal).endRead w =
          (.ok (), { w with history := .cache (.unpaired k) :: w.history })
      else (exec (tryEndRead k) w).1 = .ok (.ok ()) := by
  constructor
  · have hstart : Standing i j w 0 0 [] := ⟨⟨0, hi⟩, hj⟩
    obtain ⟨v, outstanding, hv, ⟨⟨next, hcounting⟩, hrecording⟩, hbalance, hdips⟩ :=
      hstart.run calls
    have hpending : (outstanding : Int) = SignalEvent.balance calls + tooEarly i j calls w := by
      omega
    refine ⟨v, _, hv, hcounting, hrecording, Nat.zero_add _, hpending,
      ⟨_, hdips.isLeast, ?_⟩, ?_⟩
    · omega
    · rw [← hdips.depth_eq_zero_iff]
      change (outstanding : Int) = SignalEvent.balance calls ↔ _
      omega
  · intro H _ w k s hs
    have hcount : (w.caches.counts k).getD 0 = s.pending := by simp [Bank.counts, hs]
    by_cases hz : s.pending = 0
    · rw [if_pos hz, exec_tryEndRead, hcount, if_pos hz, SignalRef.endRead, exec_settle,
        World.settle_endRead_of_none hs (CacheSignal.endRead?_eq_none_iff.mpr hz)]
      have hset : w.caches.set k s = w.caches := by
        obtain ⟨hk, rfl⟩ := List.getElem?_eq_some_iff.mp hs
        exact List.set_getElem_self hk
      refine ⟨rfl, ?_⟩
      rw [World.moved, hset]
      rfl
    · rw [if_neg hz, exec_tryEndRead, hcount, if_neg hz]

/-- Two ends come too early, and so the count is two above the balance. -/
theorem pending_eq_add_tooEarly_twice :
    let w : World (host Unit) :=
      { caches := [({} : CacheSignal Waker)], state := ({ recordings := [{}] } : Stage Unit) }
    let calls : List SignalEvent := [.finish, .begin, .finish, .finish, .begin]
    w.caches[0]? = some ({} : CacheSignal Waker) ∧
    (stageOf w).recordings[0]? = some ({} : RecordingSignal) ∧
    tooEarly 0 0 calls w = 2 ∧ SignalEvent.balance calls = -1 ∧
    (∃ v s, exec (calls.forM (callBoth 0 0)) w = (.ok (), v) ∧ v.caches[0]? = some s ∧
      s.pending = 1) ∧
    exec (tryEndRead 0) w = (.ok (.error .unpairedEndRead), w) := by
  intro w calls
  obtain ⟨⟨v, s, hv, hs, -, -, hpending, ⟨lowest, hlowest, hearly⟩, -⟩, hrefused⟩ :=
    pending_eq_add_tooEarly (w := w) (i := 0) (j := 0) rfl rfl calls
  have hleast : IsLeast {b | ∃ before, before <+: calls ∧ b = SignalEvent.balance before} (-2) := by
    constructor
    · exact ⟨[.finish, .begin, .finish, .finish], by decide, rfl⟩
    · rintro b ⟨before, hbefore, rfl⟩
      have hall : ∀ before ∈ calls.inits, -2 ≤ SignalEvent.balance before := by decide
      exact hall before ((List.mem_inits before calls).mpr hbefore)
  obtain rfl : lowest = -2 := hlowest.unique hleast
  have hbalance : (RecordingSignal.mk calls).pending = -1 := rfl
  rw [hbalance, hearly] at hpending
  refine ⟨rfl, rfl, Int.ofNat.inj hearly, hbalance, ⟨v, s, hv, hs, ?_⟩, (hrefused w 0 {} rfl).1⟩
  exact Int.ofNat.inj hpending

end Scenario

end ReadBarrier
