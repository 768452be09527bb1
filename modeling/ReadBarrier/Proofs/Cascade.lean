import ReadBarrier.CacheReady
import ReadBarrier.Proofs.Act
import ReadBarrier.Proofs.Replay

/-!
Cascades come to an end and lose nothing.

A cascade is given by its single steps, in which a waker that is woken may choose any calls. No run
of such steps goes on for ever, and the log of a run tells what it woke and what it left.
-/

namespace ReadBarrier

variable {ω : Type}

def ReadCall.signal : ReadCall → Nat
  | .beginRead i | .endRead i => i

/-- The wakers on the waiting lists of the signals that `p` picks by number. -/
def Bank.wakersOf (p : Nat → Bool) : Bank ω → List ω
  | [] => []
  | s :: bank =>
    (if p 0 then s.waiters.map (·.waker) else []) ++ wakersOf (fun i => p (i + 1)) bank

/-- Whether a waker stands on the waiting list of a signal. -/
def Bank.Awaits (bank : Bank ω) (i : Nat) (w : ω) : Prop :=
  ∃ s, bank[i]? = some s ∧ w ∈ s.waiters.map (·.waker)

namespace Bank

theorem Awaits.of_set {bank : Bank ω} {i j : Nat} {s t : CacheSignal ω} {w : ω}
    (h : Awaits (bank.set i t) j w) (hs : bank[i]? = some s) (ht : ∀ x ∈ t.waiters, x ∈ s.waiters) :
    bank.Awaits j w := by
  obtain ⟨u, hu, hw⟩ := h
  by_cases hij : i = j
  · subst hij
    have hlt := (List.getElem?_eq_some_iff.mp hs).1
    obtain rfl : t = u := by simpa [hlt] using hu
    obtain ⟨x, hx, rfl⟩ := List.mem_map.mp hw
    exact ⟨s, hs, List.mem_map_of_mem (ht x hx)⟩
  · exact ⟨u, by simpa [hij] using hu, hw⟩

theorem wakersOf_congr {p q : Nat → Bool} {bank : Bank ω}
    (h : ∀ i s, bank[i]? = some s → p i ≠ q i → s.waiters = []) :
    wakersOf p bank = wakersOf q bank := by
  induction bank generalizing p q with
  | nil => rfl
  | cons s bank ih =>
    have ht : wakersOf (fun i => p (i + 1)) bank = wakersOf (fun i => q (i + 1)) bank :=
      ih fun i t hi hne => h (i + 1) t hi hne
    simp only [wakersOf, ht]
    by_cases hp : p 0 = q 0
    · rw [hp]
    · simp [h 0 s rfl hp]

theorem wakersOf_set (p : Nat → Bool) {bank : Bank ω} {i : Nat} {s : CacheSignal ω}
    (h : bank[i]? = some s) (t : CacheSignal ω) :
    ((if p i then s.waiters.map (·.waker) else []) ++ wakersOf p (bank.set i t)).Perm
      ((if p i then t.waiters.map (·.waker) else []) ++ wakersOf p bank) := by
  induction bank generalizing p i with
  | nil => simp at h
  | cons b bank ih =>
    cases i with
    | zero =>
      simp only [List.getElem?_cons_zero, Option.some.injEq] at h
      subst b
      simp only [wakersOf, List.set_cons_zero, ← List.append_assoc]
      exact List.perm_append_comm.append_right _
    | succ i =>
      simp only [List.getElem?_cons_succ] at h
      simp only [wakersOf, List.set_cons_succ]
      have hi := ih (fun j => p (j + 1)) h
      refine List.perm_append_comm_assoc _ _ _ |>.trans ?_
      exact (hi.append_left _).trans (List.perm_append_comm_assoc _ _ _)

end Bank

namespace Cascade

/-- The wakers that a list of duties has still to wake. -/
def due : List (Duty ω) → List ω
  | [] => []
  | .wake w :: rest => w :: due rest
  | .call _ :: rest => due rest

@[simp] theorem due_append (xs ys : List (Duty ω)) : due (xs ++ ys) = due xs ++ due ys := by
  induction xs with
  | nil => rfl
  | cons d xs ih => cases d <;> simp [due, ih]

@[simp] theorem due_wakeAll (wakers : List ω) : due (wakeAll wakers) = wakers := by
  induction wakers with
  | nil => rfl
  | cons w ws ih => exact congrArg (w :: ·) ih

@[simp] theorem due_callAll (calls : List ReadCall) : due (callAll calls : List (Duty ω)) = [] := by
  induction calls with
  | nil => rfl
  | cons c cs ih => exact ih

/-! ### Termination -/

/-- One step of a cascade, with what it logs. When a waker is woken it makes calls that `may`
allows it. -/
inductive Step (watched : ω → Option Nat) (may : ω → Bank ω → List ReadCall → Prop) :
    Bank ω × List (Duty ω) → List (Occurrence ω) → Bank ω × List (Duty ω) → Prop where
  | absent {bank c rest} (h : bank[c.signal]? = none) :
      Step watched may (bank, .call c :: rest) [] (bank, rest)
  | begun {bank i s rest} (h : bank[i]? = some s) :
      Step watched may (bank, .call (.beginRead i) :: rest) [.begun i (s.pending + 1)]
        (bank.set i s.beginRead, rest)
  | unpaired {bank i s rest} (h : bank[i]? = some s) (hs : s.endRead? = none) :
      Step watched may (bank, .call (.endRead i) :: rest) [.unpaired i] (bank, rest)
  | ended {bank i s t wakers rest} (h : bank[i]? = some s) (hs : s.endRead? = some (t, wakers)) :
      Step watched may (bank, .call (.endRead i) :: rest) [.ended i t.pending]
        (bank.set i t, wakeAll wakers ++ rest)
  | woken {bank w calls rest} (h : may w bank calls) :
      Step watched may (bank, .wake w :: rest) [.woken w ((watched w).bind bank.counts)]
        (bank, callAll calls ++ rest)

inductive Steps (watched : ω → Option Nat) (may : ω → Bank ω → List ReadCall → Prop) :
    Bank ω × List (Duty ω) → List (Occurrence ω) → Bank ω × List (Duty ω) → Prop where
  | refl (c) : Steps watched may c [] c
  | head {a os b ps c} (h : Step watched may a os b) (hs : Steps watched may b ps c) :
      Steps watched may a (os ++ ps) c

/-- A waiter counts twice while it is registered and once while its wake is due. -/
def measure (c : Bank ω × List (Duty ω)) : Nat × Nat :=
  (2 * c.1.waiting + wakes c.2, c.2.length)

variable {watched : ω → Option Nat} {may : ω → Bank ω → List ReadCall → Prop}

theorem Step.measure_lt {a b : Bank ω × List (Duty ω)} {os : List (Occurrence ω)}
    (h : Step watched may a os b) :
    Prod.Lex (· < ·) (· < ·) (measure b) (measure a) := by
  rw [Prod.lex_def]
  cases h with
  | absent => simp [measure, wakes]
  | @begun bank i s rest hs =>
    have hw := Bank.waiting_set bank i s s.beginRead hs
    simp only [CacheSignal.beginRead] at hw
    simp only [measure, wakes, List.length_cons, CacheSignal.beginRead]
    omega
  | unpaired => simp [measure, wakes]
  | @ended bank i s t wakers rest hs ht =>
    have hw := Bank.waiting_set bank i s t hs
    have hl := CacheSignal.waiters_length_endRead? ht
    simp only [measure, wakes, wakes_append, wakes_wakeAll, length_wakeAll, List.length_append,
      List.length_cons]
    omega
  | woken =>
    simp only [measure, wakes, wakes_append, wakes_callAll]
    omega

/-- Whatever the wakers call, no cascade goes on for ever. -/
theorem Step.wellFounded (watched : ω → Option Nat) (may : ω → Bank ω → List ReadCall → Prop) :
    WellFounded fun b a : Bank ω × List (Duty ω) => ∃ os, Step watched may a os b := by
  have hlex : WellFounded (Prod.Lex (· < · : Nat → Nat → Prop) (· < · : Nat → Nat → Prop)) :=
    (Prod.lex Nat.lt_wfRel Nat.lt_wfRel).wf
  apply Subrelation.wf ?_ (InvImage.wf measure hlex)
  rintro b a ⟨os, h⟩
  exact h.measure_lt

/-- A cascade takes its steps until nothing is left to do. -/
theorem settle_steps (reactions : Reactions ω) (bank : Bank ω) (duties : List (Duty ω)) :
    Steps reactions.watched (fun w b calls => calls = reactions.calls w b) (bank, duties)
      (settle reactions bank duties).2 ((settle reactions bank duties).1, []) := by
  fun_induction settle reactions bank duties with
  | case1 => exact .refl _
  | case2 bank i rest hs ih => exact .head (.absent (c := .beginRead i) hs) ih
  | case3 bank i rest s hs after happened he ih =>
    rw [he] at ih
    exact .head (.begun hs) ih
  | case4 bank i rest hs ih => exact .head (.absent (c := .endRead i) hs) ih
  | case5 bank i rest s hs ht after happened he ih =>
    rw [he] at ih
    exact .head (.unpaired hs ht) ih
  | case6 bank i rest s hs t wakers ht after happened he ih =>
    rw [he] at ih
    exact .head (.ended hs ht) ih
  | case7 bank w rest seen after happened he ih =>
    rw [he] at ih
    have hseen : seen = (reactions.watched w).bind bank.counts := by
      simp only [seen, Option.map_bind]
      rfl
    rw [hseen]
    exact .head (.woken rfl) ih

/-! ### What is woken and what stays -/

variable (reactions : Reactions ω)

theorem settle_of_none {bank : Bank ω} {c : ReadCall}
    (h : bank[c.signal]? = none) : settle reactions bank [.call c] = (bank, []) := by
  cases c with
  | beginRead j =>
    rw [settle]
    split
    · simp [settle]
    · next t ht => simp [ReadCall.signal, ht] at h
  | endRead j =>
    rw [settle]
    split
    · simp [settle]
    · next t ht => simp [ReadCall.signal, ht] at h

theorem settle_beginRead {bank : Bank ω} {i : Nat} {s : CacheSignal ω} (hs : bank[i]? = some s) :
    settle reactions bank [.call (.beginRead i)] =
      (bank.set i s.beginRead, [.begun i s.beginRead.pending]) := by
  rw [settle]
  split
  · next h => simp [h] at hs
  · next t h =>
    obtain rfl : t = s := by simpa [h] using hs
    simp [settle]

theorem settle_endRead_of_none {bank : Bank ω} {i : Nat} {s : CacheSignal ω}
    (hs : bank[i]? = some s) (ht : s.endRead? = none) :
    settle reactions bank [.call (.endRead i)] = (bank, [.unpaired i]) := by
  rw [settle]
  split
  · next h => simp [h] at hs
  · next u h =>
    obtain rfl : u = s := by simpa [h] using hs
    split
    · simp [settle]
    · next hu => simp [hu] at ht

theorem settle_endRead_of_some {bank : Bank ω} {i : Nat} {s t : CacheSignal ω} {wakers : List ω}
    (hs : bank[i]? = some s) (ht : s.endRead? = some (t, wakers)) :
    settle reactions bank [.call (.endRead i)] =
      ((settle reactions (bank.set i t) (wakeAll wakers)).1,
        .ended i t.pending :: (settle reactions (bank.set i t) (wakeAll wakers)).2) := by
  rw [settle]
  split
  · next h => simp [h] at hs
  · next u h =>
    obtain rfl : u = s := by simpa [h] using hs
    split
    · next hu => simp [hu] at ht
    · next v ws hu =>
      obtain ⟨rfl, rfl⟩ : v = t ∧ ws = wakers := by simpa [hu] using ht
      simp

theorem getElem?_settle (bank : Bank ω) (duties : List (Duty ω)) {i : Nat} {s : CacheSignal ω}
    (hi : bank[i]? = some s) :
    ∃ t, (settle reactions bank duties).1[i]? = some t ∧
      t.total = s.total + begunOn i (settle reactions bank duties).2 ∧
      t.nextTicket = s.nextTicket ∧
      t.waiters = if emptied i (settle reactions bank duties).2 then [] else s.waiters := by
  fun_induction settle reactions bank duties generalizing s with
  | case1 => exact ⟨s, hi, rfl, rfl, rfl⟩
  | case2 bank j rest hs ih => exact ih hi
  | case3 bank j rest b hb after happened he ih =>
    rw [he] at ih
    by_cases hj : i = j
    · subst hj
      have hlt := (List.getElem?_eq_some_iff.mp hi).1
      obtain rfl : s = b := by simpa [hi] using hb
      obtain ⟨t, ht, htotal, hticket, hwaiters⟩ := ih (s := s.beginRead) (by simp [hlt])
      refine ⟨t, ht, ?_, hticket, hwaiters⟩
      simp only [CacheSignal.beginRead] at htotal
      simp only [htotal, begunOn, ↓reduceIte]
      omega
    · obtain ⟨t, ht, htotal, hticket, hwaiters⟩ := ih (s := s) (by simp [Ne.symm hj, hi])
      exact ⟨t, ht, by simpa [Ne.symm hj] using htotal, hticket, hwaiters⟩
  | case4 bank j rest hs ih => exact ih hi
  | case5 bank j rest b hb hend after happened he ih =>
    rw [he] at ih
    exact ih hi
  | case6 bank j rest b hb u wakers hend after happened he ih =>
    rw [he] at ih
    by_cases hj : i = j
    · subst hj
      have hlt := (List.getElem?_eq_some_iff.mp hi).1
      obtain rfl : s = b := by simpa [hi] using hb
      obtain ⟨-, hut, hun, huw, -⟩ := CacheSignal.endRead?_eq_some hend
      obtain ⟨t, ht, htotal, hticket, hwaiters⟩ := ih (s := u) (by simp [hlt])
      refine ⟨t, ht, by rw [htotal, hut]; rfl, hticket.trans hun, ?_⟩
      rw [hwaiters, huw]
      by_cases hz : u.pending = 0 <;> simp [hz]
    · obtain ⟨t, ht, htotal, hticket, hwaiters⟩ := ih (s := s) (by simp [Ne.symm hj, hi])
      exact ⟨t, ht, htotal, hticket, by simpa [Ne.symm hj] using hwaiters⟩
  | case7 bank w rest seen after happened he =>
    next ih =>
      rw [he] at ih
      exact ih hi

/-- The wakers that an end takes out of the bank are those which it makes due. -/
theorem wakersOf_ended {bank : Bank ω} {i : Nat} {s t : CacheSignal ω} {wakers : List ω}
    (hs : bank[i]? = some s) (ht : s.endRead? = some (t, wakers))
    (happened : List (Occurrence ω)) :
    (wakers ++ Bank.wakersOf (emptied · happened) (bank.set i t)).Perm
      (bank.wakersOf (emptied · (.ended i t.pending :: happened))) := by
  obtain ⟨-, -, -, hwaiters, hwakers⟩ := CacheSignal.endRead?_eq_some ht
  by_cases hz : t.pending = 0
  · simp only [hz, ↓reduceIte] at hwaiters hwakers
    have hlt := (List.getElem?_eq_some_iff.mp hs).1
    have hcongr : Bank.wakersOf (emptied · happened) (bank.set i t) =
        Bank.wakersOf (emptied · (.ended i t.pending :: happened)) (bank.set i t) := by
      apply Bank.wakersOf_congr
      intro j u hj hne
      by_cases hij : i = j
      · subst hij
        obtain rfl : t = u := by simpa [hlt] using hj
        exact hwaiters
      · simp [hij] at hne
    have hset := Bank.wakersOf_set (emptied · (.ended i t.pending :: happened)) hs t
    simpa [hz, hwaiters, hwakers, hcongr] using hset
  · simp only [hz, ↓reduceIte] at hwaiters hwakers
    have hset := Bank.wakersOf_set (emptied · happened) hs t
    rw [hwaiters] at hset
    have hne : (t.pending == 0) = false := by simpa using hz
    simpa [hne, hwakers] using (List.perm_append_left_iff _).mp hset

/-- A cascade wakes what was due and the waiters of the signals that it emptied, each once. -/
theorem woken_settle_perm (bank : Bank ω) (duties : List (Duty ω)) :
    (woken (settle reactions bank duties).2).Perm
      (due duties ++ bank.wakersOf (emptied · (settle reactions bank duties).2)) := by
  fun_induction settle reactions bank duties with
  | case1 bank =>
    have h : bank.wakersOf (fun _ => false) = [] := by
      induction bank with
      | nil => rfl
      | cons s bank ih => exact ih
    simp [due, h]
  | case2 bank j rest hs ih => exact ih
  | case3 bank j rest b hb after happened he ih =>
    rw [he] at ih
    have hset := Bank.wakersOf_set (emptied · happened) hb b.beginRead
    exact ih.trans (((List.perm_append_left_iff _).mp hset).append_left _)
  | case4 bank j rest hs ih => exact ih
  | case5 bank j rest b hb hend after happened he ih =>
    rw [he] at ih
    exact ih
  | case6 bank j rest b hb u wakers hend after happened he ih =>
    rw [he] at ih
    have hset := wakersOf_ended hb hend happened
    simp only [due_append, due_wakeAll, List.append_assoc] at ih
    exact ih.trans ((List.perm_append_comm_assoc _ _ _).trans (hset.append_left _))
  | case7 bank w rest seen after happened he =>
    next ih =>
      rw [he] at ih
      simp only [due_append, due_callAll, List.nil_append] at ih
      exact ih.cons w

/-- A waker is woken only if it was due or an end before emptied a signal that it waits for. -/
theorem woken_settle_mem (bank : Bank ω) (duties : List (Duty ω)) {w : ω} {seen : Option Nat}
    {pre post : List (Occurrence ω)}
    (h : (settle reactions bank duties).2 = pre ++ .woken w seen :: post) :
    w ∈ due duties ∨ ∃ i, bank.Awaits i w ∧ emptied i pre = true := by
  fun_induction settle reactions bank duties generalizing pre with
  | case1 => simp at h
  | case2 bank j rest hs ih => exact ih h
  | case3 bank j rest b hb after happened he ih =>
    rw [he] at ih
    cases pre with
    | nil => simp at h
    | cons o pre =>
      simp only [List.cons_append, List.cons.injEq] at h
      obtain ⟨rfl, h⟩ := h
      rcases ih h with hd | ⟨i, hw, hz⟩
      · exact .inl hd
      · exact .inr ⟨i, hw.of_set hb fun _ hx => hx, hz⟩
  | case4 bank j rest hs ih => exact ih h
  | case5 bank j rest b hb hend after happened he ih =>
    rw [he] at ih
    cases pre with
    | nil => simp at h
    | cons o pre =>
      simp only [List.cons_append, List.cons.injEq] at h
      obtain ⟨rfl, h⟩ := h
      exact @ih pre h
  | case6 bank j rest b hb u wakers hend after happened he ih =>
    rw [he] at ih
    obtain ⟨-, -, -, hwaiters, hwakers⟩ := CacheSignal.endRead?_eq_some hend
    cases pre with
    | nil => simp at h
    | cons o pre =>
      simp only [List.cons_append, List.cons.injEq] at h
      obtain ⟨rfl, h⟩ := h
      rcases ih h with hd | ⟨i, hw, hz⟩
      · simp only [due_append, due_wakeAll, List.mem_append] at hd
        rcases hd with hd | hd
        · by_cases hz : u.pending = 0
          · simp only [hz, ↓reduceIte] at hwakers
            exact .inr ⟨j, ⟨b, hb, hwakers ▸ hd⟩, by simp [hz]⟩
          · simp [hwakers, hz] at hd
        · exact .inl hd
      · refine .inr ⟨i, hw.of_set hb fun x hx => ?_, by simp [hz]⟩
        rw [hwaiters] at hx
        split at hx
        · simp at hx
        · exact hx
  | case7 bank v rest seen' after happened he =>
    next ih =>
      rw [he] at ih
      cases pre with
      | nil =>
        simp only [List.nil_append, List.cons.injEq, Occurrence.woken.injEq] at h
        exact .inl (by simp [due, h.1.1])
      | cons o pre =>
        simp only [List.cons_append, List.cons.injEq] at h
        obtain ⟨rfl, h⟩ := h
        simp only [due_append, due_callAll, List.nil_append] at ih
        rcases ih h with hd | ⟨i, hw, hz⟩
        · exact .inl (List.mem_cons_of_mem _ hd)
        · exact .inr ⟨i, hw, hz⟩

/-- What is due is woken in order, with other wakes in between. -/
theorem due_sublist_woken (bank : Bank ω) (duties : List (Duty ω)) :
    (due duties).Sublist (woken (settle reactions bank duties).2) := by
  fun_induction settle reactions bank duties with
  | case1 => exact .slnil
  | case2 bank i rest hs ih => exact ih
  | case3 bank i rest s hs after happened he ih =>
    rw [he] at ih
    exact ih
  | case4 bank i rest hs ih => exact ih
  | case5 bank i rest s hs ht after happened he ih =>
    rw [he] at ih
    exact ih
  | case6 bank i rest s hs t wakers ht after happened he ih =>
    rw [he, due_append] at ih
    exact (List.sublist_append_right _ _).trans ih
  | case7 bank w rest seen after happened he =>
    next ih =>
      rw [he, due_append, due_callAll] at ih
      exact ih.cons_cons w

/-- What the log of a cascade tells about the signals before and after it. -/
structure Settled (watched : ω → Option Nat) (bank : Bank ω) (happened : List (Occurrence ω))
    (after : Bank ω) : Prop where
  /-- Every signal has moved by its begins and ends, and has all of its waiters or, if it was
  emptied, none of them. -/
  signals : ∀ i s, bank[i]? = some s → ∃ t, after[i]? = some t ∧
    t.pending + endedOn i happened = s.pending + begunOn i happened ∧
    t.total = s.total + begunOn i happened ∧ t.nextTicket = s.nextTicket ∧
    t.waiters = if emptied i happened then [] else s.waiters
  /-- The wakes are those of the waiters of the signals that were emptied, one for each. -/
  wakes : (woken happened).Perm (bank.wakersOf (emptied · happened))
  /-- A waker is woken after its signal was emptied, and finds each signal as the log has it until
  then. -/
  committed : ∀ pre w seen post, happened = pre ++ .woken w seen :: post →
    (∃ i, bank.Awaits i w ∧ emptied i pre = true) ∧
      ∀ i s, watched w = some i → bank[i]? = some s →
        ∃ n, seen = some n ∧ n + endedOn i pre = s.pending + begunOn i pre

theorem settled_settle (bank : Bank ω) (call : ReadCall) :
    Settled reactions.watched bank (settle reactions bank [.call call]).2
      (settle reactions bank [.call call]).1 := by
  have hreplays := settle_replays reactions bank [.call call]
  refine ⟨?_, ?_, ?_⟩
  · intro i s hi
    obtain ⟨t, ht, htotal, hticket, hwaiters⟩ := getElem?_settle reactions bank [.call call] hi
    obtain ⟨m, hm, hcount⟩ := hreplays.count (i := i) (n := s.pending) (by simp [Bank.counts, hi])
    obtain rfl : t.pending = m := by simpa [Bank.counts, ht] using hm
    exact ⟨t, ht, hcount, htotal, hticket, hwaiters⟩
  · exact woken_settle_perm reactions bank [.call call]
  · intro pre w seen post h
    refine ⟨?_, ?_⟩
    · rcases woken_settle_mem reactions bank [.call call] h with hd | hw
      · simp [due] at hd
      · exact hw
    · intro i s hw hi
      rw [h] at hreplays
      obtain ⟨e, hpre, hpost⟩ := hreplays.cut
      obtain ⟨n, hn, hcount⟩ := hpre.count (i := i) (n := s.pending) (by simp [Bank.counts, hi])
      cases hpost with
      | woken => exact ⟨n, by simp [hw, hn], hcount⟩

end Cascade

def World.logged {H : Host} (w : World H) (happened : List (Occurrence H.Waker))
    (after : Bank H.Waker) : World H :=
  { w with caches := after, history := (happened.map .cache).reverse ++ w.history }

section Ends

open Act Cascade

variable {H : Host} [Foreign H]

theorem exec_tryEndRead (i : Nat) (w : World H) :
    exec (tryEndRead i) w =
      if (w.caches.counts i).getD 0 = 0 then (.ok (.error .unpairedEndRead), w)
      else (.ok (.ok ()), w.settle [.call (.endRead i)]) := by
  rw [tryEndRead, exec_bind, exec_get]
  cases hs : w.caches[i]? with
  | none => simp [Bank.counts, hs]
  | some s =>
    cases ht : s.endRead? with
    | none =>
      have hz := CacheSignal.endRead?_eq_none_iff.mp ht
      simp [Bank.counts, hs, ht, hz]
    | some t =>
      have hz : _ = t.1.pending + 1 := (CacheSignal.endRead?_eq_some ht).1
      simp [Bank.counts, hs, ht, hz, exec_settle, Except.map]

/-- Every way to end a read on a counting signal sets off one cascade, unless it is refused. That
cascade comes to an end, and would whatever its wakers called; it wakes nobody twice and forgets
nobody. -/
theorem endRead_settles (i : Nat) (w : World H) :
    Acc (fun b a => ∃ os, Step (Foreign.reactions (H := H)).watched (fun _ _ _ => True) a os b)
        (w.caches, [.call (.endRead i)]) ∧
      ∃ happened after,
        Steps (Foreign.reactions (H := H)).watched
          (fun v bank calls => calls = Foreign.reactions.calls v bank)
          (w.caches, [.call (.endRead i)]) happened (after, []) ∧
        Settled (Foreign.reactions (H := H)).watched w.caches happened after ∧
        exec (SignalRef.cache i : SignalRef H.Signal).endRead w =
          (.ok (), w.logged happened after) ∧
        exec (ReadLease.mk (.cache i : SignalRef H.Signal)).release w =
          (.ok (), { w.logged happened after with
            history := .leaseEnded (.cache i) :: (w.logged happened after).history }) ∧
        exec (tryEndRead i) w =
          if (w.caches.counts i).getD 0 = 0 then (.ok (.error .unpairedEndRead), w)
          else (.ok (.ok ()), w.logged happened after) := by
  refine ⟨(Step.wellFounded _ _).apply _, _, _, settle_steps Foreign.reactions _ _,
    settled_settle Foreign.reactions _ _, rfl, ?_, exec_tryEndRead i w⟩
  rw [ReadLease.exec_release]
  rfl

end Ends

end ReadBarrier
