import ReadBarrier.CacheSignal

/-!
What ending a read sets off. The last end on a signal wakes its waiters, a waker may begin and end
reads itself, also on the signal that wakes it, and those ends may wake further waiters.

The waiters leave the list before the first of them is woken, so every entry is woken at most once
and the cascade comes to an end.
-/

namespace ReadBarrier

/-- The counting signals of a process, by number. -/
abbrev Bank (ω : Type) := List (CacheSignal ω)

inductive ReadCall where
  | beginRead (signal : Nat)
  | endRead (signal : Nat)
  deriving DecidableEq

/-- Something that a cascade has still to do. -/
inductive Duty (ω : Type) where
  | call (call : ReadCall)
  | wake (waker : ω)

/-- Something that happened on the counting signals. -/
inductive Occurrence (ω : Type) where
  /-- A read began; `pending` reads are now outstanding. -/
  | begun (signal : Nat) (pending : Nat)
  /-- A read ended; `pending` reads are now outstanding. -/
  | ended (signal : Nat) (pending : Nat)
  /-- An end found no read outstanding. -/
  | unpaired (signal : Nat)
  /-- A waker was woken, and saw that many reads outstanding on the signal that it watches. -/
  | woken (waker : ω) (seen : Option Nat)

/-- What wakers do when they are woken. -/
structure Reactions (ω : Type) where
  /-- The signal whose count a waker looks at. -/
  watched : ω → Option Nat
  /-- The calls that a waker makes, given the signals as it finds them. -/
  calls : ω → Bank ω → List ReadCall

namespace Bank

variable {ω : Type}

/-- How many waiters are registered on all signals together. -/
def waiting : Bank ω → Nat
  | [] => 0
  | s :: bank => s.waiters.length + waiting bank

theorem waiting_set (bank : Bank ω) (i : Nat) (s t : CacheSignal ω) (h : bank[i]? = some s) :
    waiting (bank.set i t) + s.waiters.length = waiting bank + t.waiters.length := by
  induction bank generalizing i with
  | nil => simp at h
  | cons b bank ih =>
    cases i with
    | zero =>
      simp only [List.getElem?_cons_zero, Option.some.injEq] at h
      subst h
      simp only [waiting, List.set_cons_zero]
      omega
    | succ i =>
      simp only [List.getElem?_cons_succ] at h
      have := ih i h
      simp only [waiting, List.set_cons_succ] at this ⊢
      omega

end Bank

namespace Cascade

variable {ω : Type}

/-- How many wakers a list of duties has still to wake. -/
def wakes : List (Duty ω) → Nat
  | [] => 0
  | .wake _ :: rest => wakes rest + 1
  | .call _ :: rest => wakes rest

@[simp] theorem wakes_append (xs ys : List (Duty ω)) : wakes (xs ++ ys) = wakes xs + wakes ys := by
  induction xs with
  | nil => simp [wakes]
  | cons d xs ih =>
    cases d with
    | call c => simp only [List.cons_append, wakes, ih]
    | wake w =>
      simp only [List.cons_append, wakes, ih]
      omega

def wakeAll (wakers : List ω) : List (Duty ω) := wakers.map .wake

def callAll (calls : List ReadCall) : List (Duty ω) := calls.map .call

@[simp] theorem length_wakeAll (wakers : List ω) : (wakeAll wakers).length = wakers.length :=
  List.length_map _

@[simp] theorem wakes_wakeAll (wakers : List ω) : wakes (wakeAll wakers) = wakers.length := by
  induction wakers with
  | nil => rfl
  | cons w ws ih => simpa [wakeAll, wakes] using ih

@[simp] theorem wakes_callAll (calls : List ReadCall) :
    wakes (callAll calls : List (Duty ω)) = 0 := by
  induction calls with
  | nil => rfl
  | cons c cs ih => simpa [callAll, wakes] using ih

end Cascade

namespace CacheSignal

variable {ω : Type}

theorem waiters_length_endRead? {s t : CacheSignal ω} {ws : List ω}
    (h : s.endRead? = some (t, ws)) :
    t.waiters.length + ws.length = s.waiters.length := by
  unfold endRead? at h
  split at h
  · simp at h
  · obtain ⟨rfl, rfl⟩ := by simpa using h
    simp
  · obtain ⟨rfl, rfl⟩ := by simpa using h
    simp

end CacheSignal

namespace Cascade

variable {ω : Type}

/-- Does all duties in order, each with everything that it sets off before the next. Answers with
the signals afterwards and with what happened. -/
def settle (reactions : Reactions ω) (bank : Bank ω) :
    List (Duty ω) → Bank ω × List (Occurrence ω)
  | [] => (bank, [])
  | .call (.beginRead i) :: rest =>
    match _hs : bank[i]? with
    | none => settle reactions bank rest
    | some s =>
      let (after, happened) := settle reactions (bank.set i s.beginRead) rest
      (after, .begun i s.beginRead.pending :: happened)
  | .call (.endRead i) :: rest =>
    match _hs : bank[i]? with
    | none => settle reactions bank rest
    | some s =>
      match _ht : s.endRead? with
      | none =>
        let (after, happened) := settle reactions bank rest
        (after, .unpaired i :: happened)
      | some (t, wakers) =>
        let (after, happened) := settle reactions (bank.set i t) (wakeAll wakers ++ rest)
        (after, .ended i t.pending :: happened)
  | .wake w :: rest =>
    let seen := (reactions.watched w).bind (bank[·]?) |>.map (·.pending)
    let (after, happened) := settle reactions bank (callAll (reactions.calls w bank) ++ rest)
    (after, .woken w seen :: happened)
termination_by duties => (2 * Bank.waiting bank + wakes duties, duties.length)
decreasing_by
  · simp [wakes, Prod.lex_def]
  · have := Bank.waiting_set bank i s s.beginRead _hs
    simp only [CacheSignal.beginRead] at this ⊢
    simp only [Prod.lex_def, wakes, List.length_cons]
    omega
  · simp [wakes, Prod.lex_def]
  · simp [wakes, Prod.lex_def]
  · have hw := CacheSignal.waiters_length_endRead? _ht
    have := Bank.waiting_set bank i s t _hs
    simp only [Prod.lex_def, wakes, wakes_append, wakes_wakeAll, length_wakeAll, List.length_append,
      List.length_cons]
    omega
  · simp only [Prod.lex_def, wakes, wakes_append, wakes_callAll]
    omega

end Cascade

end ReadBarrier
