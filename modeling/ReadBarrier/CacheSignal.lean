/-!
The counting read signal: how many reads are outstanding, how many were ever begun, and who waits
for the count to come back to zero.

A waiter holds a ticket, the number under which its waker stands in the list. The list is emptied
as a whole by the end that brings the count to zero, so a ticket may outlive its entry; the next
unfinished poll then takes a new one.
-/

namespace ReadBarrier

inductive Poll (α : Type) where
  | ready (value : α)
  | pending
  deriving DecidableEq

structure Waiter (ω : Type) where
  ticket : Nat
  waker : ω

structure CacheSignal (ω : Type) where
  pending : Nat := 0
  total : Nat := 0
  /-- Who waits for the count to reach zero, in the order of registration. -/
  waiters : List (Waiter ω) := []
  /-- The ticket of the next registration. -/
  nextTicket : Nat := 0

namespace CacheSignal

variable {ω : Type}

def isQuiescent (s : CacheSignal ω) : Bool := s.pending == 0

def beginRead (s : CacheSignal ω) : CacheSignal ω :=
  { s with pending := s.pending + 1, total := s.total + 1 }

/-- Ends one read. Fails if none is outstanding; otherwise answers with the wakers to wake, which
are all of the waiters', in order, if this was the last read, and none before that. -/
def endRead? (s : CacheSignal ω) : Option (CacheSignal ω × List ω) :=
  match s.pending with
  | 0 => none
  | 1 => some ({ s with pending := 0, waiters := [] }, s.waiters.map (·.waker))
  | n + 2 => some ({ s with pending := n + 1 }, [])

def holds (s : CacheSignal ω) (ticket : Nat) : Bool := s.waiters.any (·.ticket == ticket)

/-- Replaces the waker of one entry, which keeps its place. -/
def rewake (s : CacheSignal ω) (ticket : Nat) (waker : ω) : CacheSignal ω :=
  { s with waiters := s.waiters.map fun w => if w.ticket == ticket then { w with waker } else w }

/-- Adds an entry at the end of the list, under a ticket never used before. -/
def register (s : CacheSignal ω) (waker : ω) : CacheSignal ω :=
  { s with waiters := s.waiters ++ [⟨s.nextTicket, waker⟩], nextTicket := s.nextTicket + 1 }

def deregister (s : CacheSignal ω) (ticket : Nat) : CacheSignal ω :=
  { s with waiters := s.waiters.filter (·.ticket != ticket) }

/-- Polls for quiescence on behalf of the waiter with this ticket, if it has one. A waiter that has
to go on waiting either keeps its entry, with the new waker, or is registered. -/
def pollReady (s : CacheSignal ω) (ticket : Option Nat) (waker : ω) :
    Poll Unit × Option Nat × CacheSignal ω :=
  if s.pending = 0 then (.ready (), none, s)
  else match ticket.filter s.holds with
    | some t => (.pending, some t, s.rewake t waker)
    | none => (.pending, some s.nextTicket, s.register waker)

/-- Gives up waiting: the entry of this ticket, if it is still there, leaves the list. -/
def abandon (s : CacheSignal ω) (ticket : Option Nat) : CacheSignal ω :=
  match ticket with
  | some t => s.deregister t
  | none => s

end CacheSignal

end ReadBarrier
