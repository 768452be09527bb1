import Mathlib
import ReadBarrier.Deferred
import ReadBarrier.Proofs.EntryPoint
import ReadBarrier.Proofs.Parking
import ReadBarrier.Proofs.Settlement
import ReadBarrier.Scenario.Perform

/-!
A deferred value is delivered once, and who waits for it is woken once.

Two parties share its slot: one polls, the other gives the value or lets it be. They may come in any
order, and other code may run in between.
-/

namespace ReadBarrier

open Act

variable {H : Host} {α ω : Type}

/-! ### The two parties -/

/-- What one of the two parties does. -/
inductive Deed (α ω : Type) where
  | poll (waker : ω)
  | resolve (value : α)
  /-- The right to give the value is dropped. -/
  | forget

namespace Deed

def waker? : Deed α ω → Option ω
  | .poll waker => some waker
  | .resolve _ | .forget => none

def IsPoll (d : Deed α ω) : Prop := d.waker?.isSome

/-- The waker of the latest poll. -/
def lastWaker (deeds : List (Deed α ω)) : Option ω := (deeds.filterMap waker?).getLast?

/-- After these deeds the value is there: it was given, before the right to do so was dropped, and
no poll came after that. -/
def Due (deeds : List (Deed α ω)) (value : α) : Prop :=
  ∃ polls rest, deeds = polls ++ .resolve value :: rest ∧
    (∀ d ∈ polls, d.IsPoll) ∧ ∀ d ∈ rest, ¬d.IsPoll

theorem lastWaker_concat_poll (deeds : List (Deed α ω)) (waker : ω) :
    lastWaker (deeds ++ [.poll waker]) = some waker := by
  simp [lastWaker, waker?]

theorem not_due_concat_poll (deeds : List (Deed α ω)) (waker : ω) (value : α) :
    ¬Due (deeds ++ [.poll waker]) value := by
  rintro ⟨polls, rest, hsplit, -, hrest⟩
  rcases List.eq_nil_or_concat rest with rfl | ⟨rest, last, rfl⟩
  · have hlast := (List.append_inj' hsplit rfl).2
    simp at hlast
  · rw [List.concat_eq_append, ← List.cons_append, ← List.append_assoc] at hsplit
    obtain ⟨-, hlast⟩ := List.append_inj' hsplit rfl
    obtain rfl := (List.singleton_inj.mp hlast)
    exact hrest (.poll waker) (by simp) rfl

/-- What is not a poll leaves the value there, and only giving it puts it there. -/
theorem due_concat_iff {deeds : List (Deed α ω)} {d : Deed α ω} (hd : ¬d.IsPoll) (value : α) :
    Due (deeds ++ [d]) value ↔
      Due deeds value ∨ d = .resolve value ∧ ∀ e ∈ deeds, e.IsPoll := by
  constructor
  · rintro ⟨polls, rest, hsplit, hpolls, hrest⟩
    rcases List.eq_nil_or_concat rest with rfl | ⟨rest, last, rfl⟩
    · obtain ⟨rfl, hlast⟩ := List.append_inj' hsplit rfl
      exact .inr ⟨List.singleton_inj.mp hlast, hpolls⟩
    · rw [List.concat_eq_append] at hsplit hrest
      rw [← List.cons_append, ← List.append_assoc] at hsplit
      obtain ⟨rfl, -⟩ := List.append_inj' hsplit rfl
      exact .inl ⟨polls, rest, rfl, hpolls, fun e he => hrest e (List.mem_append_left _ he)⟩
  · rintro (⟨polls, rest, rfl, hpolls, hrest⟩ | ⟨rfl, hdeeds⟩)
    · refine ⟨polls, rest ++ [d], by simp, hpolls, ?_⟩
      intro e he
      rcases List.mem_append.mp he with he | he
      · exact hrest e he
      · rwa [List.mem_singleton.mp he]
    · exact ⟨deeds, [], rfl, hdeeds, by simp⟩

/-- A value that was not given while that was still possible never comes. -/
theorem not_due_of_forget {polls rest : List (Deed α ω)} (hpolls : ∀ d ∈ polls, d.IsPoll)
    (value : α) : ¬Due (polls ++ .forget :: rest) value := by
  rintro ⟨before, after, hsplit, hbefore, -⟩
  rcases List.append_eq_append_iff.mp hsplit with ⟨mid, rfl, hmid⟩ | ⟨mid, rfl, hmid⟩
  · cases mid with
    | nil => simp at hmid
    | cons d mid =>
      obtain ⟨rfl, -⟩ := List.cons.inj hmid
      have hforget := hbefore .forget (by simp)
      simp [IsPoll, waker?] at hforget
  · cases mid with
    | nil => simp at hmid
    | cons d mid =>
      obtain ⟨rfl, -⟩ := List.cons.inj hmid
      have hresolve := hpolls (.resolve value) (by simp)
      simp [IsPoll, waker?] at hresolve

end Deed

/-- A deferred value, and whether the right to give it is still there. -/
structure Pair (α ω : Type) where
  deferred : Deferred α ω := {}
  resolver : Bool := true

namespace Pair

/-- Does a deed. Answers with the answer of a poll, and with the waker to wake. The value can be
given once only. -/
def step (p : Pair α ω) : Deed α ω → (Option (Poll α) × Option ω) × Pair α ω
  | .poll waker =>
    let (answer, deferred) := p.deferred.poll waker
    ((some answer, none), { p with deferred })
  | .resolve value =>
    if p.resolver then
      let (waker, deferred) := p.deferred.resolve value
      ((none, waker), ⟨deferred, false⟩)
    else ((none, none), p)
  | .forget => ((none, none), { p with resolver := false })

def run (p : Pair α ω) (deeds : List (Deed α ω)) : Pair α ω :=
  deeds.foldl (fun p d => (p.step d).2) p

end Pair

open Deed

/-- How the two parties stand after some deeds. -/
structure Pair.Stands (deeds : List (Deed α ω)) (p : Pair α ω) : Prop where
  resolver : p.resolver = true ↔ ∀ d ∈ deeds, d.IsPoll
  waiting : p.resolver = true → p.deferred = { waker := lastWaker deeds }
  value : ∀ v, p.deferred.value = some v ↔ Due deeds v
  given : ∀ v, p.deferred.value = some v → p.deferred = { value := some v }

namespace Pair

theorem Stands.step {deeds : List (Deed α ω)} {p : Pair α ω} (h : p.Stands deeds) (d : Deed α ω) :
    (p.step d).2.Stands (deeds ++ [d]) := by
  have hpolls : (∀ e ∈ deeds ++ [d], e.IsPoll) ↔ (∀ e ∈ deeds, e.IsPoll) ∧ d.IsPoll := by
    simp [or_imp, forall_and]
  obtain ⟨deferred, resolver⟩ := p
  cases d with
  | poll waker =>
    have hnone : (Pair.step ⟨deferred, resolver⟩ (.poll waker)).2.deferred.value = none := by
      cases hvalue : deferred.value <;> simp [Pair.step, Deferred.poll, hvalue]
    constructor
    · rw [hpolls, ← h.resolver]
      simp [Pair.step, IsPoll, waker?]
    · intro hresolver
      have hdeferred := h.waiting hresolver
      simp only at hdeferred
      simp [Pair.step, Deferred.poll, hdeferred, lastWaker_concat_poll]
    · intro v
      simp [hnone, not_due_concat_poll]
    · intro v hv
      simp [hnone] at hv
  | resolve value =>
    have hd : ¬(Deed.resolve value : Deed α ω).IsPoll := by simp [IsPoll, waker?]
    cases resolver with
    | true =>
      have hdeferred := h.waiting rfl
      have hbefore := h.resolver.mp rfl
      constructor
      · simp [Pair.step, hd]
      · simp [Pair.step]
      · intro v
        rw [due_concat_iff hd, ← h.value]
        simp only at hdeferred
        simpa [Pair.step, Deferred.resolve, hdeferred] using fun _ => hbefore
      · intro v hv
        obtain rfl : value = v := by simpa [Pair.step, Deferred.resolve] using hv
        rfl
    | false =>
      have hbefore : ¬∀ e ∈ deeds, e.IsPoll := fun hall => by simpa using h.resolver.mpr hall
      constructor
      · simp [Pair.step, hd]
      · simp [Pair.step]
      · intro v
        rw [due_concat_iff hd, ← h.value]
        simp only [Pair.step, Bool.false_eq_true, ↓reduceIte, hbefore, and_false, or_false]
      · exact h.given
  | forget =>
    have hd : ¬(Deed.forget : Deed α ω).IsPoll := by simp [IsPoll, waker?]
    constructor
    · simp [Pair.step, hd]
    · simp [Pair.step]
    · intro v
      rw [due_concat_iff hd, ← h.value]
      simp [Pair.step]
    · exact h.given

theorem Stands.run {deeds : List (Deed α ω)} {p : Pair α ω} (h : p.Stands deeds)
    (later : List (Deed α ω)) : (p.run later).Stands (deeds ++ later) := by
  induction later generalizing deeds p with
  | nil =>
    rw [List.append_nil]
    exact h
  | cons d later ih =>
    rw [List.append_cons]
    exact ih (h.step d)

theorem Stands.start : Stands [] ({} : Pair α ω) where
  resolver := by simp
  waiting _ := rfl
  value v := by simp [Due]
  given v hv := by simp at hv

theorem Stands.value_eq_none {deeds : List (Deed α ω)} {p : Pair α ω} (h : p.Stands deeds)
    (hdue : ∀ v, ¬Due deeds v) : p.deferred.value = none := by
  cases hvalue : p.deferred.value with
  | none => rfl
  | some v => exact absurd ((h.value v).mp hvalue) (hdue v)

/-- What the next deed answers and whom it wakes. -/
structure Delivers (deeds : List (Deed α ω)) (p : Pair α ω) : Prop where
  due : ∀ waker v, Due deeds v → (p.step (.poll waker)).1 = (some (.ready v), none)
  waits : ∀ waker, (∀ v, ¬Due deeds v) → (p.step (.poll waker)).1 = (some .pending, none)
  wakes : ∀ v, (∀ d ∈ deeds, d.IsPoll) → (p.step (.resolve v)).1 = (none, lastWaker deeds)
  late : ∀ v, (¬∀ d ∈ deeds, d.IsPoll) → p.step (.resolve v) = ((none, none), p)
  forgets : (p.step .forget).1 = (none, none)

theorem Stands.delivers {deeds : List (Deed α ω)} {p : Pair α ω} (h : p.Stands deeds) :
    p.Delivers deeds where
  due waker v hdue := by
    have hvalue := (h.value v).mpr hdue
    simp [Pair.step, Deferred.poll, hvalue]
  waits waker hdue := by
    have hvalue := h.value_eq_none hdue
    simp [Pair.step, Deferred.poll, hvalue]
  wakes v hpolls := by
    have hresolver := h.resolver.mpr hpolls
    simp [Pair.step, hresolver, Deferred.resolve, h.waiting hresolver]
  late v hpolls := by
    have hused : ¬p.resolver = true := by rwa [h.resolver]
    rw [Pair.step, if_neg hused]
  forgets := rfl

end Pair

/-! ### In the world -/

/-- Where foreign code keeps a deferred value. -/
structure Nook (H : Host) (α : Type) where
  get? : H.State → Option (Deferred α H.Waker)
  set : Deferred α H.Waker → H.State → H.State
  get?_set : ∀ {s d} e, get? s = some d → get? (set e s) = some e

namespace Nook

variable (nook : Nook H α)

def poll (waker : H.Waker) : Act H (Poll α) := do
  match nook.get? (← get).state with
  | none => return .pending
  | some d =>
    let (answer, d) := d.poll waker
    modify fun w => { w with state := nook.set d w.state }
    return answer

/-- Gives the value and wakes whoever polled last. -/
def resolve [Foreign H] (value : α) : Act H Unit := do
  match nook.get? (← get).state with
  | none => pure ()
  | some d =>
    let (waker, d) := d.resolve value
    modify fun w => { w with state := nook.set d w.state }
    match waker with
    | none => pure ()
    | some waker => wake waker

def put (d : Deferred α H.Waker) (w : World H) : World H :=
  { w with state := nook.set d w.state }

variable {nook} {w : World H} {d : Deferred α H.Waker} (h : nook.get? w.state = some d)
include h

theorem get?_put (e : Deferred α H.Waker) : nook.get? (nook.put e w).state = some e :=
  nook.get?_set e h

theorem exec_poll (waker : H.Waker) :
    exec (nook.poll waker) w = (.ok (d.poll waker).1, nook.put (d.poll waker).2 w) := by
  rw [poll, exec_bind, exec_get]
  simp only [h]
  rfl

theorem exec_resolve [Foreign H] (value : α) :
    exec (nook.resolve value) w =
      (.ok (), (nook.put { value := some value } w).settle (Cascade.wakeAll d.waker.toList)) := by
  rw [resolve, exec_bind, exec_get]
  simp only [h, Deferred.resolve]
  cases d.waker with
  | none => exact congrArg _ (World.settle_nil _).symm
  | some waker => rfl

end Nook

namespace Scenario

variable {ν : Type}

/-- The deferred values of a scenario are kept on its stage, by number. -/
def nook (number : Nat) : Nook (host ν) (Value ν) where
  get? s := s.deferreds[number]?
  set d s := { s with deferreds := s.deferreds.set number d }
  get?_set := by
    intro s d e h
    have hnumber := (List.getElem?_eq_some_iff.mp h).1
    exact List.getElem?_set_self hnumber

theorem exec_poll_nook (number : Nat) (waker : Waker) (w : World (host ν)) :
    exec ((nook number).poll waker) w = exec (pollDeferred waker number) w := by
  have hstage : exec (getStage : Act (host ν) (Stage ν)) w = (.ok w.state, w) := rfl
  rw [Nook.poll, pollDeferred, exec_bind, exec_bind, exec_get, hstage]
  simp only [nook]
  cases w.state.deferreds[number]? <;> rfl

theorem exec_resolve_nook (number : Nat) (value : Value ν) (w : World (host ν)) :
    exec ((nook number).resolve value) w = exec (resolveDeferred number value) w := by
  have hstage : exec (getStage : Act (host ν) (Stage ν)) w = (.ok w.state, w) := rfl
  rw [Nook.resolve, resolveDeferred, exec_bind, exec_bind, exec_get, hstage]
  simp only [nook]
  rcases w.state.deferreds[number]? with _ | ⟨given, _ | waker⟩ <;> rfl

end Scenario

/-! ### A tracked import of a deferred value -/

namespace Nook

variable (nook : Nook H α)

/-- A future that polls the deferred value. -/
def future (waker : H.Waker) : Run H (Outcome H α × Unit) := do
  let outcome ← (nook.poll waker).run
  return (outcome, ())

variable {nook}

theorem run_future {w : World H} {d : Deferred α H.Waker} (h : nook.get? w.state = some d)
    (waker : H.Waker) :
    (nook.future waker).run w = ((.ok (d.poll waker).1, ()), nook.put (d.poll waker).2 w) := by
  have hpoll : StateT.run (ExceptT.run (nook.poll waker)) w = _ := exec_poll h waker
  simp only [future, StateT.run_bind, hpoll]
  rfl

variable [Foreign H]

/-- Tracks the deferred value as an import that has already started. -/
def track : Act H (TrackedImport H.Signal Unit) :=
  let _ : Import H Unit Unit := ⟨pure, pure⟩
  trackImport ()

/-- No signal touches the deferred value. -/
def IsPrivate (nook : Nook H α) : Prop :=
  ∀ (signal : H.Signal) (w : World H),
    nook.get? (exec (Foreign.beginRead signal) w).2.state = nook.get? w.state ∧
      nook.get? (exec (Foreign.endRead signal) w).2.state = nook.get? w.state

theorem IsPrivate.begun (h : nook.IsPrivate) (signal : SignalRef H.Signal) (w : World H) :
    nook.get? (ReadLease.begun signal w).2.state = nook.get? w.state := by
  have hread : nook.get? (exec signal.beginRead w).2.state = nook.get? w.state := by
    cases signal with
    | cache i => rfl
    | foreign signal => exact (h signal w).1
  rw [ReadLease.begun]
  rcases hbegin : exec signal.beginRead w with ⟨_ | ⟨⟩, v⟩ <;> rwa [hbegin] at hread

theorem IsPrivate.ended (h : nook.IsPrivate) (lease : ReadLease H.Signal) (w : World H) :
    nook.get? (lease.ended w).2.state = nook.get? w.state := by
  have hread : nook.get? (exec lease.signal.endRead w).2.state = nook.get? w.state := by
    cases lease.signal with
    | cache i => rfl
    | foreign signal => exact (h signal w).2
  rw [ReadLease.ended]
  rcases hend : exec lease.signal.endRead w with ⟨_ | ⟨⟩, v⟩ <;> rwa [hend] at hread

end Nook

/-- Something that other code does meanwhile, without touching the deferred value. -/
structure Meantime (nook : Nook H α) where
  go : World H → World H
  keeps : ∀ w, nook.get? (go w).state = nook.get? w.state

/-- A tracked import of the deferred value, and the right to give that, if it is still there. -/
structure Course (H : Host) where
  future : TrackedImport H.Signal Unit
  world : World H
  resolver : Bool := true

namespace Course

variable [Foreign H] {nook : Nook H α}

/-- Does a deed after what other code does meanwhile. Answers with the outcome of a poll. -/
def step (c : Course H) (gap : Meantime nook) : Deed α H.Waker → Option (Outcome H α) × Course H
  | .poll waker =>
    let polled := (c.future.poll (nook.future waker)).run (gap.go c.world)
    (some polled.1.1, { c with future := polled.1.2, world := polled.2 })
  | .resolve value =>
    if c.resolver then
      (none, { c with
        world := (exec (nook.resolve value) (gap.go c.world)).2
        resolver := false })
    else (none, { c with world := gap.go c.world })
  | .forget => (none, { c with world := gap.go c.world, resolver := false })

def run (c : Course H) (steps : List (Meantime nook × Deed α H.Waker)) : Course H :=
  steps.foldl (fun c s => (c.step s.1 s.2).2) c

/-- The course goes as its two parties do. The lease stays until the value is handed out. -/
structure Follows (nook : Nook H α) (lease : ReadLease H.Signal) (p : Pair α H.Waker)
    (c : Course H) : Prop where
  slot : nook.get? c.world.state = some p.deferred
  resolver : c.resolver = p.resolver
  lease : c.future.lease = some lease ∨
    c.future.lease = none ∧ p.resolver = false ∧ p.deferred.value = none

variable {lease : ReadLease H.Signal} {deeds : List (Deed α H.Waker)} {p : Pair α H.Waker}
  {c : Course H}

omit [Foreign H] in
theorem Follows.slot_go (h : Follows nook lease p c) (gap : Meantime nook) :
    nook.get? (gap.go c.world).state = some p.deferred :=
  (gap.keeps c.world).trans h.slot

/-- The poll that finds the value ends the read before it hands the value out. -/
theorem Follows.poll_of_some (h : Follows nook lease p c) {value : α}
    (hp : p.deferred = { value := some value }) (gap : Meantime nook) (waker : H.Waker) :
    c.future.lease = some lease ∧ c.step gap (.poll waker) =
      (some (Outcome.after (lease.ended (nook.put {} (gap.go c.world))).1 (.ok (.ready value))),
        ⟨⟨(), none⟩, (lease.ended (nook.put {} (gap.go c.world))).2, c.resolver⟩) := by
  have hlease : c.future.lease = some lease := by
    rcases h.lease with hlease | ⟨-, -, hnone⟩
    · exact hlease
    · simp [hp] at hnone
  let visit : Visit H Unit α := ⟨gap.go, fun _ => nook.future waker⟩
  have hvisit : visit.alone c.future.inner c.world =
      ((.ok (.ready value), ()), nook.put {} (gap.go c.world)) := by
    have hfuture := Nook.run_future (h.slot_go gap) waker
    rwa [hp] at hfuture
  have htracked := c.future.poll_of_ready hvisit
  rw [hlease] at htracked
  have hpoll : (c.future.poll (nook.future waker)).run (gap.go c.world) = _ := htracked
  refine ⟨hlease, ?_⟩
  rw [step, hpoll, ReadLease.releaseAny, ReadLease.exec_release]

/-- Any other poll leaves its waker, and nothing else changes. -/
theorem Follows.poll_of_none (h : Follows nook lease p c) (hp : p.deferred.value = none)
    (gap : Meantime nook) (waker : H.Waker) :
    c.step gap (.poll waker) =
      (some (.ok .pending), { c with
        world := nook.put { waker := some waker } (gap.go c.world) }) := by
  let visit : Visit H Unit α := ⟨gap.go, fun _ => nook.future waker⟩
  have hvisit : visit.alone c.future.inner c.world =
      ((.ok .pending, ()), nook.put { waker := some waker } (gap.go c.world)) := by
    have hfuture := Nook.run_future (h.slot_go gap) waker
    simp only [Deferred.poll, hp] at hfuture
    exact hfuture
  have htracked := c.future.poll_of_unfinished hvisit trivial
  have hpoll : (c.future.poll (nook.future waker)).run (gap.go c.world) = _ := htracked
  rw [step, hpoll]

theorem Follows.resolve (h : Follows nook lease p c) (hp : p.resolver = true)
    (gap : Meantime nook) (value : α) :
    c.step gap (.resolve value) =
      (none, { c with
        world := (nook.put { value := some value } (gap.go c.world)).settle
          (Cascade.wakeAll p.deferred.waker.toList)
        resolver := false }) := by
  rw [step, if_pos (h.resolver.trans hp), Nook.exec_resolve (h.slot_go gap)]

theorem Follows.step (hnook : nook.IsPrivate) (h : Follows nook lease p c) (hp : p.Stands deeds)
    (gap : Meantime nook) (d : Deed α H.Waker) :
    Follows nook lease (p.step d).2 (c.step gap d).2 := by
  have hgap := h.slot_go gap
  cases d with
  | poll waker =>
    cases hvalue : p.deferred.value with
    | none =>
      have hstep : (p.step (.poll waker)).2 = { p with deferred := { waker := some waker } } := by
        simp [Pair.step, Deferred.poll, hvalue]
      rw [h.poll_of_none hvalue, hstep]
      constructor
      · exact Nook.get?_put hgap _
      · exact h.resolver
      · rcases h.lease with hlease | ⟨hlease, hresolver, -⟩
        · exact .inl hlease
        · exact .inr ⟨hlease, hresolver, rfl⟩
    | some value =>
      -- The value is there, so it was given, and the lease is not needed any more.
      have hdeferred := hp.given value hvalue
      have hstep : (p.step (.poll waker)).2 = { p with deferred := {} } := by
        simp [Pair.step, Deferred.poll, hdeferred]
      have hresolver : p.resolver = false := by
        cases hresolver : p.resolver with
        | true => simp [hp.waiting hresolver] at hvalue
        | false => rfl
      rw [(h.poll_of_some hdeferred gap waker).2, hstep]
      constructor
      · exact (hnook.ended lease _).trans (Nook.get?_put hgap _)
      · exact h.resolver
      · exact .inr ⟨rfl, hresolver, rfl⟩
  | resolve value =>
    cases hresolver : p.resolver with
    | true =>
      have hstep : (p.step (.resolve value)).2 = ⟨{ value := some value }, false⟩ := by
        simp [Pair.step, Deferred.resolve, hresolver]
      rw [h.resolve hresolver, hstep]
      constructor
      · exact Nook.get?_put hgap _
      · rfl
      · rcases h.lease with hlease | ⟨-, hused, -⟩
        · exact .inl hlease
        · simp [hresolver] at hused
    | false =>
      have hstep : (p.step (.resolve value)).2 = p := by simp [Pair.step, hresolver]
      have hused : ¬c.resolver = true := by simp [h.resolver, hresolver]
      rw [Course.step, if_neg hused, hstep]
      exact ⟨hgap, h.resolver, h.lease⟩
  | forget =>
    constructor
    · exact hgap
    · rfl
    · rcases h.lease with hlease | ⟨hlease, -, hvalue⟩
      · exact .inl hlease
      · exact .inr ⟨hlease, rfl, hvalue⟩

theorem Follows.run (hnook : nook.IsPrivate) (h : Follows nook lease p c) (hp : p.Stands deeds)
    (steps : List (Meantime nook × Deed α H.Waker)) :
    Follows nook lease (p.run (steps.map (·.2))) (c.run steps) := by
  induction steps generalizing p c deeds with
  | nil => exact h
  | cons s steps ih => exact ih (h.step hnook hp s.1 s.2) (hp.step s.2)

/-- What becomes of a tracked import of a deferred value in the next deed. A poll that gets the
value ends the read before it hands the value out. A poll that does not get it leaves its waker and
changes nothing else. Giving the value wakes who polled last, if anyone, and dropping the right to
do so wakes nobody. -/
structure Delivers (nook : Nook H α) (signal : SignalRef H.Signal) (deeds : List (Deed α H.Waker))
    (c : Course H) : Prop where
  due : ∀ (gap : Meantime nook) waker value, Due deeds value →
    let ended := (ReadLease.mk signal).ended (nook.put {} (gap.go c.world))
    c.future.lease = some ⟨signal⟩ ∧ c.step gap (.poll waker) =
      (some (Outcome.after ended.1 (.ok (.ready value))), ⟨⟨(), none⟩, ended.2, c.resolver⟩)
  waits : ∀ (gap : Meantime nook) waker, (∀ value, ¬Due deeds value) →
    c.step gap (.poll waker) =
      (some (.ok .pending), { c with
        world := nook.put { waker := some waker } (gap.go c.world) })
  wakes : ∀ (gap : Meantime nook) value, (∀ d ∈ deeds, d.IsPoll) →
    c.step gap (.resolve value) =
      (none, { c with
        world := (nook.put { value := some value } (gap.go c.world)).settle
          (Cascade.wakeAll (lastWaker deeds).toList)
        resolver := false })
  late : ∀ (gap : Meantime nook) value, (¬∀ d ∈ deeds, d.IsPoll) →
    c.step gap (.resolve value) = (none, { c with world := gap.go c.world })
  forgets : ∀ gap : Meantime nook,
    c.step gap .forget = (none, { c with world := gap.go c.world, resolver := false })

theorem Follows.delivers {signal : SignalRef H.Signal} (h : Follows nook ⟨signal⟩ p c)
    (hp : p.Stands deeds) : c.Delivers nook signal deeds where
  due gap waker value hdue :=
    h.poll_of_some (hp.given value ((hp.value value).mpr hdue)) gap waker
  waits gap waker hdue := h.poll_of_none (hp.value_eq_none hdue) gap waker
  wakes gap value hpolls := by
    have hresolver := hp.resolver.mpr hpolls
    rw [h.resolve hresolver, hp.waiting hresolver]
  late gap value hpolls := by
    have hused : ¬c.resolver = true := by rwa [h.resolver, hp.resolver]
    rw [Course.step, if_neg hused]
  forgets _ := rfl

/-- Where a deferred value that nobody has polled is tracked, the course of its import begins. -/
theorem Follows.start (hnook : nook.IsPrivate) {w v : World H} {signal : SignalRef H.Signal}
    {t : TrackedImport H.Signal Unit} (hslot : nook.get? w.state = some {})
    (hsignal : w.signal? = some signal) (hmade : exec Nook.track w = (.ok t, v)) :
    Follows nook ⟨signal⟩ {} ⟨t, v, true⟩ := by
  let _ : Import H Unit Unit := ⟨pure, pure⟩
  have htrack : exec (trackImport () : Act H (TrackedImport H.Signal Unit)) w = (.ok t, v) := hmade
  obtain ⟨u, hbegins, hstart⟩ := trackImport_begins htrack
  simp only [World.Begins, hsignal] at hbegins
  obtain ⟨hlease, hbegin⟩ := hbegins
  obtain ⟨-, rfl⟩ := Prod.mk.inj hstart
  have hkeeps := hnook.begun signal w
  rw [hbegin] at hkeeps
  exact ⟨hkeeps.trans hslot, rfl, .inl hlease⟩

/-- A deferred value is delivered once, to the first poll after it was given, and whoever polled
last before that is woken once. If the right to give it is dropped, it never comes. Where the value
is tracked as an import under a signal, the read ends in the poll that gets the value and in no
other one. -/
theorem delivers_once (hnook : nook.IsPrivate) {w v : World H} {signal : SignalRef H.Signal}
    {t : TrackedImport H.Signal Unit} (hslot : nook.get? w.state = some {})
    (hsignal : w.signal? = some signal) (hmade : exec Nook.track w = (.ok t, v))
    (steps : List (Meantime nook × Deed α H.Waker)) :
    let deeds := steps.map (·.2)
    (Pair.run {} deeds).Delivers deeds ∧ (run ⟨t, v, true⟩ steps).Delivers nook signal deeds ∧
      ∀ polls rest, deeds = polls ++ .forget :: rest → (∀ d ∈ polls, d.IsPoll) →
        ∀ value, ¬Due deeds value := by
  intro deeds
  have hstands : (Pair.run {} deeds).Stands deeds := Pair.Stands.start.run deeds
  have hfollows := (Follows.start hnook hslot hsignal hmade).run hnook .start steps
  refine ⟨hstands.delivers, hfollows.delivers hstands, ?_⟩
  intro polls rest hsplit hpolls value
  rw [hsplit]
  exact not_due_of_forget hpolls value

end Course

/-- The deferred value with this number. -/
def Host.nook (k : Nat) : Nook Host.deferring String where
  get? s := some (s k)
  set d s j := if j = k then d else s j
  get?_set _ _ := congrArg some (if_pos rfl)

def Meantime.idle {nook : Nook H α} : Meantime nook := ⟨id, fun _ => rfl⟩

namespace Course

/-- Two polls of an import that is tracked inside a prerender, and then the value is given. -/
def given : World Host.deferring × Course Host.deferring :=
  let w : World Host.deferring :=
    { units := { entries := [⟨0, .prerender (some (.cache 0))⟩] }, caches := [{}]
      state := fun _ => {} }
  let steps : List (Meantime (Host.nook 0) × Deed String String) :=
    [(.idle, .poll "first"), (.idle, .poll "second"), (.idle, .resolve "value")]
  (w, run ⟨⟨(), some ⟨.cache 0⟩⟩, (exec Nook.track w).2, true⟩ steps)

theorem delivers_once_given :
    let polled := given.2.step (.idle : Meantime (Host.nook 0)) (.poll "third")
    (Host.nook 0).IsPrivate ∧ given.1.signal? = some (.cache 0) ∧
    exec Nook.track given.1 = (.ok ⟨(), some ⟨.cache 0⟩⟩, (exec Nook.track given.1).2) ∧
    given.2.future.lease = some ⟨.cache 0⟩ ∧
    polled.1 = some (.ok (.ready "value")) ∧ polled.2.future.lease = none ∧
    polled.2.world.history.reverse = [.cache (.begun 0 1), .leaseBegun (.cache 0),
      .cache (.woken "second" none), .cache (.ended 0 0), .leaseEnded (.cache 0)] := by
  intro polled
  have hprivate : (Host.nook 0).IsPrivate := fun signal => nomatch signal
  have hdue : Due [.poll "first", .poll "second", .resolve "value"] "value" := by
    refine ⟨[.poll "first", .poll "second"], [], rfl, ?_, by simp⟩
    simp [IsPoll, waker?]
  obtain ⟨-, hdelivers, -⟩ := delivers_once hprivate (w := given.1) rfl rfl rfl
    [(.idle, .poll "first"), (.idle, .poll "second"), (.idle, .resolve "value")]
  obtain ⟨hlease, hpolled⟩ := hdelivers.due .idle "third" "value" hdue
  have hhistory : polled.2.world.history.reverse = [.cache (.begun 0 1), .leaseBegun (.cache 0),
      .cache (.woken "second" none), .cache (.ended 0 0), .leaseEnded (.cache 0)] := by cbv
  exact ⟨hprivate, rfl, rfl, hlease, congrArg Prod.fst hpolled,
    congrArg (·.2.future.lease) hpolled, hhistory⟩

end Course

end ReadBarrier
