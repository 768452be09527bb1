import ReadBarrier.Proofs.Act

/-!
The life of a tracked import: one read begun where it is made, and one ended.

Nothing is known about the signal, which is code like any other, nor about the import. So the calls
are not counted. Instead a tracked import is compared with its inner future left to itself: both do
the same, but for one end of the read, at one place.
-/

namespace ReadBarrier

variable {H : Host} {α φ ι : Type}

/-- One poll of a future, `meanwhile` other code has changed the world. -/
structure Visit (H : Host) (φ α : Type) where
  meanwhile : World H → World H
  poll : φ → Run H (Outcome H α × φ)

/-- How a future stands after some polls. -/
structure Polled (H : Host) (φ α : Type) where
  outcomes : List (Outcome H α)
  future : φ
  world : World H

namespace Visit

def alone (v : Visit H φ α) (future : φ) (w : World H) : (Outcome H α × φ) × World H :=
  (v.poll future).run (v.meanwhile w)

def tracked [Foreign H] (v : Visit H φ α) (t : TrackedImport H.Signal φ) (w : World H) :
    (Outcome H α × TrackedImport H.Signal φ) × World H :=
  (t.poll (v.poll t.inner)).run (v.meanwhile w)

/-- Pays visits one after the other. -/
def all {τ : Type} (pay : Visit H φ α → τ → World H → (Outcome H α × τ) × World H) :
    List (Visit H φ α) → τ → World H → Polled H τ α
  | [], future, w => ⟨[], future, w⟩
  | v :: vs, future, w =>
    let paid := pay v future w
    let later := all pay vs paid.1.2 paid.2
    { later with outcomes := paid.1.1 :: later.outcomes }

end Visit

/-- Whether a poll left a future unfinished. One that panicked did. -/
def Outcome.Unfinished : Outcome H α → Prop
  | .ok (.ready _) => False
  | .ok .pending | .error _ => True

/-- A read begins on the signal of the current unit, if it has one, by one call of that signal, and the
lease is on that read. -/
def World.Begins [Foreign H] (w : World H) (lease : Option (ReadLease H.Signal)) (v : World H) :
    Prop :=
  match w.signal? with
  | none => lease = none ∧ v = w
  | some signal =>
    lease = some ⟨signal⟩ ∧ ReadLease.begun signal w = (.ok ⟨signal⟩, v)

open Act Visit

namespace TrackedImport

variable [Foreign H]

/-- The visits that a tracked import was paid changed it and the world just as they would have its
inner future. -/
def Kept (t : TrackedImport H.Signal φ) (visits : List (Visit H φ α)) (w : World H) : Prop :=
  all tracked visits t w =
    { all alone visits t.inner w with future := ⟨(all alone visits t.inner w).future, t.lease⟩ }

/-- What becomes of a tracked import in some visits. Without a lease it is its inner future. With a
lease, the read ends in the visit that finishes the inner future, by one call of its signal right after
that and before the outcome is passed on, and never again; or, if no visit does, where the import is
dropped, after its inner future. -/
def EndsOnce (t : TrackedImport H.Signal φ) (visits : List (Visit H φ α)) (w : World H) : Prop :=
  match t.lease with
  | none => t.Kept visits w ∧
    ∀ (giveUp : Act H Unit) v,
      exec ((all tracked visits t w).future.discard giveUp) v = exec giveUp v
  | some lease =>
    (∃ before visit after value inner u,
      visits = before ++ visit :: after ∧
      (∀ o ∈ (all alone before t.inner w).outcomes, o.Unfinished) ∧
      visit.alone (all alone before t.inner w).future (all alone before t.inner w).world =
        ((.ok (.ready value), inner), u) ∧
      (let ended := lease.ended u
      let later := all alone after inner ended.2
      all tracked visits t w =
        ⟨(all alone before t.inner w).outcomes ++
          Outcome.after ended.1 (.ok (.ready value)) :: later.outcomes,
          ⟨later.future, none⟩, later.world⟩) ∧
      ∀ (giveUp : Act H Unit) v,
        exec ((all tracked visits t w).future.discard giveUp) v = exec giveUp v) ∨
    ((∀ o ∈ (all alone visits t.inner w).outcomes, o.Unfinished) ∧ t.Kept visits w ∧
      ∀ (giveUp : Act H Unit) v,
        exec ((all tracked visits t w).future.discard giveUp) v =
          match exec giveUp v with
          | (.ok (), u) => lease.ended u
          | (.error p, u) => (.error p, (lease.ended u).2))

theorem poll_of_ready (t : TrackedImport H.Signal φ) {v : Visit H φ α} {w u : World H} {value : α}
    {inner : φ} (h : v.alone t.inner w = ((.ok (.ready value), inner), u)) :
    v.tracked t w =
      ((Outcome.after (exec (ReadLease.releaseAny t.lease) u).1 (.ok (.ready value)),
        ⟨inner, none⟩), (exec (ReadLease.releaseAny t.lease) u).2) := by
  simp only [alone] at h
  simp only [tracked, poll, StateT.run_bind, h]
  rfl

theorem poll_of_unfinished (t : TrackedImport H.Signal φ) {v : Visit H φ α} {w u : World H}
    {o : Outcome H α} {inner : φ} (h : v.alone t.inner w = ((o, inner), u)) (ho : o.Unfinished) :
    v.tracked t w = ((o, ⟨inner, t.lease⟩), u) := by
  simp only [alone] at h
  simp only [tracked, poll, StateT.run_bind, h]
  rcases o with p | ⟨value⟩ | _
  · rfl
  · exact ho.elim
  · rfl

theorem exec_discard_of_none (inner : φ) (giveUp : Act H Unit) (v : World H) :
    exec (TrackedImport.discard ⟨inner, none⟩ giveUp) v = exec giveUp v := by
  rw [discard, exec_always]
  rcases exec giveUp v with ⟨_ | ⟨⟩, u⟩ <;> rfl

theorem exec_discard_of_some (inner : φ) (lease : ReadLease H.Signal) (giveUp : Act H Unit)
    (v : World H) :
    exec (TrackedImport.discard ⟨inner, some lease⟩ giveUp) v =
      match exec giveUp v with
      | (.ok (), u) => lease.ended u
      | (.error p, u) => (.error p, (lease.ended u).2) := by
  rw [discard, exec_always, ReadLease.releaseAny]
  rcases exec giveUp v with ⟨_ | ⟨⟩, u⟩
  · simp only [ReadLease.exec_release]
  · simp only [ReadLease.exec_release]
    rcases lease.ended u with ⟨_ | ⟨⟩, x⟩ <;> rfl

/-- A visit that finds no lease, or leaves the future unfinished, does not end the read. -/
theorem tracked_of_kept (t : TrackedImport H.Signal φ) (v : Visit H φ α) (w : World H)
    (h : t.lease = none ∨ (v.alone t.inner w).1.1.Unfinished) :
    v.tracked t w =
      (((v.alone t.inner w).1.1, ⟨(v.alone t.inner w).1.2, t.lease⟩), (v.alone t.inner w).2) := by
  obtain ⟨inner, lease⟩ := t
  rcases hv : v.alone inner w with ⟨⟨_ | ⟨value⟩ | _, rest⟩, u⟩
  · exact poll_of_unfinished ⟨inner, lease⟩ hv trivial
  · rcases h with h | h
    · obtain rfl : lease = none := h
      exact poll_of_ready ⟨inner, none⟩ hv
    · simp only [hv] at h
      exact h.elim
  · exact poll_of_unfinished ⟨inner, lease⟩ hv trivial

theorem kept (t : TrackedImport H.Signal φ) (visits : List (Visit H φ α)) (w : World H)
    (h : t.lease = none ∨ ∀ o ∈ (all alone visits t.inner w).outcomes, o.Unfinished) :
    t.Kept visits w := by
  induction visits generalizing t w with
  | nil => rfl
  | cons v visits ih =>
    have hv := tracked_of_kept t v w (h.imp id fun ho => ho _ (List.mem_cons_self ..))
    have hrest := ih ⟨(v.alone t.inner w).1.2, t.lease⟩ (v.alone t.inner w).2
      (h.imp id fun ho o hmem => ho o (List.mem_cons_of_mem _ hmem))
    simp only [Kept, all, hv] at hrest ⊢
    rw [hrest]

end TrackedImport

namespace Visit

theorem all_append {τ : Type} (pay : Visit H φ α → τ → World H → (Outcome H α × τ) × World H)
    (before after : List (Visit H φ α)) (future : τ) (w : World H) :
    all pay (before ++ after) future w =
      let first := all pay before future w
      let later := all pay after first.future first.world
      { later with outcomes := first.outcomes ++ later.outcomes } := by
  induction before generalizing future w with
  | nil => rfl
  | cons v before ih => simp only [List.cons_append, all, ih]

/-- Either a first visit finishes a future or none does. -/
theorem finishes (visits : List (Visit H φ α)) (future : φ) (w : World H) :
    (∃ before visit after value rest u,
      visits = before ++ visit :: after ∧
      (∀ o ∈ (all alone before future w).outcomes, o.Unfinished) ∧
      visit.alone (all alone before future w).future (all alone before future w).world =
        ((.ok (.ready value), rest), u)) ∨
    ∀ o ∈ (all alone visits future w).outcomes, o.Unfinished := by
  induction visits generalizing future w with
  | nil => exact .inr fun o ho => by simp [all] at ho
  | cons v visits ih =>
    by_cases hv : (v.alone future w).1.1.Unfinished
    · rcases ih (v.alone future w).1.2 (v.alone future w).2 with
        ⟨before, visit, after, value, rest, u, rfl, hbefore, hvisit⟩ | hall
      · refine .inl ⟨v :: before, visit, after, value, rest, u, rfl, ?_, hvisit⟩
        intro o ho
        rcases List.mem_cons.mp ho with rfl | ho
        · exact hv
        · exact hbefore o ho
      · refine .inr fun o ho => ?_
        rcases List.mem_cons.mp ho with rfl | ho
        · exact hv
        · exact hall o ho
    · rcases hvisit : v.alone future w with ⟨⟨_ | ⟨value⟩ | _, rest⟩, u⟩
      · simp [hvisit, Outcome.Unfinished] at hv
      · exact .inl ⟨[], v, visits, value, rest, u, rfl, fun o ho => by simp [all] at ho, hvisit⟩
      · simp [hvisit, Outcome.Unfinished] at hv

end Visit

namespace TrackedImport

variable [Foreign H]

theorem endsOnce (t : TrackedImport H.Signal φ) (visits : List (Visit H φ α)) (w : World H) :
    t.EndsOnce visits w := by
  obtain ⟨inner, lease⟩ := t
  cases lease with
  | none =>
    have hkept := kept ⟨inner, none⟩ visits w (.inl rfl)
    refine ⟨hkept, fun giveUp v => ?_⟩
    rw [hkept]
    exact exec_discard_of_none _ giveUp v
  | some lease =>
    rcases finishes visits inner w with
      ⟨before, visit, after, value, rest, u, rfl, hbefore, hvisit⟩ | hall
    · have hkept := kept ⟨inner, some lease⟩ before w (.inr hbefore)
      have hready := poll_of_ready
        ⟨(all alone before inner w).future, some lease⟩ hvisit
      have hlater := kept ⟨rest, none⟩ after (lease.ended u).2 (.inl rfl)
      have hall : all tracked (before ++ visit :: after) ⟨inner, some lease⟩ w =
          ⟨(all alone before inner w).outcomes ++
            Outcome.after (lease.ended u).1 (.ok (.ready value)) ::
              (all alone after rest (lease.ended u).2).outcomes,
            ⟨(all alone after rest (lease.ended u).2).future, none⟩,
            (all alone after rest (lease.ended u).2).world⟩ := by
        rw [all_append, hkept]
        simp only [all, hready, ReadLease.releaseAny, ReadLease.exec_release]
        rw [hlater]
      refine .inl ⟨before, visit, after, value, rest, u, rfl, hbefore, hvisit, hall, ?_⟩
      intro giveUp v
      rw [hall]
      exact exec_discard_of_none _ giveUp v
    · have hkept := kept ⟨inner, some lease⟩ visits w (.inr hall)
      refine .inr ⟨hall, hkept, fun giveUp v => ?_⟩
      rw [hkept]
      exact exec_discard_of_some _ lease giveUp v

end TrackedImport

end ReadBarrier
