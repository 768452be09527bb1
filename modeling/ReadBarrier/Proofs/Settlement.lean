import Mathlib.Tactic.Choose
import ReadBarrier.Deferred
import ReadBarrier.Proofs.Ends
import ReadBarrier.Proofs.Lifecycle
import ReadBarrier.Proofs.Lot

/-!
The order in which imports settle does not matter.

Some live imports are done with, each by one operation: it settles and is polled, or it is dropped.
Each of them ends its read. Afterwards the imports, the signals and who was woken are the same in
every order.
-/

namespace ReadBarrier

variable {H : Host} {α β φ τ υ ω : Type}

/-! ### Computations apart from the signals and from each other -/

/-- What a computation answers, and whom it wakes. -/
def told (body : World H → β × World H) (w : World H) : β × List H.Waker :=
  ((body w).1, (body { w with history := [] }).2.woken)

/-- The computation does the same whatever the counting signals and the log are; the signals it
leaves as they are, and the log it adds to. -/
def Aloof (body : World H → β × World H) : Prop :=
  ∀ w caches history, ∃ log,
    body { w with caches, history } =
      ((body w).1, { (body w).2 with caches, history := log ++ history }) ∧
    wokenIn log = (told body w).2

namespace Aloof

variable {body : World H → β × World H}

theorem told_with (h : Aloof body) (w : World H) (caches : Bank H.Waker)
    (history : List (Event H)) : told body { w with caches, history } = told body w := by
  obtain ⟨log, hbody, -⟩ := h w caches history
  obtain ⟨log', hbody', hlog'⟩ := h w caches []
  have hanswer : (body { w with caches, history }).1 = (body w).1 := by rw [hbody]
  have hwoken : (body { w with caches, history := [] }).2.woken = (told body w).2 := by
    rw [hbody', ← hlog']
    simp [World.woken]
  exact Prod.ext hanswer hwoken

theorem caches_eq (h : Aloof body) (w : World H) : (body w).2.caches = w.caches := by
  obtain ⟨log, hbody, -⟩ := h w w.caches w.history
  exact congrArg (·.2.caches) hbody

theorem woken_eq (h : Aloof body) (w : World H) :
    (body w).2.woken = (told body w).2 ++ w.woken := by
  obtain ⟨log, hbody, hlog⟩ := h w w.caches w.history
  have hhistory : (body w).2.history = log ++ w.history := congrArg (·.2.history) hbody
  rw [World.woken, hhistory, ← hlog]
  simp [wokenIn, World.woken]

end Aloof

namespace Lot.Parks

variable {lot : Lot ω} {trace : List (Moved ω)} {ks : List Nat}

theorem nodup (h : Parks lot trace ks) : ks.Nodup := by
  apply h.ordered.imp
  rintro k _ hlt rfl
  exact Nat.lt_irrefl _ hlt

theorem wakers (h : Parks lot trace ks) :
    lot.signal.waiters.map (·.waker) = ks.filterMap (Moved.parked · trace) := by
  have hlisted := congrArg (List.filterMap Prod.snd) h.listed
  simpa [List.filterMap_map, Function.comp_def] using hlisted

end Lot.Parks

/-! ### Imports that are done with -/

/-- How an import is done with. It settles and is polled, or it is dropped. -/
inductive Closing (H : Host) (φ α : Type) where
  | settle (visit : Visit H φ α)
  | drop (giveUp : φ → Act H Unit)

/-- What has become of an import. -/
inductive Fate (H : Host) (τ α : Type) where
  | live (future : τ)
  | polled (outcome : Outcome H α) (future : τ)
  | dropped (result : Except (Panic H) Unit)

namespace Fate

def map (f : τ → υ) : Fate H τ α → Fate H υ α
  | live future => live (f future)
  | polled outcome future => polled outcome (f future)
  | dropped result => dropped result

/-- The import is done with: ready or dropped. -/
def Closed : Fate H τ α → Prop
  | polled (.ok (.ready _)) _ | dropped _ => True
  | live _ | polled (.ok .pending) _ | polled (.error _) _ => False

end Fate

/-- The counting signal on which an import keeps a read outstanding. -/
def TrackedImport.cache? {σ φ : Type} (t : TrackedImport σ φ) : Option Nat :=
  t.lease.bind (·.cache?)

def Fate.cache? : Fate H (TrackedImport H.Signal φ) α → Option Nat
  | live t | polled _ t => t.cache?
  | dropped _ => none

namespace Closing

open Act

/-- Does with a future what is to be done with the import that it is in. -/
def alone : Closing H φ α → φ → World H → Fate H φ α × World H
  | settle visit, future, w => ((fun r => .polled r.1 r.2) (visit.alone future w).1,
      (visit.alone future w).2)
  | drop giveUp, future, w => (.dropped (exec (giveUp future) w).1, (exec (giveUp future) w).2)

def tracked [Foreign H] :
    Closing H φ α → TrackedImport H.Signal φ → World H →
      Fate H (TrackedImport H.Signal φ) α × World H
  | settle visit, t, w => ((fun r => .polled r.1 r.2) (visit.tracked t w).1,
      (visit.tracked t w).2)
  | drop giveUp, t, w => (.dropped (exec (t.discard (giveUp t.inner)) w).1,
      (exec (t.discard (giveUp t.inner)) w).2)

/-- An import that is done with does what its future does and then ends its read. -/
theorem tracked_of_closed [Foreign H] {c : Closing H φ α} {t : TrackedImport H.Signal φ}
    {w : World H} (hclosed : (c.alone t.inner w).1.Closed)
    (hlease : ∀ l, t.lease = some l → l.cache?.isSome)
    (hsilent : (c.alone t.inner w).2.caches.Silent Foreign.reactions) :
    ∃ history,
      c.tracked t w =
        ((c.alone t.inner w).1.map (⟨·, none⟩),
          { (c.alone t.inner w).2 with
            caches := (c.alone t.inner w).2.caches.endRead t.cache?, history }) ∧
      (wokenIn history).Perm
        ((c.alone t.inner w).2.caches.dueAt t.cache? ++ (c.alone t.inner w).2.woken) := by
  obtain ⟨history, hrelease, hwoken⟩ := exec_releaseAny hsilent hlease
  refine ⟨history, ?_, hwoken⟩
  cases c with
  | settle visit =>
    simp only [alone] at hclosed hrelease ⊢
    rcases hvisit : visit.alone t.inner w with ⟨⟨_ | ⟨value⟩ | _, rest⟩, u⟩
    · simp [hvisit, Fate.Closed] at hclosed
    · rw [hvisit] at hrelease
      rw [tracked, t.poll_of_ready hvisit, hrelease]
      rfl
    · simp [hvisit, Fate.Closed] at hclosed
  | drop giveUp =>
    simp only [alone] at hrelease ⊢
    rw [tracked, TrackedImport.discard, exec_always]
    rcases hgive : exec (giveUp t.inner) w with ⟨_ | ⟨⟩, u⟩
    all_goals
      rw [hgive] at hrelease
      simp only [hrelease]
      rfl

end Closing

/-! ### Scenes -/

/-- Imports, each with what has become of it so far, and the world that they are in. -/
structure Scene (H : Host) (φ α : Type) where
  imports : List (Fate H (TrackedImport H.Signal φ) α)
  world : World H

namespace Scene

/-- How many leases on signal `i` are live. -/
def leasesOn (s : Scene H φ α) (i : Nat) : Nat := (s.imports.map Fate.cache?).count (some i)

section Close

variable [Foreign H]

/-- Does with import `k`, which is live, what is to be done with it. -/
def close (closing : Nat → Closing H φ α) (s : Scene H φ α) (k : Nat) : Scene H φ α :=
  match s.imports[k]? with
  | some (.live t) =>
    let (fate, world) := (closing k).tracked t s.world
    { imports := s.imports.set k fate, world }
  | _ => s

def closeAll (closing : Nat → Closing H φ α) (s : Scene H φ α) (ks : List Nat) : Scene H φ α :=
  ks.foldl (close closing) s

end Close

/-- What is done with the future in one of the picked imports. -/
def alone (closing : Nat → Closing H φ α) (picked : Nat → TrackedImport H.Signal φ) (k : Nat) :
    World H → Fate H φ α × World H :=
  (closing k).alone (picked k).inner

/-- The imports `ks` are live, with leases on counting signals or none, and can be done with. Their
futures have nothing to do with the counters or with each other, and whoever waits for a signal
calls nothing when it is woken. -/
structure Chosen [Foreign H] (s : Scene H φ α) (closing : Nat → Closing H φ α)
    (picked : Nat → TrackedImport H.Signal φ) (ks : List Nat) : Prop where
  nodup : ks.Nodup
  live : ∀ k ∈ ks, s.imports[k]? = some (.live (picked k))
  counted : ∀ k ∈ ks, ∀ lease, (picked k).lease = some lease → lease.cache?.isSome
  aloof : ∀ k ∈ ks, Aloof (alone closing picked k)
  apart : ∀ j ∈ ks, ∀ k ∈ ks, j ≠ k → ∀ w,
    told (alone closing picked j) (alone closing picked k w).2 = told (alone closing picked j) w
  closes : ∀ k ∈ ks, (told (alone closing picked k) s.world).1.Closed
  silent : s.world.caches.Silent Foreign.reactions

namespace Chosen

variable [Foreign H] {s : Scene H φ α} {closing : Nat → Closing H φ α}
  {picked : Nat → TrackedImport H.Signal φ} {k : Nat} {ks order : List Nat}

theorem subset (h : s.Chosen closing picked ks) (hnodup : order.Nodup) (hsub : order ⊆ ks) :
    s.Chosen closing picked order where
  nodup := hnodup
  live k hk := h.live k (hsub hk)
  counted k hk := h.counted k (hsub hk)
  aloof k hk := h.aloof k (hsub hk)
  apart j hj k hk := h.apart j (hsub hj) k (hsub hk)
  closes k hk := h.closes k (hsub hk)
  silent := h.silent

theorem perm (h : s.Chosen closing picked ks) (horder : order.Perm ks) :
    s.Chosen closing picked order :=
  h.subset (horder.nodup_iff.mpr h.nodup) horder.subset

/-- One import is done with: its future alone does the same, and one read ends. -/
theorem close_eq (h : s.Chosen closing picked (k :: ks)) :
    ∃ history,
      s.close closing k =
        { imports := s.imports.set k
            ((told (alone closing picked k) s.world).1.map (⟨·, none⟩))
          world :=
            { (alone closing picked k s.world).2 with
              caches := s.world.caches.endRead (picked k).cache?, history } } ∧
      (wokenIn history).Perm (s.world.caches.dueAt (picked k).cache? ++
        ((told (alone closing picked k) s.world).2 ++ s.world.woken)) := by
  have hk : k ∈ k :: ks := List.mem_cons_self
  have hcaches := (h.aloof k hk).caches_eq s.world
  have hwoken := (h.aloof k hk).woken_eq s.world
  obtain ⟨history, htracked, hperm⟩ := Closing.tracked_of_closed (c := closing k) (h.closes k hk)
    (h.counted k hk) (hcaches ▸ h.silent)
  refine ⟨history, ?_, ?_⟩
  · rw [close, h.live k hk]
    simp only [htracked]
    rw [show ((closing k).alone (picked k).inner s.world).2.caches = _ from hcaches]
    rfl
  · rw [← hwoken, ← hcaches]
    exact hperm

/-- The rest stay as they were: what they will answer, whom they will wake, and their leases. -/
theorem close (h : s.Chosen closing picked (k :: ks)) :
    (s.close closing k).Chosen closing picked ks ∧
      ∀ j ∈ ks, told (alone closing picked j) (s.close closing k).world =
        told (alone closing picked j) s.world := by
  obtain ⟨hnotin, hnodup⟩ := List.nodup_cons.mp h.nodup
  obtain ⟨history, hclose, -⟩ := h.close_eq
  have hne : ∀ j ∈ ks, j ≠ k := by
    rintro j hj rfl
    exact hnotin hj
  have hin : ∀ j ∈ ks, j ∈ k :: ks := fun j hj => List.mem_cons_of_mem _ hj
  have htold : ∀ j ∈ ks, told (alone closing picked j) (s.close closing k).world =
      told (alone closing picked j) s.world := by
    intro j hj
    rw [hclose, (h.aloof j (hin j hj)).told_with]
    exact h.apart j (hin j hj) k List.mem_cons_self (hne j hj) s.world
  refine ⟨?_, htold⟩
  exact {
    nodup := hnodup
    live := fun j hj => by
      rw [hclose, List.getElem?_set_ne (Ne.symm (hne j hj))]
      exact h.live j (hin j hj)
    counted := fun j hj => h.counted j (hin j hj)
    aloof := fun j hj => h.aloof j (hin j hj)
    apart := fun i hi j hj => h.apart i (hin i hi) j (hin j hj)
    closes := fun j hj => by
      rw [htold j hj]
      exact h.closes j (hin j hj)
    silent := by
      rw [hclose]
      exact h.silent.endRead _ }

open List in
/-- What a run does, in numbers. Every import comes out as it would have at the start, all alone. -/
theorem closeAll (h : s.Chosen closing picked ks) :
    (∀ j, (s.closeAll closing ks).imports[j]? =
      if j ∈ ks then some ((told (alone closing picked j) s.world).1.map (⟨·, none⟩))
      else s.imports[j]?) ∧
    (s.closeAll closing ks).world.caches =
      s.world.caches.endAll (ks.map fun k => (picked k).cache?) ∧
    (s.closeAll closing ks).world.woken.Perm
      (s.world.caches.dueAll (ks.map fun k => (picked k).cache?) ++
        (ks.flatMap (fun k => (told (alone closing picked k) s.world).2) ++ s.world.woken)) := by
  induction ks generalizing s with
  | nil => exact ⟨fun j => by simp [Scene.closeAll], rfl, .rfl⟩
  | cons k ks ih =>
    obtain ⟨hnotin, -⟩ := List.nodup_cons.mp h.nodup
    obtain ⟨hrest, htold⟩ := h.close
    obtain ⟨himports, hcaches, hwoken⟩ := ih hrest
    obtain ⟨history, hclose, hperm⟩ := h.close_eq
    have hlater :
        ks.flatMap (fun j => (told (alone closing picked j) (s.close closing k).world).2) =
          ks.flatMap (fun j => (told (alone closing picked j) s.world).2) := by
      apply congrArg List.flatten
      apply List.map_congr_left
      intro j hj
      rw [htold j hj]
    refine ⟨fun j => ?_, ?_, ?_⟩
    · change ((s.close closing k).closeAll closing ks).imports[j]? = _
      rw [himports]
      by_cases hj : j ∈ ks
      · rw [if_pos hj, if_pos (List.mem_cons_of_mem _ hj), htold j hj]
      · rw [if_neg hj, hclose]
        by_cases hjk : j = k
        · subst hjk
          have hlt := (List.getElem?_eq_some_iff.mp (h.live j List.mem_cons_self)).1
          simp [hlt]
        · rw [if_neg (by simp [hj, hjk]), List.getElem?_set_ne (Ne.symm hjk)]
    · change ((s.close closing k).closeAll closing ks).world.caches = _
      rw [hcaches, hclose]
      rfl
    · change ((s.close closing k).closeAll closing ks).world.woken.Perm _
      have hcaches' : (s.close closing k).world.caches =
          s.world.caches.endRead (picked k).cache? := by rw [hclose]
      have hwoken' : (s.close closing k).world.woken = wokenIn history := by rw [hclose]; rfl
      rw [hlater, hcaches', hwoken'] at hwoken
      let due := s.world.caches.dueAt (picked k).cache?
      let rest := (s.world.caches.endRead (picked k).cache?).dueAll
        (ks.map fun k => (picked k).cache?)
      let now := (told (alone closing picked k) s.world).2
      let later := ks.flatMap fun j => (told (alone closing picked j) s.world).2
      calc ((s.close closing k).closeAll closing ks).world.woken
        _ ~ rest ++ (later ++ wokenIn history) := hwoken
        _ ~ rest ++ (later ++ (due ++ (now ++ s.world.woken))) :=
          (hperm.append_left later).append_left rest
        _ ~ rest ++ (due ++ (later ++ (now ++ s.world.woken))) :=
          (perm_append_comm_assoc ..).append_left rest
        _ ~ due ++ (rest ++ (later ++ (now ++ s.world.woken))) := perm_append_comm_assoc ..
        _ ~ due ++ (rest ++ (now ++ (later ++ s.world.woken))) :=
          ((perm_append_comm_assoc ..).append_left rest).append_left due
        _ = due ++ rest ++ ((now ++ later) ++ s.world.woken) := by simp only [append_assoc]

theorem leasesOn_close (h : s.Chosen closing picked (k :: ks)) (i : Nat) :
    (s.close closing k).leasesOn i + (if (picked k).cache? = some i then 1 else 0) =
      s.leasesOn i := by
  have hk := h.live k List.mem_cons_self
  obtain ⟨history, hclose, -⟩ := h.close_eq
  have hgone : ((told (alone closing picked k) s.world).1.map
      (TrackedImport.mk (σ := H.Signal) · none)).cache? = none := by
    cases (told (alone closing picked k) s.world).1 <;> rfl
  have hget : (s.imports.map Fate.cache?)[k]? = some (picked k).cache? := by
    rw [List.getElem?_map, hk]
    rfl
  obtain ⟨hlt, hget⟩ := List.getElem?_eq_some_iff.mp hget
  rw [leasesOn, leasesOn, hclose, List.map_set, hgone, List.count_set hlt, hget]
  by_cases hi : (picked k).cache? = some i
  · have hpos : 0 < (s.imports.map Fate.cache?).count (some i) :=
      List.count_pos_iff.mpr (hi ▸ hget ▸ List.getElem_mem hlt)
    simp [hi]
    omega
  · simp [hi]

theorem count_le_leasesOn (h : s.Chosen closing picked ks) (i : Nat) :
    (ks.map fun k => (picked k).cache?).count (some i) ≤ s.leasesOn i := by
  induction ks generalizing s with
  | nil => exact Nat.zero_le _
  | cons k ks ih =>
    have hrest := ih h.close.1
    have hk := h.leasesOn_close i
    rw [List.map_cons, List.count_cons]
    simp only [beq_iff_eq]
    omega

/-- One operation of a run lowers the counter that its import is on, and no other. -/
theorem counts_closeAll {before after : List Nat}
    (h : s.Chosen closing picked (before ++ k :: after)) :
    let v := (s.closeAll closing before).world.caches
    let w := (s.closeAll closing (before ++ [k])).world.caches
    (∀ i, (picked k).cache? ≠ some i → w.counts i = v.counts i) ∧
    ∀ i n, (picked k).cache? = some i → s.world.caches.counts i = some n → s.leasesOn i ≤ n →
      ∃ m, v.counts i = some (m + 1) ∧ w.counts i = some m := by
  intro v w
  have hupTo : s.Chosen closing picked (before ++ [k]) := by
    apply h.subset (h.nodup.sublist _) _
    · simp
    · simp
  have hbefore : s.Chosen closing picked before :=
    hupTo.subset (List.nodup_append.mp hupTo.nodup).1 (List.subset_append_left ..)
  have hv : v = s.world.caches.endAll (before.map fun k => (picked k).cache?) :=
    hbefore.closeAll.2.1
  have hw : w = s.world.caches.endAll ((before ++ [k]).map fun k => (picked k).cache?) :=
    hupTo.closeAll.2.1
  refine ⟨fun i hi => ?_, fun i n hi hn hle => ?_⟩
  · rw [hv, hw, Bank.counts_endAll, Bank.counts_endAll]
    simp [List.count_append, hi]
  · have hcount := hupTo.count_le_leasesOn i
    rw [List.map_append, List.count_append] at hcount
    simp only [List.map_cons, List.map_nil, hi, List.count_singleton_self] at hcount
    refine ⟨n - (before.map fun k => (picked k).cache?).count (some i) - 1, ?_, ?_⟩
    · rw [hv, Bank.counts_endAll, hn]
      simp only [Option.map_some, Option.some.injEq]
      omega
    · rw [hw, Bank.counts_endAll, hn, List.map_append, List.count_append]
      simp only [List.map_cons, List.map_nil, hi, List.count_singleton_self, Option.map_some,
        Option.some.injEq]
      omega

end Chosen

/-- The signals that are empty, and were not, once the picked imports are done with. -/
def emptied (s : Scene H φ α) (picked : Nat → TrackedImport H.Signal φ) (ks : List Nat) :
    List Nat :=
  (List.range s.world.caches.length).filter
    (s.world.caches.emptiedBy (ks.map fun k => (picked k).cache?))

/-- Settlement order does not matter. The signals, with their waiting lists, were made what they are
by `moves`, which also tell who is parked on them. In every order in which the picked imports are
done with, the imports, their leases and their outputs come out the same, so do the signals, and the
same are woken: whoever the futures wake, and whoever is parked on a signal that is emptied, each
once. The operations lower the counters by one each, provided that these cover the live leases. -/
theorem closeAll_perm [Foreign H] {s : Scene H φ α} {closing : Nat → Closing H φ α}
    {picked : Nat → TrackedImport H.Signal φ} {ks : List Nat} (h : s.Chosen closing picked ks)
    (moves : Nat → List (Move H.Waker))
    (hreached : ∀ i signal, s.world.caches[i]? = some signal →
      signal = (Lot.run {} [] (moves i)).1.signal) :
    ∃ parked : Nat → List Nat,
      (∀ i, (parked i).Nodup ∧
        ∀ key, key ∈ parked i ↔ (Moved.parked key (Lot.run {} [] (moves i)).2).isSome) ∧
      ∀ order : List Nat, order.Perm ks →
        let after := s.closeAll closing order
        after.imports = (s.closeAll closing ks).imports ∧
        after.world.caches = (s.closeAll closing ks).world.caches ∧
        (∀ k, after.imports[k]? =
          if k ∈ ks then some ((alone closing picked k s.world).1.map (⟨·, none⟩))
          else s.imports[k]?) ∧
        after.world.caches = s.world.caches.endAll (ks.map fun k => (picked k).cache?) ∧
        after.world.woken.Perm
          ((s.emptied picked ks).flatMap (fun i =>
              (parked i).filterMap (Moved.parked · (Lot.run {} [] (moves i)).2)) ++
            (ks.flatMap (fun k => (told (alone closing picked k) s.world).2) ++ s.world.woken)) ∧
        ∀ before k later, order = before ++ k :: later →
          let v := (s.closeAll closing before).world.caches
          let w := (s.closeAll closing (before ++ [k])).world.caches
          (∀ i, (picked k).cache? ≠ some i → w.counts i = v.counts i) ∧
          ∀ i n, (picked k).cache? = some i → s.world.caches.counts i = some n →
            s.leasesOn i ≤ n → ∃ m, v.counts i = some (m + 1) ∧ w.counts i = some m := by
  choose parked hparks using fun i => Lot.Parks.empty.run (moves i)
  refine ⟨parked, fun i => ⟨(hparks i).nodup, (hparks i).parked⟩, fun order horder => ?_⟩
  obtain ⟨himports, hcaches, hwoken⟩ := (h.perm horder).closeAll
  obtain ⟨himports', hcaches', -⟩ := h.closeAll
  have hpermuted := horder.map fun k => (picked k).cache?
  have hends : s.world.caches.endAll (order.map fun k => (picked k).cache?) =
      s.world.caches.endAll (ks.map fun k => (picked k).cache?) := Bank.endAll_perm hpermuted
  have himport (k : Nat) : (s.closeAll closing order).imports[k]? =
      if k ∈ ks then some ((alone closing picked k s.world).1.map (⟨·, none⟩))
      else s.imports[k]? := by
    rw [himports]
    simp only [horder.mem_iff]
    rfl
  have hdue : (s.world.caches.dueAll (order.map fun k => (picked k).cache?)).Perm
      ((s.emptied picked ks).flatMap fun i =>
        (parked i).filterMap (Moved.parked · (Lot.run {} [] (moves i)).2)) := by
    refine (Bank.dueAll_perm _ _).trans (.of_eq ?_)
    rw [Bank.emptiedBy_perm hpermuted]
    apply Bank.wakersOf_eq_flatMap
    intro i signal hi
    rw [hreached i signal hi]
    exact (hparks i).wakers
  refine ⟨?_, ?_, himport, hcaches.trans hends, ?_, ?_⟩
  · apply List.ext_getElem?
    intro k
    rw [himport, himports']
    rfl
  · rw [hcaches, hcaches', hends]
  · refine hwoken.trans (hdue.append ?_)
    exact (horder.flatMap_right _).append_right _
  · rintro before k later rfl
    exact (h.perm horder).counts_closeAll

end Scene

/-! ### Imports of deferred values -/

/-- A host whose futures are deferred values, by number, and whose wakers call nothing. -/
def Host.deferring : Host where
  Signal := Empty
  Waker := String
  Note := Empty
  Payload := Unit
  State := Nat → Deferred String String

instance : Foreign Host.deferring where
  beginRead signal := nomatch signal
  endRead signal := nomatch signal
  reactions := { watched := fun _ => none, calls := fun _ _ => [] }

def World.setDeferred (w : World Host.deferring) (k : Nat) (d : Deferred String String) :
    World Host.deferring :=
  { w with state := fun j => if j = k then d else w.state j }

theorem World.wake_deferring (w : World Host.deferring) (waker : Option Host.deferring.Waker) :
    w.settle (Cascade.wakeAll waker.toList) =
      { w with
        history := waker.toList.map (fun waker => .cache (.woken waker none)) ++ w.history } := by
  have hcalls (waker : Host.deferring.Waker) (bank : Bank Host.deferring.Waker) :
      Foreign.reactions.calls waker bank = [] := rfl
  have hwatched (waker : Host.deferring.Waker) : Foreign.reactions.watched waker = none := rfl
  cases waker with
  | none => simp [World.settle, Cascade.wakeAll, Cascade.settle]
  | some waker =>
    simp [World.settle, Cascade.wakeAll, Cascade.settle, Cascade.callAll, hcalls, hwatched]

/-- Gives the value with this number, which wakes who waits for it. -/
def World.give (k : Nat) (value : String) (w : World Host.deferring) : World Host.deferring :=
  (w.setDeferred k ((w.state k).resolve value).2).settle
    (Cascade.wakeAll ((w.state k).resolve value).1.toList)

/-- Takes the value with this number. -/
def pollDeferred (k : Nat) : Run Host.deferring (Outcome Host.deferring String × Nat) :=
  modifyGet fun w =>
    ((.ok ((w.state k).poll "latest").1, k), w.setDeferred k ((w.state k).poll "latest").2)

def Closing.resolving (k : Nat) (value : String) : Closing Host.deferring Nat String :=
  .settle { meanwhile := World.give k value, poll := pollDeferred }

theorem Closing.alone_resolving (k : Nat) (value : String) (w : World Host.deferring) :
    (resolving k value).alone k w = (.polled (.ok (.ready value)) k,
      { w.setDeferred k {} with
        history := (w.state k).waker.toList.map (fun waker => .cache (.woken waker none)) ++
          w.history }) := by
  let given : World Host.deferring :=
    { w.setDeferred k { value := some value } with
      history := (w.state k).waker.toList.map (fun waker => .cache (.woken waker none)) ++
        w.history }
  have hgive : w.give k value = given :=
    World.wake_deferring (w.setDeferred k { value := some value }) (w.state k).waker
  have hgiven : given.state k = { value := some value } := if_pos rfl
  have htaken : (fun j => if j = k then {} else given.state j) =
      fun j => if j = k then {} else w.state j := by
    funext j
    by_cases hj : j = k <;> simp [given, World.setDeferred, hj]
  have hpoll : (pollDeferred k).run given = ((.ok (.ready value), k), given.setDeferred k {}) := by
    change ((Except.ok ((given.state k).poll "latest").1, k), _) = _
    rw [hgiven]
    rfl
  simp only [resolving, alone, Visit.alone, hgive, hpoll]
  simp only [World.setDeferred, htaken]
  rfl

theorem Closing.told_resolving (k : Nat) (value : String) (w : World Host.deferring) :
    told ((resolving k value).alone k) w =
      (.polled (.ok (.ready value)) k, (w.state k).waker.toList) := by
  have hlog (waker : Option String) :
      wokenIn (waker.toList.map (fun waker => .cache (.woken waker none)) ++ [] :
        List (Event Host.deferring)) = waker.toList := by
    cases waker <;> rfl
  rw [told, alone_resolving, alone_resolving]
  exact congrArg (_, ·) (hlog (w.state k).waker)

def Closing.forgetting : Closing Host.deferring Nat String :=
  .drop fun k => modify fun w => w.setDeferred k {}

/-- The computation has to do with deferred value `k` only. -/
def Owns (k : Nat) (body : World Host.deferring → β × World Host.deferring) : Prop :=
  ∃ (answer : Deferred String String → β) (next : Deferred String String → Deferred String String)
    (log : Deferred String String → List (Event Host.deferring)),
    ∀ w, body w = (answer (w.state k),
      { w.setDeferred k (next (w.state k)) with history := log (w.state k) ++ w.history })

namespace Owns

variable {j k : Nat} {body : World Host.deferring → β × World Host.deferring}
  {other : World Host.deferring → υ × World Host.deferring}

theorem aloof (h : Owns k body) : Aloof body := by
  obtain ⟨answer, next, log, hbody⟩ := h
  intro w caches history
  refine ⟨log (w.state k), ?_, ?_⟩
  · rw [hbody, hbody]
    rfl
  · rw [told, hbody { w with history := [] }]
    simp [World.woken]

theorem apart (h : Owns j body) (hother : Owns k other) (hne : j ≠ k)
    (w : World Host.deferring) : told body (other w).2 = told body w := by
  obtain ⟨answer, next, log, hbody⟩ := h
  obtain ⟨_, next', log', hother⟩ := hother
  have hstate : (other w).2.state j = w.state j := by
    rw [hother]
    exact if_neg hne
  simp only [told, hbody, hstate, World.woken]

theorem resolving (k : Nat) (value : String) : Owns k ((Closing.resolving k value).alone k) :=
  ⟨fun _ => .polled (.ok (.ready value)) k, fun _ => {},
    fun d => d.waker.toList.map fun waker => .cache (.woken waker none),
    Closing.alone_resolving k value⟩

theorem forgetting (k : Nat) : Owns k (Closing.forgetting.alone k) :=
  ⟨fun _ => .dropped (.ok ()), fun _ => {}, fun _ => [], fun _ => rfl⟩

end Owns

namespace Scene

/-- Three imports, two of them on a signal that nothing else keeps, the third on one that a direct
read keeps, too. On each signal somebody is parked, and a task has polled the first import. -/
def deferring : Scene Host.deferring Nat String where
  imports := [0, 1, 2].map fun k => .live ⟨k, some ⟨.cache (k / 2)⟩⟩
  world :=
    { caches := [⟨2, 2, [⟨0, "all"⟩], 1⟩, ⟨2, 2, [⟨0, "page"⟩], 1⟩]
      state := fun k => if k = 0 then { waker := some "task" } else {} }

theorem closeAll_perm_deferring :
    let moves (i : Nat) : List (Move Host.deferring.Waker) :=
      [.beginRead, .beginRead, .poll 7 (if i = 0 then "all" else "page")]
    let closing (k : Nat) := if k = 1 then Closing.forgetting else .resolving k "value"
    deferring.Chosen closing (fun k => ⟨k, some ⟨.cache (k / 2)⟩⟩) [0, 1, 2] ∧
    (∀ i signal, deferring.world.caches[i]? = some signal →
      signal = (Lot.run {} [] (moves i)).1.signal) ∧
    (deferring.closeAll closing [2, 0, 1]).world.caches =
      [⟨0, 2, [], 1⟩, ⟨1, 2, [⟨0, "page"⟩], 1⟩] ∧
    (deferring.closeAll closing [2, 0, 1]).world.woken.Perm ["all", "task"] := by
  intro moves closing
  let picked (k : Nat) : TrackedImport Host.deferring.Signal Nat := ⟨k, some ⟨.cache (k / 2)⟩⟩
  have howns (k : Nat) : Owns k (alone closing picked k) := by
    by_cases hk : k = 1
    · simp only [alone, closing, hk, ↓reduceIte]
      exact Owns.forgetting 1
    · simp only [alone, closing, hk, ↓reduceIte]
      exact Owns.resolving k "value"
  have hcloses (k : Nat) : (told (alone closing picked k) deferring.world).1.Closed := by
    by_cases hk : k = 1
    · subst hk
      trivial
    · simp only [alone, closing, hk, ↓reduceIte]
      rw [Closing.told_resolving]
      trivial
  have hchosen : deferring.Chosen closing picked [0, 1, 2] :=
    { nodup := by decide
      live := fun k hk => by
        obtain rfl | rfl | rfl : k = 0 ∨ k = 1 ∨ k = 2 := by simpa using hk
        all_goals rfl
      counted := fun k _ lease hlease => by
        cases hlease
        rfl
      aloof := fun k _ => (howns k).aloof
      apart := fun j _ k _ hne => (howns j).apart (howns k) hne
      closes := fun k _ => hcloses k
      silent := fun _ _ _ _ _ _ => rfl }
  have hreached (i : Nat) (signal : CacheSignal String)
      (hsignal : deferring.world.caches[i]? = some signal) :
      signal = (Lot.run {} [] (moves i)).1.signal := by
    match i with
    | 0 | 1 =>
      cases hsignal
      rfl
    | i + 2 => simp [deferring] at hsignal
  obtain ⟨parked, hparked, horder⟩ := closeAll_perm hchosen moves hreached
  obtain ⟨-, -, -, hcaches, hwoken, -⟩ := horder [2, 0, 1] (by decide)
  have hseven (key : Nat) :
      (Moved.parked key (Lot.run {} [] (moves 0)).2).isSome = true ↔ key ∈ [7] := by
    change (if 7 = key then some "all" else none).isSome = true ↔ _
    by_cases hkey : 7 = key
    · simp [← hkey]
    · simp [hkey, Ne.symm hkey]
  have honly : parked 0 = [7] := by
    apply List.perm_singleton.mp
    apply (List.perm_ext_iff_of_nodup (hparked 0).1 (by decide)).mpr
    intro key
    exact ((hparked 0).2 key).trans (hseven key)
  have hfutures (k : Nat) (hk : k ≠ 1) :
      (told (alone closing picked k) deferring.world).2 =
        (deferring.world.state k).waker.toList := by
    simp only [alone, closing, hk, ↓reduceIte]
    rw [Closing.told_resolving]
  have hemptied : deferring.emptied picked [0, 1, 2] = [0] := by decide
  refine ⟨hchosen, hreached, hcaches, ?_⟩
  simp only [hemptied, List.flatMap_cons, List.flatMap_nil, honly] at hwoken
  rw [hfutures 0 (by decide), hfutures 2 (by decide)] at hwoken
  exact hwoken

end Scene

end ReadBarrier
