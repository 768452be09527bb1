import ReadBarrier.Proofs.Calls

/-!
The stack of a thread holds the entries of its live guards.
-/

namespace ReadBarrier

open Act

variable {H : Host} {α β φ : Type}

/-! ### The roster -/

namespace Roster

variable {σ : Type}

def Ordered (roster : Roster σ) : Prop := (entries roster).Pairwise fun a b => a.guard < b.guard

@[simp] theorem entries_append (roster more : Roster σ) :
    entries (roster ++ more) = entries roster ++ entries more := List.map_append

@[simp] theorem live_append (roster more : Roster σ) :
    live (roster ++ more) = live roster ++ live more := by
  simp [live]

@[simp] theorem entries_drop (roster : Roster σ) (key : Nat) :
    entries (drop roster key) = entries roster := by
  induction roster generalizing key with
  | nil => cases key <;> rfl
  | cons slot roster ih =>
    cases key with
    | zero => rfl
    | succ key => exact congrArg (slot.entry :: ·) (ih key)

theorem live_sublist (roster : Roster σ) : (live roster).Sublist (entries roster) :=
  List.filter_sublist.map _

theorem Ordered.live {roster : Roster σ} (h : Ordered roster) :
    (Roster.live roster).Pairwise fun a b => a.guard < b.guard :=
  List.Pairwise.sublist (live_sublist roster) h

/-- Dropping a guard takes its entry out of the live ones, and no other. -/
theorem live_drop {roster : Roster σ} {key : Nat} {slot : Slot σ} (h : Ordered roster)
    (hslot : roster[key]? = some slot) :
    live (drop roster key) = (live roster).filter (·.guard != slot.entry.guard) := by
  induction roster generalizing key with
  | nil => simp at hslot
  | cons first roster ih =>
    obtain ⟨hfirst, hrest⟩ := List.pairwise_cons.mp h
    have hcons : live (first :: roster) = live [first] ++ live roster := live_append [first] roster
    cases key with
    | zero =>
      obtain rfl : first = slot := by simpa using hslot
      have hdropped : (live [first]).filter (·.guard != first.entry.guard) = [] := by
        refine List.filter_eq_nil_iff.mpr fun e he => ?_
        obtain rfl : e = first.entry := by
          simpa [entries] using (live_sublist [first]).subset he
        simp
      have hkept : (live roster).filter (·.guard != first.entry.guard) = live roster := by
        refine List.filter_eq_self.mpr fun e he => ?_
        have : first.entry.guard < e.guard := hfirst e ((live_sublist roster).subset he)
        simp only [bne_iff_ne, ne_eq]
        omega
      rw [hcons, List.filter_append, hdropped, hkept]
      rfl
    | succ key =>
      have hslot : roster[key]? = some slot := by simpa using hslot
      have hkept : (live [first]).filter (·.guard != slot.entry.guard) = live [first] := by
        refine List.filter_eq_self.mpr fun e he => ?_
        have : first.entry.guard < slot.entry.guard :=
          hfirst slot.entry (List.mem_map_of_mem (List.mem_of_getElem? hslot))
        obtain rfl : e = first.entry := by
          simpa [entries] using (live_sublist [first]).subset he
        simp only [bne_iff_ne, ne_eq]
        omega
      have hdrop : drop (first :: roster) (key + 1) = [first] ++ drop roster key := rfl
      rw [hdrop, hcons, live_append, List.filter_append, hkept, ih hrest hslot]

end Roster

/-- Among entries of different numbers, erasing the first of a number erases all of that number. -/
theorem eraseP_guard {σ : Type} {entries : List (Entry σ)} (number : Nat)
    (h : entries.Pairwise fun a b => a.guard ≠ b.guard) :
    entries.eraseP (·.guard == number) = entries.filter (·.guard != number) := by
  induction entries with
  | nil => rfl
  | cons first entries ih =>
    obtain ⟨hfirst, hrest⟩ := List.pairwise_cons.mp h
    by_cases heq : first.guard = number
    · have hkept : entries.filter (·.guard != number) = entries := by
        refine List.filter_eq_self.mpr fun e he => ?_
        have := hfirst e he
        simp only [bne_iff_ne, ne_eq]
        omega
      simp [heq, hkept]
    · simp [heq, ih hrest]

/-! ### What is true of a thread -/

namespace Moment

variable {σ : Type}

/-- The stack is that of the live guards, above some `base`, and its innermost unit is seen. -/
structure Faithful (base : List (Entry σ)) (m : Moment σ) : Prop where
  stack : m.stack = (Roster.live m.roster).reverse ++ base
  ordered : Roster.Ordered m.roster
  seen : m.seen = m.stack.head?.map (·.unit)

end Moment

namespace World

/-- The stack of the thread is that of the guards in its roster which are live, above some
`base`. -/
structure Stacked (base : List (Entry H.Signal)) (w : World H.desked) : Prop where
  stack : w.units.entries = (Roster.live w.desk.roster).reverse ++ base
  ordered : Roster.Ordered w.desk.roster
  above : ∀ e ∈ base, ∀ e' ∈ Roster.entries w.desk.roster, e.guard < e'.guard
  below : ∀ e ∈ base, e.guard < w.nextGuard
  fresh : ∀ e ∈ Roster.entries w.desk.roster, e.guard < w.nextGuard
  moments : ∀ m ∈ w.desk.moments, m.Faithful base

/-- Guards were entered, of numbers not used before, and none is forgotten. -/
structure Grown (w v : World H.desked) : Prop where
  borrows : v.units.borrows = w.units.borrows
  roster : ∃ new, Roster.entries v.desk.roster = Roster.entries w.desk.roster ++ new ∧
    ∀ e ∈ new, w.nextGuard ≤ e.guard
  nextGuard : w.nextGuard ≤ v.nextGuard

variable {base : List (Entry H.Signal)} {u v w : World H.desked}

theorem Grown.refl (w : World H.desked) : w.Grown w :=
  ⟨rfl, ⟨[], by simp⟩, Nat.le_refl _⟩

theorem Grown.trans (h : w.Grown v) (h' : v.Grown u) : w.Grown u := by
  obtain ⟨new, hnew, hle⟩ := h.roster
  obtain ⟨new', hnew', hle'⟩ := h'.roster
  refine ⟨h'.borrows.trans h.borrows, ⟨new ++ new', ?_, ?_⟩, Nat.le_trans h.nextGuard h'.nextGuard⟩
  · rw [hnew', hnew, List.append_assoc]
  · intro e he
    rcases List.mem_append.mp he with he | he
    · exact hle e he
    · exact Nat.le_trans h.nextGuard (hle' e he)

theorem Stacked.moment (h : Stacked base w) : w.moment.Faithful base :=
  ⟨h.stack, h.ordered, rfl⟩

theorem Stacked.marked (h : Stacked base w) : Stacked base w.marked :=
  { h with
    moments := fun m hm => by
      rcases List.mem_append.mp hm with hm | hm
      · exact h.moments m hm
      · obtain rfl : m = w.moment := by simpa using hm
        exact h.moment }

theorem Stacked.looked (h : Stacked base w) (looks : Nat) : Stacked base (w.looked looks) :=
  { h with
    moments := fun m hm => by
      rcases List.mem_append.mp hm with hm | hm
      · exact h.moments m hm
      · obtain rfl : m = w.moment := List.eq_of_mem_replicate hm
        exact h.moment }

theorem Stacked.aside (h : Stacked base w) (hv : w.Aside v) : Stacked base v where
  stack := by rw [hv.units, hv.desk, h.stack]
  ordered := hv.desk ▸ h.ordered
  above := hv.desk ▸ h.above
  below e he := Nat.lt_of_lt_of_le (h.below e he) hv.nextGuard
  fresh e he := Nat.lt_of_lt_of_le (h.fresh e (hv.desk ▸ he)) hv.nextGuard
  moments := hv.desk ▸ h.moments

theorem Stacked.entered (h : Stacked base w) (unit : WorkUnit H.Signal) :
    Stacked base (w.entered unit) where
  stack := by
    change ⟨w.nextGuard, unit⟩ :: w.units.entries =
      (Roster.live (w.desk.roster ++ [⟨⟨w.nextGuard, unit⟩, false⟩])).reverse ++ base
    rw [Roster.live_append, List.reverse_append, h.stack]
    rfl
  ordered := by
    change (Roster.entries (w.desk.roster ++ [_])).Pairwise _
    rw [Roster.entries_append]
    refine List.pairwise_append.mpr ⟨h.ordered, List.pairwise_singleton .., ?_⟩
    intro e he e' he'
    obtain rfl : e' = ⟨w.nextGuard, unit⟩ := by simpa [Roster.entries] using he'
    exact h.fresh e he
  above e he e' he' := by
    change e' ∈ Roster.entries (w.desk.roster ++ [_]) at he'
    rw [Roster.entries_append] at he'
    rcases List.mem_append.mp he' with he' | he'
    · exact h.above e he e' he'
    · obtain rfl : e' = ⟨w.nextGuard, unit⟩ := by simpa [Roster.entries] using he'
      exact h.below e he
  below e he := Nat.lt_succ_of_lt (h.below e he)
  fresh e he := by
    change e ∈ Roster.entries (w.desk.roster ++ [_]) at he
    rw [Roster.entries_append] at he
    rcases List.mem_append.mp he with he | he
    · exact Nat.lt_succ_of_lt (h.fresh e he)
    · obtain rfl : e = ⟨w.nextGuard, unit⟩ := by simpa [Roster.entries] using he
      exact Nat.lt_succ_self _
  moments := h.moments

theorem Stacked.eraseP {key : Nat} {slot : Slot H.Signal} (h : Stacked base w)
    (hslot : w.desk.roster[key]? = some slot) :
    w.units.entries.eraseP (·.guard == slot.entry.guard) =
      (Roster.live (Roster.drop w.desk.roster key)).reverse ++ base := by
  have hbase : ∀ e ∈ base, ¬ (e.guard == slot.entry.guard) := by
    intro e he
    have := h.above e he slot.entry (List.mem_map_of_mem (List.mem_of_getElem? hslot))
    simp only [beq_iff_eq]
    omega
  have hdistinct : (Roster.live w.desk.roster).reverse.Pairwise fun a b => a.guard ≠ b.guard :=
    List.pairwise_reverse.mpr (h.ordered.live.imp fun hlt => Nat.ne_of_gt hlt)
  have hsplit : ((Roster.live w.desk.roster).reverse ++ base).eraseP
      (·.guard == slot.entry.guard) =
        (Roster.live w.desk.roster).reverse.eraseP (·.guard == slot.entry.guard) ++ base := by
    rw [List.eraseP_append]
    split
    · rfl
    · rename_i hnone
      rw [List.eraseP_of_forall_not hbase, List.eraseP_of_forall_not]
      simpa using hnone
  rw [h.stack, hsplit, eraseP_guard _ hdistinct, List.filter_reverse,
    Roster.live_drop h.ordered hslot]

theorem Stacked.dropped {key : Nat} {slot : Slot H.Signal} (h : Stacked base w)
    (hslot : w.desk.roster[key]? = some slot) :
    Stacked base (w.dropped key slot.entry.guard) := by
  have hentries : Roster.entries (w.dropped key slot.entry.guard).desk.roster =
      Roster.entries w.desk.roster := Roster.entries_drop ..
  exact {
    stack := h.eraseP hslot
    ordered := by
      rw [Roster.Ordered, hentries]
      exact h.ordered
    above := hentries ▸ h.above
    below := h.below
    fresh := hentries ▸ h.fresh
    moments := h.moments }

end World

namespace World

variable {base : List (Entry H.Signal)} {u v w : World H.desked}

/-- A thread came from one world to another, and its stack is still that of its live guards. -/
structure Keeps (base : List (Entry H.Signal)) (w v : World H.desked) : Prop where
  idle : v.units.borrows = 0
  stacked : Stacked base v
  grown : w.Grown v

theorem Keeps.trans (h : Keeps base w v) (h' : Keeps base v u) : Keeps base w u :=
  ⟨h'.idle, h'.stacked, h.grown.trans h'.grown⟩

theorem Keeps.entered (hidle : w.units.borrows = 0) (h : Stacked base w)
    (unit : WorkUnit H.Signal) : Keeps base w (w.entered unit) where
  idle := hidle
  stacked := h.entered unit
  grown := {
    borrows := rfl
    roster := ⟨[⟨w.nextGuard, unit⟩], Roster.entries_append .., by simp⟩
    nextGuard := Nat.le_succ _ }

theorem Keeps.marked (h : Keeps base w v) : Keeps base w v.marked :=
  ⟨h.idle, h.stacked.marked, ⟨h.grown.borrows, h.grown.roster, h.grown.nextGuard⟩⟩

theorem Keeps.looked (hidle : w.units.borrows = 0) (h : Stacked base w) (looks : Nat) :
    Keeps base w (w.looked looks) :=
  ⟨hidle, h.looked looks, ⟨rfl, ⟨[], by simp [World.looked, World.jot, World.desk]⟩, Nat.le_refl _⟩⟩

theorem Keeps.dropped {key : Nat} {slot : Slot H.Signal} (h : Keeps base w v)
    (hslot : v.desk.roster[key]? = some slot) :
    Keeps base w (v.dropped key slot.entry.guard) where
  idle := h.idle
  stacked := h.stacked.dropped hslot
  grown := {
    borrows := h.grown.borrows
    roster := by
      obtain ⟨new, hnew, hle⟩ := h.grown.roster
      exact ⟨new, (Roster.entries_drop ..).trans hnew, hle⟩
    nextGuard := h.grown.nextGuard }

theorem Keeps.aside (hidle : w.units.borrows = 0) (h : Stacked base w) (hv : w.Aside v) :
    Keeps base w v where
  idle := hv.units ▸ hidle
  stacked := h.aside hv
  grown := {
    borrows := by rw [hv.units]
    roster := ⟨[], by simp [hv.desk]⟩
    nextGuard := hv.nextGuard }

theorem Keeps.tracked (h : Keeps base w v)
    (outcome : Except (Panic H.desked) (Option (SignalRef H.Signal))) :
    Keeps base w (v.tracked outcome) := by
  cases outcome with
  | ok signal =>
    exact ⟨h.idle, { h.stacked with },
      ⟨h.grown.borrows, h.grown.roster, h.grown.nextGuard⟩⟩
  | error p => exact h

/-- The next guard keeps its place in the roster. -/
theorem Grown.slot {unit : WorkUnit H.Signal} (h : (w.entered unit).Grown v) :
    ∃ slot, v.desk.roster[w.desk.roster.length]? = some slot ∧ slot.entry = ⟨w.nextGuard, unit⟩ := by
  obtain ⟨new, hnew, -⟩ := h.roster
  have hget : (Roster.entries v.desk.roster)[w.desk.roster.length]? = some ⟨w.nextGuard, unit⟩ := by
    rw [hnew]
    change (Roster.entries (w.desk.roster ++ [_]) ++ new)[_]? = _
    rw [Roster.entries_append, List.append_assoc, List.getElem?_append_right (by simp [Roster.entries])]
    simp [Roster.entries]
  rw [Roster.entries, List.getElem?_map] at hget
  exact Option.map_eq_some_iff.mp hget

/-- When a body in a unit is over, the unit's own guard is dropped. -/
theorem Keeps.ended {unit : WorkUnit H.Signal} (hidle : w.units.borrows = 0) (h : Stacked base w)
    (hbody : Keeps base (w.entered unit) v) :
    Keeps base w (v.dropped w.desk.roster.length w.nextGuard) := by
  obtain ⟨slot, hslot, hentry⟩ := hbody.grown.slot
  have hdropped := ((Keeps.entered hidle h unit).trans hbody).dropped hslot
  rwa [hentry] at hdropped

end World

open World in
/-- Whatever a routine does, the stack of its thread is that of its live guards. -/
theorem Routine.play_keeps {base : List (Entry H.Signal)} (signals : Signals H)
    (routine : Routine H β φ) (w : World H.desked) (hidle : w.units.borrows = 0)
    (h : Stacked base w) : Keeps base w ((routine.play signals).run w).2 := by
  induction routine generalizing w with
  | done outcome rest => exact ⟨hidle, h, .refl w⟩
  | enter unit next ih =>
    have hentered := (Keeps.entered hidle h unit).marked
    rw [run_enter hidle]
    exact hentered.trans (ih _ _ hentered.idle hentered.stacked)
  | leave key next ih =>
    rw [run_leave hidle]
    cases hslot : w.desk.roster[key]? with
    | none =>
      have hsame := (Keeps.mk hidle h (.refl w)).marked
      exact hsame.trans (ih _ _ hsame.idle hsame.stacked)
    | some slot =>
      have hdropped := ((Keeps.mk hidle h (.refl w)).dropped hslot).marked
      exact hdropped.trans (ih _ _ hdropped.idle hdropped.stacked)
  | look callback next ih =>
    have hlooked := (Keeps.looked hidle h
      (((callback w.units.current?).result w.units.current?).2 + 1)).marked
    rw [run_look]
    exact hlooked.trans (ih _ _ hlooked.idle hlooked.stacked)
  | run unit body next ihbody ih =>
    -- The body is a routine too, which starts where the unit was entered and may keep guards.
    have hentered := Keeps.entered hidle h unit
    have hbody := ihbody _ hentered.idle hentered.stacked
    have hended := (hbody.ended hidle h).marked
    rw [run_run hidle rfl hbody.idle]
    exact hended.trans (ih _ _ hended.idle hended.stacked)
  | poll future body next ihbody ih =>
    have hentered := Keeps.entered hidle h future.unit
    have hbody := ihbody _ hentered.idle hentered.stacked
    have hended := (hbody.ended hidle h).marked
    rw [run_poll hidle rfl hbody.idle]
    exact hended.trans (ih _ _ hended.idle hended.stacked)
  | track next ih =>
    obtain ⟨v, haside, htrack⟩ := run_track signals hidle next
    have htracked := ((Keeps.aside hidle h haside).tracked (signals.track w.signal?)).marked
    rw [htrack]
    exact htracked.trans (ih _ _ htracked.idle htracked.stacked)
  | aside detour next ih =>
    have haside := (Keeps.aside hidle h (detour.aside w)).marked
    rw [run_aside]
    exact haside.trans (ih _ haside.idle haside.stacked)

/-! ### Threads -/

structure Thread (σ : Type) where
  units : UnitStore σ := {}
  desk : Desk σ := {}

/-- Threads that share a world, and with it the numbers of guards. -/
structure Process (H : Host) where
  threads : Nat → Thread H.Signal := fun _ => {}
  world : World H.desked

namespace Process

/-- The world as a thread finds it. -/
def on (p : Process H) (k : Nat) : World H.desked :=
  { p.world with units := (p.threads k).units, state := ((p.threads k).desk, p.world.state.2) }

def turn (signals : Signals H) (p : Process H) (k : Nat) (routine : Routine H β φ) : Process H :=
  let w := ((routine.play signals).run (p.on k)).2
  { threads := fun j => if j = k then ⟨w.units, w.desk⟩ else p.threads j, world := w }

def run (signals : Signals H) (turns : List (Nat × Routine H β φ)) (p : Process H) : Process H :=
  turns.foldl (fun p turn => p.turn signals turn.1 turn.2) p

/-- On each thread the stack is that of the live guards, and no two threads share a number. -/
structure Sound (p : Process H) : Prop where
  idle : ∀ k, (p.on k).units.borrows = 0
  stacked : ∀ k, World.Stacked [] (p.on k)
  apart : ∀ j k, j ≠ k → ∀ e ∈ Roster.entries (p.on j).desk.roster,
    ∀ e' ∈ Roster.entries (p.on k).desk.roster, e.guard ≠ e'.guard

theorem Sound.start (w : World H.desked) : Sound { world := w } where
  idle _ := rfl
  stacked _ := {
    stack := rfl
    ordered := List.Pairwise.nil
    above := by simp
    below := by simp
    fresh := by simp [on, World.desk, Roster.entries]
    moments := by simp [on, World.desk] }
  apart := by simp [on, World.desk, Roster.entries]

theorem Sound.turn {p : Process H} (h : p.Sound) (signals : Signals H) (k : Nat)
    (routine : Routine H β φ) : (p.turn signals k routine).Sound := by
  have hkeeps := routine.play_keeps signals (p.on k) (h.idle k) (h.stacked k)
  have hself : (p.turn signals k routine).on k = ((routine.play signals).run (p.on k)).2 := by
    simp [Process.turn, on, World.desk]
  -- To the other threads nothing happens but that numbers are used up.
  have hother {j : Nat} (hj : j ≠ k) : (p.on j).Aside ((p.turn signals k routine).on j) := by
    refine ⟨?_, ?_, hkeeps.grown.nextGuard⟩
    · simp [Process.turn, on, hj]
    · simp [Process.turn, on, World.desk, hj]
  obtain ⟨new, hnew, hle⟩ := hkeeps.grown.roster
  have hapart {j : Nat} (hj : j ≠ k) : ∀ e ∈ Roster.entries (p.on j).desk.roster,
      ∀ e' ∈ Roster.entries ((routine.play signals).run (p.on k)).2.desk.roster,
        e.guard ≠ e'.guard := by
    intro e he e' he'
    rw [hnew] at he'
    rcases List.mem_append.mp he' with he' | he'
    · exact h.apart j k hj e he e' he'
    · exact Nat.ne_of_lt (Nat.lt_of_lt_of_le ((h.stacked j).fresh e he) (hle e' he'))
  constructor
  · intro j
    by_cases hj : j = k
    · rw [hj, hself]
      exact hkeeps.idle
    · rw [(hother hj).units]
      exact h.idle j
  · intro j
    by_cases hj : j = k
    · rw [hj, hself]
      exact hkeeps.stacked
    · exact (h.stacked j).aside (hother hj)
  · intro i j hij e he e' he'
    by_cases hi : i = k
    · have hj : j ≠ k := fun hj => hij (hi.trans hj.symm)
      rw [hi, hself] at he
      rw [(hother hj).desk] at he'
      exact (hapart hj e' he' e he).symm
    · rw [(hother hi).desk] at he
      by_cases hj : j = k
      · rw [hj, hself] at he'
        exact hapart hi e he e' he'
      · rw [(hother hj).desk] at he'
        exact h.apart i j hij e he e' he'

theorem Sound.run {p : Process H} (h : p.Sound) (signals : Signals H)
    (turns : List (Nat × Routine H β φ)) : (p.run signals turns).Sound := by
  induction turns generalizing p with
  | nil => exact h
  | cons turn turns ih => exact ih (h.turn signals turn.1 turn.2)

end Process

namespace Roster

variable {σ : Type}

theorem innermost_eq_head (roster : Roster σ) :
    innermost? roster = (live roster).reverse.head?.map (·.unit) := by
  rw [innermost?, List.head?_reverse]

end Roster

namespace World

variable {w v : World H.desked}

theorem Stacked.reverse_entries (h : Stacked [] w) :
    w.units.entries.reverse = Roster.live w.desk.roster := by
  rw [h.stack, List.append_nil, List.reverse_reverse]

theorem Stacked.exec_currentUnit (h : Stacked [] w) :
    exec (currentUnit (H := H.desked)) w = (.ok (Roster.innermost? w.desk.roster), w) := by
  have hcurrent : exec (currentUnit (H := H.desked)) w = (.ok w.units.current?, w) :=
    exec_withCurrent_pure id w
  rw [hcurrent, UnitStore.current?, h.stack, List.append_nil, Roster.innermost_eq_head]

theorem Stacked.exec_leave (hidle : w.units.borrows = 0) (h : Stacked [] w) {key : Nat}
    {slot : Slot H.Signal} (hslot : w.desk.roster[key]? = some slot) :
    ∃ v, exec (Guard.leave (H := H.desked) ⟨slot.entry.guard⟩) w = (.ok (), v) ∧
      v.units.entries.reverse =
        w.units.entries.reverse.filter (·.guard != slot.entry.guard) := by
  refine ⟨_, ReadBarrier.exec_leave hidle _, ?_⟩
  change (w.units.entries.eraseP (·.guard == slot.entry.guard)).reverse = _
  rw [h.eraseP hslot, List.append_nil, List.reverse_reverse, h.reverse_entries,
    Roster.live_drop h.ordered hslot]

/-- When a body in a unit is over, the stack is that of the guards that are live then, but for the
unit's own. -/
theorem Stacked.dropped_own {unit : WorkUnit H.Signal} (hg : (w.entered unit).Grown v)
    (hv : Stacked [] v) :
    (v.dropped w.desk.roster.length w.nextGuard).units.entries.reverse =
      (Roster.live v.desk.roster).filter (·.guard != w.nextGuard) := by
  obtain ⟨slot, hslot, hentry⟩ := hg.slot
  change (v.units.entries.eraseP (·.guard == w.nextGuard)).reverse = _
  have herase := hv.eraseP hslot
  have hlive := Roster.live_drop hv.ordered hslot
  rw [hentry] at herase hlive
  rw [herase, List.append_nil, List.reverse_reverse, hlive]

end World

/-- Enters three units and leaves the middle one, then the last one. -/
def outOfOrder : Routine Host.bare Unit Unit :=
  .enter .request fun _ => .enter .cache fun _ => .enter .prerenderLegacy fun _ =>
    .leave 1 fun _ => .look (fun _ => .done (.ok ())) fun _ =>
      .leave 2 fun _ => .done (.ok (.ready ())) ()

end ReadBarrier
