import ReadBarrier.Proofs.Guards

/-!
Scoped tasks do not interfere.

What a routine finds out depends on the guards that it entered itself and on the unit below them. So
two runs of one routine go alike wherever that unit is the same, and a scoped task, which puts its
own unit there in each poll, goes as it does alone.
-/

namespace ReadBarrier

open Act

variable {H : Host} {α β φ : Type}

namespace Roster

variable {σ : Type}

/-- What a routine knows of its guards: their units, and which it has dropped. -/
def units (roster : Roster σ) : List (WorkUnit σ × Bool) :=
  roster.map fun slot => (slot.entry.unit, slot.dropped)

theorem units_drop (roster : Roster σ) (key : Nat) :
    units (drop roster key) = (units roster).modify key fun known => (known.1, true) := by
  induction roster generalizing key with
  | nil => cases key <;> rfl
  | cons slot roster ih =>
    cases key with
    | zero => rfl
    | succ key => exact congrArg ((slot.entry.unit, slot.dropped) :: ·) (ih key)

theorem length_of_units {roster other : Roster σ} (h : units roster = units other) :
    roster.length = other.length := by
  simpa [units] using congrArg List.length h

theorem innermost_eq_units (roster : Roster σ) :
    innermost? roster = (((units roster).filter (!·.2)).map (·.1)).getLast? := by
  rw [innermost?, live, units, List.filter_map, List.map_map, ← List.getLast?_map, List.map_map]
  rfl

theorem innermost_congr {roster other : Roster σ} (h : units roster = units other) :
    innermost? roster = innermost? other := by
  rw [innermost_eq_units, innermost_eq_units, h]

theorem getElem_of_units {roster other : Roster σ} (h : units roster = units other) {key : Nat}
    {slot : Slot σ} (hslot : roster[key]? = some slot) : ∃ slot', other[key]? = some slot' := by
  obtain ⟨hlt, -⟩ := List.getElem?_eq_some_iff.mp hslot
  rw [length_of_units h] at hlt
  exact ⟨other[key], List.getElem?_eq_getElem hlt⟩

end Roster

namespace World

variable {base base' : List (Entry H.Signal)} {u v w : World H.desked}

/-- The current unit is the innermost of the live guards in the roster or, if there is none, that
below them. -/
theorem Stacked.current (h : Stacked base w) :
    w.units.current? =
      (Roster.innermost? w.desk.roster).or (base.head?.map (·.unit)) := by
  rw [UnitStore.current?, h.stack, List.head?_append, Roster.innermost_eq_head]
  cases (Roster.live w.desk.roster).reverse.head? <;> rfl

/-- Two threads at the same point of a routine. The guards may have different numbers, and the
stacks may differ below the unit under the routine's own. -/
structure Twins (base base' : List (Entry H.Signal)) (w v : World H.desked) : Prop where
  idle : w.units.borrows = 0
  idle' : v.units.borrows = 0
  stacked : Stacked base w
  stacked' : Stacked base' v
  units : Roster.units w.desk.roster = Roster.units v.desk.roster
  sights : w.desk.sights = v.desk.sights
  below : base.head?.map (·.unit) = base'.head?.map (·.unit)

namespace Twins

variable {w' v' : World H.desked}

theorem current (h : Twins base base' w v) : w.units.current? = v.units.current? := by
  rw [h.stacked.current, h.stacked'.current, Roster.innermost_congr h.units, h.below]

theorem signal (h : Twins base base' w v) : w.signal? = v.signal? := by
  rw [World.signal?, World.signal?, h.current]

theorem marked (h : Twins base base' w v) : Twins base base' w.marked v.marked :=
  { h with stacked := h.stacked.marked, stacked' := h.stacked'.marked }

theorem entered (h : Twins base base' w v) (unit : WorkUnit H.Signal) :
    Twins base base' (w.entered unit) (v.entered unit) :=
  { h with
    stacked := h.stacked.entered unit
    stacked' := h.stacked'.entered unit
    units := by
      change Roster.units (w.desk.roster ++ [_]) = Roster.units (v.desk.roster ++ [_])
      have hunits := h.units
      simp only [Roster.units] at hunits
      simp [Roster.units, hunits] }

theorem dropped (h : Twins base base' w v) {key : Nat} {slot slot' : Slot H.Signal}
    (hslot : w.desk.roster[key]? = some slot) (hslot' : v.desk.roster[key]? = some slot') :
    Twins base base' (w.dropped key slot.entry.guard) (v.dropped key slot'.entry.guard) :=
  { h with
    stacked := h.stacked.dropped hslot
    stacked' := h.stacked'.dropped hslot'
    units := by
      change Roster.units (Roster.drop w.desk.roster key) =
        Roster.units (Roster.drop v.desk.roster key)
      rw [Roster.units_drop, Roster.units_drop, h.units] }

theorem looked (h : Twins base base' w v) (looks : Nat) :
    Twins base base' (w.looked looks) (v.looked looks) :=
  { h with
    stacked := h.stacked.looked looks
    stacked' := h.stacked'.looked looks
    sights := by
      change w.desk.sights ++ List.replicate looks _ = v.desk.sights ++ List.replicate looks _
      rw [h.sights, h.current] }

theorem aside (h : Twins base base' w v) (hw : w.Aside w') (hv : v.Aside v') :
    Twins base base' w' v' where
  idle := hw.units ▸ h.idle
  idle' := hv.units ▸ h.idle'
  stacked := h.stacked.aside hw
  stacked' := h.stacked'.aside hv
  units := by rw [hw.desk, hv.desk, h.units]
  sights := by rw [hw.desk, hv.desk, h.sights]
  below := h.below

theorem tracked (h : Twins base base' w v)
    (outcome : Except (Panic H.desked) (Option (SignalRef H.Signal))) :
    Twins base base' (w.tracked outcome) (v.tracked outcome) := by
  cases outcome with
  | ok signal =>
    exact { h with
      stacked := { h.stacked with }
      stacked' := { h.stacked' with }
      sights := congrArg (· ++ [Sight.began signal]) h.sights }
  | error p => exact h

/-- A body runs alike in a unit if it does so on its own. The unit's guard has the same key on both
threads, though not the same number. -/
theorem body {unit : WorkUnit H.Signal} {body : Routine H β φ} (signals : Signals H)
    (h : Twins base base' w v)
    (hbody : ((body.play signals).run (w.entered unit)).1 =
        ((body.play signals).run (v.entered unit)).1 ∧
      Twins base base' ((body.play signals).run (w.entered unit)).2
        ((body.play signals).run (v.entered unit)).2) :
    ∃ r w' v', (body.play signals).run (w.entered unit) = (r, w') ∧
      (body.play signals).run (v.entered unit) = (r, v') ∧
      w'.units.borrows = 0 ∧ v'.units.borrows = 0 ∧
      Twins base base' (w'.dropped w.desk.roster.length w.nextGuard)
        (v'.dropped v.desk.roster.length v.nextGuard) := by
  have hentered := h.entered unit
  have hkeeps := body.play_keeps signals _ hentered.idle hentered.stacked
  have hkeeps' := body.play_keeps signals _ hentered.idle' hentered.stacked'
  rcases hran : (body.play signals).run (w.entered unit) with ⟨r, w'⟩
  rcases hran' : (body.play signals).run (v.entered unit) with ⟨r', v'⟩
  rw [hran] at hbody hkeeps
  rw [hran'] at hbody hkeeps'
  obtain ⟨rfl, htwins⟩ : r = r' ∧ Twins base base' w' v' := hbody
  obtain ⟨slot, hslot, hentry⟩ := hkeeps.grown.slot
  obtain ⟨slot', hslot', hentry'⟩ := hkeeps'.grown.slot
  rw [← Roster.length_of_units h.units] at hslot' ⊢
  have hdropped := htwins.dropped hslot hslot'
  rw [hentry, hentry'] at hdropped
  exact ⟨r, w', v', rfl, rfl, hkeeps.idle, hkeeps'.idle, hdropped⟩

end Twins

end World

open World in
/-- Two runs of a routine go alike. -/
theorem Routine.play_twins {base base' : List (Entry H.Signal)} (signals : Signals H)
    (routine : Routine H β φ) (w v : World H.desked) (h : Twins base base' w v) :
    ((routine.play signals).run w).1 = ((routine.play signals).run v).1 ∧
      Twins base base' ((routine.play signals).run w).2 ((routine.play signals).run v).2 := by
  induction routine generalizing w v with
  | done outcome rest => exact ⟨rfl, h⟩
  | enter unit next ih =>
    rw [run_enter h.idle, run_enter h.idle', Roster.length_of_units h.units]
    exact ih _ _ _ (h.entered unit).marked
  | leave key next ih =>
    rw [run_leave h.idle, run_leave h.idle']
    cases hslot : w.desk.roster[key]? with
    | none =>
      cases hslot' : v.desk.roster[key]? with
      | none => exact ih _ _ _ h.marked
      | some slot' =>
        obtain ⟨slot, hslot⟩ := Roster.getElem_of_units h.units.symm hslot'
        simp_all
    | some slot =>
      obtain ⟨slot', hslot'⟩ := Roster.getElem_of_units h.units hslot
      rw [hslot']
      exact ih _ _ _ (h.dropped hslot hslot').marked
  | look callback next ih =>
    rw [run_look, run_look, h.current]
    exact ih _ _ _ (h.looked _).marked
  | run unit body next ihbody ih =>
    obtain ⟨r, w', v', hran, hran', hw, hv, hended⟩ := h.body signals (ihbody _ _ (h.entered unit))
    rw [run_run h.idle hran hw, run_run h.idle' hran' hv]
    exact ih _ _ _ hended.marked
  | poll future body next ihbody ih =>
    obtain ⟨r, w', v', hran, hran', hw, hv, hended⟩ :=
      h.body signals (ihbody _ _ (h.entered future.unit))
    rw [run_poll h.idle hran hw, run_poll h.idle' hran' hv]
    exact ih _ _ _ hended.marked
  | track next ih =>
    obtain ⟨w', hw, htrack⟩ := run_track signals h.idle next
    obtain ⟨v', hv, htrack'⟩ := run_track signals h.idle' next
    rw [htrack, htrack', h.signal]
    exact ih _ _ _ ((h.aside hw hv).tracked _).marked
  | aside detour next ih =>
    rw [run_aside, run_aside]
    exact ih _ _ (h.aside (detour.aside w) (detour.aside v)).marked

/-! ### Tasks -/

/-- A scoped future, and what each of its polls does with what is passed to it. -/
structure Task (H : Host) (ι β φ : Type) where
  unit : WorkUnit H.Signal
  code : ι → φ → Routine H β φ

/-- What came of one poll of a task: its outcome, what was kept of it, and the units of the thread
before and after. -/
structure Sitting (H : Host) (β : Type) where
  outcome : Outcome H.desked β
  desk : Desk H.Signal
  before : UnitStore H.Signal
  after : UnitStore H.Signal

/-- How a poll came out and what the task found out in it. -/
def Sitting.view (s : Sitting H β) : Outcome H.desked β × List (Sight H.Signal) :=
  (s.outcome, s.desk.sights)

structure Seat (H : Host) (β φ : Type) where
  future : φ
  sittings : List (Sitting H β) := []

def Seat.view (seat : Seat H β φ) : φ × List (Outcome H.desked β × List (Sight H.Signal)) :=
  (seat.future, seat.sittings.map Sitting.view)

namespace Task

variable {ι : Type}

/-- Polls a task, at a clean desk: the keys in the poll are those of the guards entered in it. -/
def sit (signals : Signals H) (task : Task H ι β φ) (input : ι) (seat : Seat H β φ) :
    Run H.desked (Seat H β φ) := do
  let before ← modifyGet fun w => (w.units, w.jot fun _ => {})
  let (outcome, rest) ← (Scoped.mk task.unit seat.future).poll (H := H.desked)
    ((task.code input seat.future).play signals)
  let w ← get
  return ⟨rest.inner, seat.sittings ++ [⟨outcome, w.desk, before, w.units⟩]⟩

/-- Polls a task again and again, with nothing else going on. -/
def alone (signals : Signals H) (task : Task H ι β φ) (inputs : List ι)
    (p : Seat H β φ × World H.desked) : Seat H β φ × World H.desked :=
  inputs.foldl (fun p input => (task.sit signals input p.1).run p.2) p

end Task

/-- A thread between polls. -/
structure World.Fit (w : World H.desked) : Prop where
  idle : w.units.borrows = 0
  used : ∀ e ∈ w.units.entries, e.guard < w.nextGuard

/-- Something that happens between the polls of tasks. Units may be entered, left or replaced. -/
structure Interlude (H : Host) where
  act : World H.desked → World H.desked
  fit : ∀ w, w.Fit → (act w).Fit

def Interlude.entering (unit : WorkUnit H.Signal) : Interlude H where
  act w := (exec (unit.enter (H := H.desked)) w).2
  fit w h := by
    rw [exec_enter h.idle]
    refine ⟨h.idle, fun e he => ?_⟩
    rcases List.mem_cons.mp he with rfl | he
    · exact Nat.lt_succ_self _
    · exact Nat.lt_succ_of_lt (h.used e he)

def Interlude.leaving (guard : Guard) : Interlude H where
  act w := (exec (guard.leave (H := H.desked)) w).2
  fit w h := by
    rw [exec_leave h.idle]
    exact ⟨h.idle, fun e he => h.used e (List.eraseP_subset he)⟩

inductive Shift (H : Host) (κ ι : Type) where
  | poll (task : κ) (input : ι)
  | meanwhile (interlude : Interlude H)

/-- What is passed to a task in its polls. -/
def Shift.inputs {κ ι : Type} [DecidableEq κ] (task : κ) : List (Shift H κ ι) → List ι :=
  List.filterMap fun
    | .poll k input => if k = task then some input else none
    | .meanwhile _ => none

structure Crew (H : Host) (κ β φ : Type) where
  seats : κ → Seat H β φ
  world : World H.desked

namespace Crew

variable {κ ι : Type} [DecidableEq κ]

def step (signals : Signals H) (tasks : κ → Task H ι β φ) (c : Crew H κ β φ) :
    Shift H κ ι → Crew H κ β φ
  | .poll k input =>
    let polled := ((tasks k).sit signals input (c.seats k)).run c.world
    ⟨fun j => if j = k then polled.1 else c.seats j, polled.2⟩
  | .meanwhile interlude => { c with world := interlude.act c.world }

def run (signals : Signals H) (tasks : κ → Task H ι β φ) (shifts : List (Shift H κ ι))
    (c : Crew H κ β φ) : Crew H κ β φ :=
  shifts.foldl (step signals tasks) c

end Crew

/-! ### One poll -/

namespace World

def seated (w : World H.desked) (unit : WorkUnit H.Signal) : World H.desked :=
  { w with
    units := { w.units with entries := ⟨w.nextGuard, unit⟩ :: w.units.entries }
    nextGuard := w.nextGuard + 1
    state := ({}, w.state.2) }

variable {w v : World H.desked}

theorem Fit.stacked (h : w.Fit) (unit : WorkUnit H.Signal) :
    Stacked (⟨w.nextGuard, unit⟩ :: w.units.entries) (w.seated unit) where
  stack := rfl
  ordered := List.Pairwise.nil
  above := by simp [seated, desk, Roster.entries]
  below := by
    rintro e (_ | ⟨_, he⟩)
    · exact Nat.lt_succ_self _
    · exact Nat.lt_succ_of_lt (h.used e he)
  fresh := by simp [seated, desk, Roster.entries]
  moments := by simp [seated, desk]

theorem Fit.twins (hw : w.Fit) (hv : v.Fit) (unit : WorkUnit H.Signal) :
    Twins (⟨w.nextGuard, unit⟩ :: w.units.entries) (⟨v.nextGuard, unit⟩ :: v.units.entries)
      (w.seated unit) (v.seated unit) where
  idle := hw.idle
  idle' := hv.idle
  stacked := hw.stacked unit
  stacked' := hv.stacked unit
  units := rfl
  sights := rfl
  below := rfl

/-- The entry at the foot of a routine comes off from below the live guards. -/
theorem Stacked.eraseP_foot {base : List (Entry H.Signal)} {foot : Entry H.Signal}
    (h : Stacked (foot :: base) w) :
    w.units.entries.eraseP (·.guard == foot.guard) =
      (Roster.live w.desk.roster).reverse ++ base := by
  have hlive : ∀ e ∈ (Roster.live w.desk.roster).reverse, ¬ (e.guard == foot.guard) := by
    intro e he
    have := h.above foot (List.mem_cons_self ..) e
      ((Roster.live_sublist _).subset (List.mem_reverse.mp he))
    simp only [beq_iff_eq]
    omega
  rw [h.stack, List.eraseP_append_right _ hlive, List.eraseP_cons_of_pos (by simp)]

end World

namespace Sitting

/-- At each moment of a poll the innermost guard is seen that the poll entered and did not drop or,
if there is none, the unit of the task. Afterwards the stack is as before, below such guards. -/
structure Isolated (unit : WorkUnit H.Signal) (s : Sitting H β) : Prop where
  seen : ∀ m ∈ s.desk.moments, m.seen = some ((Roster.innermost? m.roster).getD unit)
  entries : s.after.entries = (Roster.live s.desk.roster).reverse ++ s.before.entries
  borrows : s.after.borrows = s.before.borrows

theorem Isolated.restored {unit : WorkUnit H.Signal} {s : Sitting H β} (h : s.Isolated unit)
    (hlive : Roster.live s.desk.roster = []) : s.after = s.before := by
  have hentries := h.entries
  rw [hlive] at hentries
  have hborrows := h.borrows
  revert hentries hborrows
  cases s.after
  cases s.before
  rintro rfl rfl
  rfl

end Sitting

theorem Moment.Faithful.seen_eq {σ : Type} {foot : Entry σ} {base : List (Entry σ)} {m : Moment σ}
    (h : m.Faithful (foot :: base)) :
    m.seen = some ((Roster.innermost? m.roster).getD foot.unit) := by
  rw [h.seen, h.stack, Roster.innermost_eq_head]
  cases (Roster.live m.roster).reverse <;> rfl

namespace Task

open World

variable {ι : Type} {w v : World H.desked}

def played (signals : Signals H) (task : Task H ι β φ) (input : ι) (future : φ)
    (w : World H.desked) : (Outcome H.desked β × φ) × World H.desked :=
  ((task.code input future).play signals).run (w.seated task.unit)

/-- The units of a thread where a poll left `v`: those from before, below the guards that the poll
kept. -/
def unitsAfter (w v : World H.desked) : UnitStore H.Signal :=
  { v.units with entries := (Roster.live v.desk.roster).reverse ++ w.units.entries }

def sitting (signals : Signals H) (task : Task H ι β φ) (input : ι) (future : φ)
    (w : World H.desked) : Sitting H β :=
  let played := task.played signals input future w
  ⟨played.1.1, played.2.desk, w.units, unitsAfter (H := H) w played.2⟩

theorem played_keeps (signals : Signals H) (task : Task H ι β φ) (input : ι) (future : φ)
    (h : w.Fit) :
    Keeps (⟨w.nextGuard, task.unit⟩ :: w.units.entries) (w.seated task.unit)
      (task.played signals input future w).2 :=
  (task.code input future).play_keeps signals _ h.idle (h.stacked task.unit)

theorem run_sit (signals : Signals H) (task : Task H ι β φ) (input : ι) (seat : Seat H β φ)
    (h : w.Fit) :
    let played := task.played signals input seat.future w
    (task.sit signals input seat).run w =
      (⟨played.1.2, seat.sittings ++ [task.sitting signals input seat.future w]⟩,
        { played.2 with units := unitsAfter (H := H) w played.2 }) := by
  intro played
  have hkeeps := task.played_keeps signals input seat.future h
  -- The entry of the unit comes off from below those that the poll kept.
  have hfoot : played.2.units.entries.eraseP (·.guard == w.nextGuard) =
      (Roster.live played.2.desk.roster).reverse ++ w.units.entries :=
    hkeeps.stacked.eraseP_foot
  have hpoll := run_poll (H := H.desked) ⟨task.unit, seat.future⟩
    ((task.code input seat.future).play signals) (w := w.jot fun _ => {}) (v := played.2)
    (r := played.1) h.idle rfl hkeeps.idle
  change _ = (_, { played.2 with
    units := { played.2.units with
      entries := played.2.units.entries.eraseP (·.guard == w.nextGuard) } }) at hpoll
  rw [hfoot] at hpoll
  have hcall : (task.sit signals input seat).run w =
      let polled := ((Scoped.mk task.unit seat.future).poll (H := H.desked)
        ((task.code input seat.future).play signals)).run (w.jot fun _ => {})
      (⟨polled.1.2.inner, seat.sittings ++
        [⟨polled.1.1, polled.2.desk, w.units, polled.2.units⟩]⟩, polled.2) := rfl
  rw [hcall, hpoll]
  rfl

theorem fit_sit (signals : Signals H) (task : Task H ι β φ) (input : ι) (seat : Seat H β φ)
    (h : w.Fit) : ((task.sit signals input seat).run w).2.Fit := by
  have hkeeps := task.played_keeps signals input seat.future h
  rw [run_sit signals task input seat h]
  refine ⟨hkeeps.idle, fun e he => ?_⟩
  rcases List.mem_append.mp he with he | he
  · exact hkeeps.stacked.fresh e ((Roster.live_sublist _).subset (List.mem_reverse.mp he))
  · exact hkeeps.stacked.below e (List.mem_cons_of_mem _ he)

theorem isolated_sitting (signals : Signals H) (task : Task H ι β φ) (input : ι) (future : φ)
    (h : w.Fit) : (task.sitting signals input future w).Isolated task.unit := by
  have hkeeps := task.played_keeps signals input future h
  exact ⟨fun m hm => (hkeeps.stacked.moments m hm).seen_eq, rfl, hkeeps.grown.borrows⟩

/-- Two polls of a task go alike, whatever is on the stack. -/
theorem view_sit (signals : Signals H) (task : Task H ι β φ) (input : ι)
    {seat seat' : Seat H β φ} (hseat : seat.view = seat'.view) (hw : w.Fit) (hv : v.Fit) :
    ((task.sit signals input seat).run w).1.view =
      ((task.sit signals input seat').run v).1.view := by
  obtain ⟨hfuture, hsittings⟩ := Prod.mk.inj hseat
  obtain ⟨hplayed, htwins⟩ :=
    (task.code input seat.future).play_twins signals _ _ (hw.twins hv task.unit)
  rw [run_sit signals task input seat hw, run_sit signals task input seat' hv]
  have hsitting : (task.sitting signals input seat.future w).view =
      (task.sitting signals input seat'.future v).view := by
    have houtcome := congrArg Prod.fst hplayed
    rw [← hfuture]
    exact Prod.ext houtcome htwins.sights
  refine Prod.ext ?_ ?_
  · rw [← hfuture]
    exact congrArg Prod.snd hplayed
  · change List.map _ (_ ++ [_]) = List.map _ (_ ++ [_])
    rw [List.map_append, List.map_append, hsittings]
    exact congrArg (_ ++ [·]) hsitting

theorem fit_alone (signals : Signals H) (task : Task H ι β φ) (inputs : List ι)
    (p : Seat H β φ × World H.desked) (h : p.2.Fit) : (task.alone signals inputs p).2.Fit := by
  induction inputs generalizing p with
  | nil => exact h
  | cons input inputs ih => exact ih _ (task.fit_sit signals input p.1 h)

theorem alone_concat (signals : Signals H) (task : Task H ι β φ) (inputs : List ι) (input : ι)
    (p : Seat H β φ × World H.desked) :
    task.alone signals (inputs ++ [input]) p =
      (task.sit signals input (task.alone signals inputs p).1).run
        (task.alone signals inputs p).2 := by
  simp [alone]

end Task

/-! ### Many tasks -/

namespace Crew

open World

variable {κ ι : Type} [DecidableEq κ]

/-- The thread can poll, each poll until now was isolated, and each task is as far as it is
alone after the same `inputs`. -/
structure Isolated (signals : Signals H) (tasks : κ → Task H ι β φ) (futures : κ → φ)
    (inputs : κ → List ι) (v : World H.desked) (c : Crew H κ β φ) : Prop where
  fit : c.world.Fit
  sittings : ∀ k, ∀ s ∈ (c.seats k).sittings, s.Isolated (tasks k).unit
  view : ∀ k, (c.seats k).view = ((tasks k).alone signals (inputs k) (⟨futures k, []⟩, v)).1.view

variable {signals : Signals H} {tasks : κ → Task H ι β φ} {futures : κ → φ}
  {inputs : κ → List ι} {v : World H.desked} {c : Crew H κ β φ}

theorem Isolated.meanwhile (h : Isolated signals tasks futures inputs v c)
    (interlude : Interlude H) :
    Isolated signals tasks futures inputs v (c.step signals tasks (.meanwhile interlude)) :=
  { h with fit := interlude.fit _ h.fit }

theorem Isolated.poll (h : Isolated signals tasks futures inputs v c) (hv : v.Fit) (k : κ)
    (input : ι) :
    Isolated signals tasks futures (fun j => if k = j then inputs j ++ [input] else inputs j) v
      (c.step signals tasks (.poll k input)) where
  fit := (tasks k).fit_sit signals input (c.seats k) h.fit
  sittings := by
    intro j s hs
    by_cases hj : j = k
    · subst hj
      simp only [step, if_true, (tasks j).run_sit signals input (c.seats j) h.fit] at hs
      rcases List.mem_append.mp hs with hs | hs
      · exact h.sittings j s hs
      · obtain rfl := List.mem_singleton.mp hs
        exact (tasks j).isolated_sitting signals input _ h.fit
    · simp only [step, if_neg hj] at hs
      exact h.sittings j s hs
  view := by
    intro j
    by_cases hj : j = k
    · subst hj
      simp only [step, if_true, Task.alone_concat]
      exact (tasks j).view_sit signals input (h.view j) h.fit
        ((tasks j).fit_alone signals (inputs j) _ hv)
    · simp only [step, if_neg hj, if_neg (Ne.symm hj)]
      exact h.view j

theorem Isolated.run (h : Isolated signals tasks futures inputs v c) (hv : v.Fit)
    (shifts : List (Shift H κ ι)) :
    Isolated signals tasks futures (fun k => inputs k ++ Shift.inputs k shifts) v
      (c.run signals tasks shifts) := by
  induction shifts generalizing inputs c with
  | nil => simpa [Shift.inputs, Crew.run] using h
  | cons shift shifts ih =>
    cases shift with
    | poll k input =>
      have hnext := ih (h.poll hv k input)
      have hinputs : (fun j => (if k = j then inputs j ++ [input] else inputs j) ++
          Shift.inputs j shifts) = fun j => inputs j ++ Shift.inputs j (.poll k input :: shifts) := by
        funext j
        by_cases hj : k = j <;> simp [Shift.inputs, hj]
      rwa [hinputs] at hnext
    | meanwhile interlude => exact ih (h.meanwhile interlude)

/-- Is pending in its first poll, and looks at the current unit in each later one. -/
def yieldThenLook : Unit → Bool → Routine Host.bare Unit Bool
  | (), false => .done (.ok .pending) true
  | (), true => .look (fun _ => .done (.ok ())) fun _ => .done (.ok (.ready ())) true

end Crew

end ReadBarrier
