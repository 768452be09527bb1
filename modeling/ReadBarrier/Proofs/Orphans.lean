import ReadBarrier.Proofs.Lookups

/-!
What is left on the stack of a thread after guards were dropped during look-ups.

The stack holds the entries of the guards that are held and of those that are orphaned. This is kept
by each call, in a look-up and outside of one.
-/

namespace ReadBarrier

open Act

variable {H : Host} {α β φ : Type}

/-! ### Holds -/

namespace Hold

variable {hands : List Hold} {key : Nat}

theorem of_append {hold last : Hold} (h : (hands ++ [last])[key]? = some hold) :
    hands[key]? = some hold ∨ key = hands.length ∧ hold = last := by
  rw [List.getElem?_append] at h
  split at h
  · exact .inl h
  · rename_i hge
    obtain ⟨hlt, hlast⟩ := List.getElem?_eq_some_iff.mp h
    rw [List.length_singleton] at hlt
    rw [List.getElem_singleton] at hlast
    exact .inr ⟨by omega, hlast.symm⟩

theorem running_of_set {key' : Nat} {hold : Hold} (hne : hold ≠ .running)
    (h : (hands.set key hold)[key']? = some .running) :
    key ≠ key' ∧ hands[key']? = some .running := by
  rw [List.getElem?_set] at h
  split at h
  · split at h
    · exact absurd (Option.some.inj h) hne
    · cases h
  · rename_i hkey
    exact ⟨hkey, h⟩

theorem map_set_orphaned (hheld : hands[key]? = some .held) :
    (hands.set key .orphaned).map (· == .dropped) = hands.map (· == .dropped) := by
  induction hands generalizing key with
  | nil => rfl
  | cons hold hands ih =>
    cases key with
    | zero =>
      obtain rfl : hold = .held := by simpa using hheld
      rfl
    | succ key =>
      have htail : hands[key]? = some .held := by simpa using hheld
      exact congrArg ((hold == .dropped) :: ·) (ih htail)

end Hold

namespace Roster

variable {σ : Type}

/-- The entries of the guards that are held or orphaned, in the order in which they were entered. -/
def standing (roster : Roster σ) (hands : List Hold) : List (Entry σ) :=
  ((roster.zip hands).filter fun pair => pair.2 = .held ∨ pair.2 = .orphaned).map (·.1.entry)

theorem live_eq_standing {roster : Roster σ} {hands : List Hold}
    (h : roster.map (·.dropped) = hands.map (· == .dropped)) (hover : .running ∉ hands) :
    live roster = standing roster hands := by
  induction roster generalizing hands with
  | nil => rfl
  | cons slot roster ih =>
    cases hands with
    | nil => simp at h
    | cons hold hands =>
      obtain ⟨hslot, hrest⟩ : slot.dropped = (hold == .dropped) ∧
          roster.map (·.dropped) = hands.map (· == .dropped) := by simpa using h
      obtain ⟨hhold, hover⟩ : Hold.running ≠ hold ∧ .running ∉ hands := by simpa using hover
      have htail := ih hrest hover
      simp only [live, standing] at htail ⊢
      cases hold with
      | running => exact absurd rfl hhold
      | held => simp [hslot, htail]
      | dropped => simp [hslot, htail]
      | orphaned => simp [hslot, htail]

theorem map_dropped_drop (roster : Roster σ) (key : Nat) :
    (drop roster key).map (·.dropped) = (roster.map (·.dropped)).set key true := by
  induction roster generalizing key with
  | nil => cases key <;> rfl
  | cons slot roster ih =>
    cases key with
    | zero => rfl
    | succ key => exact congrArg (slot.dropped :: ·) (ih key)

theorem mem_live {roster : Roster σ} {key : Nat} {slot : Slot σ} (h : roster[key]? = some slot)
    (hlive : slot.dropped = false) : slot.entry ∈ live roster :=
  List.mem_map_of_mem (List.mem_filter.mpr ⟨List.mem_of_getElem? h, by simp [hlive]⟩)

theorem getElem?_of_entries {roster more : Roster σ} {new : List (Entry σ)}
    (h : entries more = entries roster ++ new) {key : Nat} {slot : Slot σ}
    (hslot : roster[key]? = some slot) :
    ∃ slot', more[key]? = some slot' ∧ slot'.entry = slot.entry := by
  have hlt : key < (entries roster).length := by
    rw [entries, List.length_map]
    exact (List.getElem?_eq_some_iff.mp hslot).1
  have hget : (entries more)[key]? = some slot.entry := by
    rw [h, List.getElem?_append_left hlt, entries, List.getElem?_map, hslot]
    rfl
  rw [entries, List.getElem?_map] at hget
  exact Option.map_eq_some_iff.mp hget

end Roster

/-! ### What each call keeps -/

namespace World

variable {u v w : World H.handed.desked}

/-- The stack is that of the guards which are live in the roster, and those which are not are the
ones that took their entries off. -/
structure Tallied (w : World H.handed.desked) : Prop where
  stacked : Stacked [] w
  ticked : w.desk.roster.map (·.dropped) = w.hands.map (· == .dropped)

/-- A thread came from one world to another. -/
structure Kept (w v : World H.handed.desked) : Prop where
  tallied : v.Tallied
  grown : w.Grown v
  /-- What is not held is never held again. -/
  settled : ∀ (key : Nat) (hold : Hold), w.hands[key]? = some hold → hold ≠ .held →
    v.hands[key]? = some hold
  /-- All bodies are over that were not yet running. -/
  finished : ∀ key : Nat, v.hands[key]? = some Hold.running → w.hands[key]? = some Hold.running
  rigid : 0 < w.units.borrows → v.units = w.units

theorem Tallied.length (h : w.Tallied) : w.hands.length = w.desk.roster.length := by
  simpa using (congrArg List.length h.ticked).symm

theorem Tallied.slot (h : w.Tallied) {key : Nat} {hold : Hold} (hhold : w.hands[key]? = some hold) :
    ∃ slot, w.desk.roster[key]? = some slot ∧ slot.dropped = (hold == .dropped) := by
  have hget := congrArg (·[key]?) h.ticked
  simp only [List.getElem?_map, hhold, Option.map_some] at hget
  exact Option.map_eq_some_iff.mp hget

theorem Tallied.refl (h : w.Tallied) : w.Kept w where
  tallied := h
  grown := .refl w
  settled _ _ hhold _ := hhold
  finished _ hrunning := hrunning
  rigid _ := rfl

theorem Kept.trans (h : w.Kept v) (h' : v.Kept u) : w.Kept u where
  tallied := h'.tallied
  grown := h.grown.trans h'.grown
  settled key hold hhold hne := h'.settled key hold (h.settled key hold hhold hne) hne
  finished key hrunning := h.finished key (h'.finished key hrunning)
  rigid hborrowed := by
    have hborrowed' : 0 < v.units.borrows := h.grown.borrows ▸ hborrowed
    exact (h'.rigid hborrowed').trans (h.rigid hborrowed)

theorem Kept.marked (h : w.Kept v) : w.Kept v.marked :=
  { h with
    tallied := ⟨h.tallied.stacked.marked, h.tallied.ticked⟩
    grown := ⟨h.grown.borrows, h.grown.roster, h.grown.nextGuard⟩ }

theorem Tallied.aside (h : w.Tallied) (hv : w.Aside v) (hhands : v.hands = w.hands) :
    w.Kept v where
  tallied := ⟨h.stacked.aside hv, by rw [hv.desk, hhands, h.ticked]⟩
  grown := ⟨by rw [hv.units], ⟨[], by simp [hv.desk]⟩, hv.nextGuard⟩
  settled _ _ hhold _ := hhands ▸ hhold
  finished _ hrunning := hhands ▸ hrunning
  rigid _ := hv.units

theorem Tallied.passed (h : w.Tallied) : w.Kept w.passed :=
  h.aside ⟨rfl, rfl, Nat.le_succ w.nextGuard⟩ rfl

/-! #### Entering -/

theorem Tallied.entered (h : w.Tallied) (unit : WorkUnit H.Signal) {hold : Hold}
    (hne : hold ≠ .dropped) : ((w.entered unit).rehand (· ++ [hold])).Tallied where
  stacked := { h.stacked.entered unit with }
  ticked := by
    change (w.desk.roster ++ [(_ : Slot H.Signal)]).map (·.dropped) =
      (w.hands ++ [hold]).map (· == .dropped)
    rw [List.map_append, List.map_append, h.ticked]
    simp [hne]

theorem Tallied.taken (hidle : w.units.borrows = 0) (h : w.Tallied) (unit : WorkUnit H.Signal) :
    w.Kept ((w.entered unit).rehand (· ++ [.held])) where
  tallied := h.entered unit (by decide)
  grown := { (Keeps.entered hidle h.stacked unit).grown with }
  settled key hold hhold _ := by
    change (w.hands ++ [Hold.held])[key]? = some hold
    rw [List.getElem?_append_left (List.getElem?_eq_some_iff.mp hhold).1, hhold]
  finished key hrunning := by
    change (w.hands ++ [Hold.held])[key]? = some Hold.running at hrunning
    rcases Hold.of_append hrunning with hrunning | ⟨-, hnew⟩
    · exact hrunning
    · exact absurd hnew (by decide)
  rigid hborrowed := absurd hidle (Nat.ne_of_gt hborrowed)

/-! #### Dropping -/

theorem Kept.of_set {key : Nat} {hold : Hold} (hne : hold ≠ .running)
    (hheld : w.hands[key]? = some .held) (htallied : v.Tallied) (hgrown : w.Grown v)
    (hhands : v.hands = w.hands.set key hold) (hrigid : 0 < w.units.borrows → v.units = w.units) :
    w.Kept v where
  tallied := htallied
  grown := hgrown
  settled key' hold' hhold hne' := by
    have hkey : key ≠ key' := by
      rintro rfl
      exact hne' (Option.some.inj (hhold.symm.trans hheld))
    rw [hhands, List.getElem?_set_ne hkey, hhold]
  finished key' hrunning := by
    rw [hhands] at hrunning
    exact (Hold.running_of_set hne hrunning).2
  rigid := hrigid

theorem Tallied.orphaned {key : Nat} (h : w.Tallied) (hheld : w.hands[key]? = some .held) :
    w.Kept (w.rehand (·.set key .orphaned)) := by
  apply Kept.of_set (by decide : Hold.orphaned ≠ .running) hheld
  · exact ⟨{ h.stacked with }, h.ticked.trans (Hold.map_set_orphaned hheld).symm⟩
  · exact ⟨rfl, ⟨[], by simp [rehand, desk]⟩, Nat.le_refl _⟩
  · rfl
  · intro _
    rfl

theorem Tallied.set_dropped (h : w.Tallied) {key : Nat} {slot : Slot H.Signal}
    (hslot : w.desk.roster[key]? = some slot) :
    ((w.dropped key slot.entry.guard).rehand (·.set key .dropped)).Tallied where
  stacked := { h.stacked.dropped hslot with }
  ticked := by
    change (Roster.drop w.desk.roster key).map (·.dropped) =
      (w.hands.set key .dropped).map (· == .dropped)
    rw [Roster.map_dropped_drop, List.map_set, h.ticked]
    rfl

theorem Tallied.dropped (hidle : w.units.borrows = 0) (h : w.Tallied) {key : Nat}
    {slot : Slot H.Signal} (hslot : w.desk.roster[key]? = some slot)
    (hheld : w.hands[key]? = some .held) :
    w.Kept ((w.dropped key slot.entry.guard).rehand (·.set key .dropped)) := by
  have hkeeps := (Keeps.mk hidle h.stacked (.refl w)).dropped hslot
  exact .of_set (by decide) hheld (h.set_dropped hslot) { hkeeps.grown with } rfl
    fun hborrowed => absurd hidle (Nat.ne_of_gt hborrowed)

/-- When a body in a unit is over, the unit's own guard is dropped. -/
theorem Kept.ended (hidle : w.units.borrows = 0) (h : w.Tallied) {unit : WorkUnit H.Signal}
    (hbody : ((w.entered unit).rehand (· ++ [.running])).Kept v) :
    w.Kept ((v.dropped w.desk.roster.length w.nextGuard).rehand
      (·.set w.desk.roster.length .dropped)) := by
  have hkeeps : Keeps [] (w.entered unit) v :=
    ⟨hbody.grown.borrows.trans hidle, hbody.tallied.stacked, { hbody.grown with }⟩
  obtain ⟨slot, hslot, hentry⟩ := hkeeps.grown.slot
  have htallied := hbody.tallied.set_dropped hslot
  rw [hentry] at htallied
  constructor
  · exact htallied
  · exact { (hkeeps.ended hidle h.stacked).grown with }
  · intro key hold hhold hne
    have hlt := (List.getElem?_eq_some_iff.mp hhold).1
    have hkey : w.desk.roster.length ≠ key := h.length ▸ Nat.ne_of_gt hlt
    have hinside : (w.hands ++ [Hold.running])[key]? = some hold := by
      rw [List.getElem?_append_left hlt, hhold]
    change (v.hands.set _ _)[key]? = some hold
    rw [List.getElem?_set_ne hkey, hbody.settled key hold hinside hne]
  · intro key hrunning
    -- The body left running only what was running before it, and its own guard is dropped.
    obtain ⟨hkey, hrunning⟩ := Hold.running_of_set (by decide) hrunning
    have hinside : (w.hands ++ [Hold.running])[key]? = some .running := hbody.finished key hrunning
    rcases Hold.of_append hinside with hrunning | ⟨hlast, -⟩
    · exact hrunning
    · exact absurd (h.length.symm.trans hlast.symm) hkey
  · intro hborrowed
    exact absurd hidle (Nat.ne_of_gt hborrowed)

/-! #### Looking -/

theorem Tallied.borrowedBy (h : w.Tallied) (n : Nat) : (w.borrowedBy n).Tallied :=
  ⟨{ h.stacked with }, h.ticked⟩

theorem Kept.returned (hbody : w.borrowed.Kept v) : w.Kept v.returned where
  tallied := ⟨{ hbody.tallied.stacked with }, hbody.tallied.ticked⟩
  grown := {
    borrows := by
      change v.units.borrows - 1 = _
      rw [hbody.grown.borrows]
      rfl
    roster := hbody.grown.roster
    nextGuard := hbody.grown.nextGuard }
  settled := hbody.settled
  finished := hbody.finished
  rigid _ := by
    change ({ v.units with borrows := v.units.borrows - 1 } : UnitStore H.Signal) = _
    rw [hbody.rigid (Nat.succ_pos _)]
    rfl

end World

/-! ### What code keeps -/

namespace World

variable {v w : World H.handed.desked}

theorem Tallied.take (h : w.Tallied) (unit : WorkUnit H.Signal) :
    w.Kept (exec (takeUnit unit) w).2 := by
  rcases Nat.eq_zero_or_pos w.units.borrows with hidle | hborrowed
  · rw [exec_takeUnit hidle]
    exact h.taken hidle unit
  · rw [exec_takeUnit_of_borrowed hborrowed]
    exact h.passed

theorem Tallied.drop (h : w.Tallied) (key : Nat) : w.Kept (exec (dropHeld key) w).2 := by
  by_cases hheld : w.hands[key]? = some .held
  · obtain ⟨slot, hslot, -⟩ := h.slot hheld
    rcases Nat.eq_zero_or_pos w.units.borrows with hidle | hborrowed
    · rw [exec_dropHeld hidle hslot hheld]
      exact h.dropped hidle hslot hheld
    · rw [exec_dropHeld_of_borrowed hborrowed hslot hheld]
      exact h.orphaned hheld
  · rw [exec_dropHeld_of_ne hheld]
    exact h.refl

/-- A call keeps what the body keeps that it runs in a unit of its own, outside of look-ups. -/
theorem Tallied.spending (h : w.Tallied) {unit : WorkUnit H.Signal}
    {body : Run H.handed.desked (Outcome H.handed.desked β × φ)} {call : Run H.handed.desked α}
    (hbody : ∀ u : World H.handed.desked, u.Tallied → u.Kept (body.run u).2)
    (hidle : ∀ {r : Outcome H.handed.desked β × φ} {v : World H.handed.desked},
      w.units.borrows = 0 → (inOwnUnit body).run (w.entered unit) = (r, v) →
      v.units.borrows = 0 → (call.run w).2 = v.dropped w.desk.roster.length w.nextGuard)
    (hborrowed : 0 < w.units.borrows → (call.run w).2 = w.passed) :
    w.Kept ((spending call).run w).2 := by
  rw [run_spending]
  rcases Nat.eq_zero_or_pos w.units.borrows with hzero | hpos
  · -- The body starts in a world in which its guard is the last one, and is its own.
    have hkept := hbody _ (h.entered unit (by decide : Hold.running ≠ .dropped))
    rw [hidle hzero rfl (hkept.grown.borrows.trans hzero)]
    exact hkept.ended hzero h
  · rw [hborrowed hpos, rehand_passed w h.length]
    exact h.passed

theorem Tallied.look (h : w.Tallied)
    {callback : Option (WorkUnit H.Signal) → Run H.handed.desked (Outcome H.handed.desked β × φ)}
    (hcallback : ∀ (unit : Option (WorkUnit H.Signal)) (u : World H.handed.desked), u.Tallied →
      u.Kept ((callback unit).run u).2) :
    w.Kept (exec (withCurrent (H := H.handed.desked) fun unit =>
      bodyOf (H := H.handed) (callback unit)) w).2 := by
  rw [exec_withCurrent]
  exact (hcallback _ _ (h.borrowedBy 1)).returned

end World

open World in
/-- Whatever code does, in look-ups and outside of them, the stack is that of the guards which did
not take their entries off. -/
theorem Conduct.play_kept (conduct : Conduct H β φ) (w : World H.handed.desked) (h : w.Tallied) :
    w.Kept (conduct.play.run w).2 := by
  induction conduct generalizing w with
  | done outcome rest => exact h.refl
  | enter unit next ih =>
    have htaken := (h.take unit).marked
    exact htaken.trans (ih _ _ htaken.tallied)
  | drop key next ih =>
    have hdropped := (h.drop key).marked
    exact hdropped.trans (ih _ _ hdropped.tallied)
  | look callback next ihcallback ih =>
    -- The callback keeps the world in which the look-up is in progress.
    have hlooked := (h.look ihcallback).marked
    exact hlooked.trans (ih _ _ hlooked.tallied)
  | run unit body next ihbody ih =>
    have hended := (h.spending ihbody
      (fun hidle hrun hv => congrArg Prod.snd (run_runUnit (H := H.handed) hidle hrun hv))
      (fun hborrowed => congrArg Prod.snd
        (run_runUnit_of_borrowed (H := H.handed) hborrowed unit _))).marked
    exact hended.trans (ih _ _ hended.tallied)
  | poll future body next ihbody ih =>
    have hended := (h.spending ihbody
      (fun hidle hrun hv => congrArg Prod.snd (run_pollScoped (H := H.handed) hidle hrun hv))
      (fun hborrowed => congrArg Prod.snd
        (run_pollScoped_of_borrowed (H := H.handed) hborrowed future _))).marked
    exact hended.trans (ih _ _ hended.tallied)
  | aside digression next ih =>
    have haside := (h.aside (digression.aside w) (digression.hands w)).marked
    exact haside.trans (ih _ haside.tallied)

/-! ### Afterwards -/

namespace World

variable {v w : World H.handed.desked}

theorem Tallied.emptied (w : World H.handed.desked) : w.emptied.Tallied where
  stacked := {
    stack := rfl
    ordered := List.Pairwise.nil
    above := by simp
    below := by simp
    fresh := by simp [World.emptied, World.desk, Roster.entries]
    moments := by simp [World.emptied, World.desk] }
  ticked := rfl

theorem units_returnedBy {n : Nat} (hv : v.units = (w.borrowedBy n).units) :
    (v.returnedBy n).units = w.units := by
  change ({ v.units with borrows := v.units.borrows - n } : UnitStore H.Signal) = _
  rw [hv]
  exact congrArg (·.units) (w.returnedBy_borrowedBy n)

theorem Tallied.reverse_entries (h : w.Tallied) (hover : ∀ key : Nat, w.hands[key]? ≠ some .running) :
    w.units.entries.reverse = Roster.standing w.desk.roster w.hands := by
  rw [h.stacked.reverse_entries]
  apply Roster.live_eq_standing h.ticked
  intro hrunning
  obtain ⟨key, hkey⟩ := List.getElem?_of_mem hrunning
  exact hover key hkey

theorem Tallied.mem_entries (h : w.Tallied) {key : Nat} {slot : Slot H.Signal} {hold : Hold}
    (hslot : w.desk.roster[key]? = some slot) (hhold : w.hands[key]? = some hold)
    (hne : hold ≠ .dropped) : slot.entry ∈ w.units.entries := by
  obtain ⟨slot', hslot', hdropped⟩ := h.slot hhold
  obtain rfl : slot = slot' := Option.some.inj (hslot.symm.trans hslot')
  have hlive : slot.entry ∈ Roster.live w.desk.roster :=
    Roster.mem_live hslot (by simp [hdropped, hne])
  rw [← h.stacked.reverse_entries] at hlive
  exact List.mem_reverse.mp hlive

theorem Kept.orphan (h : w.Kept v) {key : Nat} {slot : Slot H.Signal}
    (hslot : w.desk.roster[key]? = some slot) (horphaned : w.hands[key]? = some .orphaned) :
    v.hands[key]? = some .orphaned ∧ slot.entry ∈ v.units.entries := by
  have hstill := h.settled key .orphaned horphaned (by decide)
  obtain ⟨new, hnew, -⟩ := h.grown.roster
  obtain ⟨slot', hslot', hentry⟩ := Roster.getElem?_of_entries hnew hslot
  exact ⟨hstill, hentry ▸ h.tallied.mem_entries hslot' hstill (by decide)⟩

/-- The thread of the world when no look-up is in progress any more. -/
structure Recovered (w : World H.handed.desked) : Prop where
  pliant : w.Pliant
  stack : w.units.entries.reverse = Roster.standing w.desk.roster w.hands
  ordered : w.units.entries.reverse.Pairwise fun a b => a.guard < b.guard
  moments : ∀ m ∈ w.desk.moments, m.stack.reverse = Roster.live m.roster
  /-- Nothing that is done in another look-up changes the stack, however it ends. -/
  looks : ∀ {β φ : Type} (depth : Nat) (callback : Option (WorkUnit H.Signal) → Conduct H β φ),
    let inside := ((callback w.units.current?).play.run (w.borrowedBy (depth + 1))).2
    let after := (exec (lookups (H := H.handed.desked) depth fun unit =>
      bodyOf (H := H.handed) (callback unit).play) w).2
    inside.Rigid ∧ inside.units.entries = w.units.entries ∧
    after.Pliant ∧ after.units = w.units
  /-- A guard that is held takes off its own entry and no other, but if it is dropped in a look-up,
  it panics and is orphaned. -/
  held : ∀ (key : Nat) (slot : Slot H.Signal), w.desk.roster[key]? = some slot →
    w.hands[key]? = some .held →
    slot.entry ∈ w.units.entries ∧
    (∃ v, exec (Guard.leave (H := H.handed.desked) ⟨slot.entry.guard⟩) w = (.ok (), v) ∧
      v.units.entries.reverse = w.units.entries.reverse.filter (·.guard != slot.entry.guard)) ∧
    ∀ depth : Nat, exec (lookups (H := H.handed.desked) depth fun _ => dropHeld key) w =
      (.error .storeBorrowed, w.rehand (·.set key .orphaned))
  /-- The entry of an orphaned guard stays whatever is done later. -/
  orphaned : ∀ (key : Nat) (slot : Slot H.Signal), w.desk.roster[key]? = some slot →
    w.hands[key]? = some .orphaned → ∀ {β φ : Type} (later : Conduct H β φ),
    let v := (later.play.run w).2
    v.hands[key]? = some .orphaned ∧ slot.entry ∈ v.units.entries

theorem Tallied.looks (h : w.Tallied) (hidle : w.units.borrows = 0) (depth : Nat)
    (callback : Option (WorkUnit H.Signal) → Conduct H β φ) :
    let inside := ((callback w.units.current?).play.run (w.borrowedBy (depth + 1))).2
    let after := (exec (lookups (H := H.handed.desked) depth fun unit =>
      bodyOf (H := H.handed) (callback unit).play) w).2
    inside.Rigid ∧ inside.units.entries = w.units.entries ∧
    after.Pliant ∧ after.units = w.units := by
  intro inside after
  have hinside : inside.units = (w.borrowedBy (depth + 1)).units :=
    ((callback w.units.current?).play_kept _ (h.borrowedBy _)).rigid (Nat.succ_pos _)
  have hafter : after.units = w.units := by
    change (exec (lookups depth _) w).2.units = _
    rw [exec_lookups]
    exact units_returnedBy hinside
  refine ⟨rigid_of_borrowed ?_, ?_, pliant_of_idle ?_, hafter⟩
  · rw [hinside]
    exact Nat.succ_pos _
  · rw [hinside]
    rfl
  · rw [hafter, hidle]

theorem Tallied.exec_lookups_dropHeld (h : w.Tallied) {key : Nat}
    (hheld : w.hands[key]? = some .held) (depth : Nat) :
    exec (lookups (H := H.handed.desked) depth fun _ => dropHeld key) w =
      (.error .storeBorrowed, w.rehand (·.set key .orphaned)) := by
  obtain ⟨slot, hslot, -⟩ := h.slot hheld
  have hdrop : exec (dropHeld key) (w.borrowedBy (depth + 1)) =
      (.error .storeBorrowed, (w.rehand (·.set key .orphaned)).borrowedBy (depth + 1)) :=
    exec_dropHeld_of_borrowed (Nat.succ_pos _) hslot hheld
  rw [exec_lookups, hdrop, returnedBy_borrowedBy]

theorem Tallied.recovered (h : w.Tallied) (hidle : w.units.borrows = 0)
    (hover : ∀ key : Nat, w.hands[key]? ≠ some .running) : w.Recovered where
  pliant := pliant_of_idle hidle
  stack := h.reverse_entries hover
  ordered := by
    rw [h.stacked.reverse_entries]
    exact h.stacked.ordered.live
  moments m hm := by
    rw [(h.stacked.moments m hm).stack, List.append_nil, List.reverse_reverse]
  looks depth callback := h.looks hidle depth callback
  held key _ hslot hheld := ⟨h.mem_entries hslot hheld (by decide),
    h.stacked.exec_leave hidle hslot, h.exec_lookups_dropHeld hheld⟩
  orphaned _ _ hslot horphaned _ _ later := (later.play_kept w h).orphan hslot horphaned

end World

/-- Enters two units and, in a look-up, drops the guard of the second and tries to enter a third. The
look-up ends in a panic. The guard cannot be dropped again, and another unit can be entered. -/
def orphaning : Conduct Host.bare Unit Unit :=
  .enter .request fun _ => .enter .cache fun _ =>
    .look (fun _ => .drop 1 fun _ => .enter .prerenderLegacy fun _ =>
      .done (.error (.thrown ())) ()) fun _ =>
    .drop 1 fun _ => .enter .unstableCache fun _ => .done (.ok (.ready ())) ()

def leavingFirst : Conduct Host.bare Unit Unit := .drop 0 fun _ => .done (.ok (.ready ())) ()

end ReadBarrier
