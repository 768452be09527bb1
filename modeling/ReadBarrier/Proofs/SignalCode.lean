import ReadBarrier.Proofs.UnitStore

/-!
Signals that make use of the library themselves.

A signal is called by the library and may call it in turn: its code may enter and leave units, look
at the current one, and track imports, which calls further signals. Such code is told apart by where
it calls signals, openly or while it looks at the current unit. Openly called signals never find the
store borrowed, so that what they would do then makes no difference.
-/

namespace ReadBarrier

open Act

variable {H : Host} {α β : Type}

/-- The signals that code calls: openly, and while it looks at the current unit. -/
structure Reach (H : Host) where
  openly : Foreign H
  looking : Foreign H

/-- The reach of what is done during a look-up. -/
def Reach.covert (R : Reach H) : Reach H := ⟨R.looking, R.looking⟩

/-- Code that calls foreign signals. The units of its thread it reaches by entering them and leaving
or dropping their guards, and by looking at the current one. -/
inductive Code : {α : Type} → (Reach H → Act H α) → Type 1
  | pure {α : Type} (a : α) : Code fun _ => pure a
  | panic {α : Type} (p : Panic H) : Code fun _ => (throw p : Act H α)
  | bind {α β : Type} {body : Reach H → Act H α} {next : α → Reach H → Act H β}
      (hbody : Code body) (hnext : ∀ a, Code (next a)) : Code fun R => body R >>= (next · R)
  | attempt {α β : Type} {body : Reach H → Act H α} {next : Except (Panic H) α → Reach H → Act H β}
      (hbody : Code body) (hnext : ∀ r, Code (next r)) :
      Code fun R => (body R).attempt >>= (next · R)
  /-- Something else: the units of the thread stay as they are. -/
  | aside {α : Type} (body : Act H α) (hbody : ∀ w, (exec body w).2.units = w.units) :
      Code fun _ => body
  | enter (unit : WorkUnit H.Signal) : Code fun _ => unit.enter
  | leave (guard : Guard) : Code fun _ => guard.leave
  | drop (guard : Guard) : Code fun R => let _ := R.openly; guard.drop
  | look {α : Type} {look : Option (WorkUnit H.Signal) → Reach H → Act H α}
      (hlook : ∀ unit, Code (look unit)) : Code fun R => withCurrent (look · R.covert)
  | beginRead (signal : SignalRef H.Signal) : Code fun R => let _ := R.openly; signal.beginRead
  | endRead (signal : SignalRef H.Signal) : Code fun R => let _ := R.openly; signal.endRead

namespace Code

def always {body : Reach H → Act H α} {cleanup : Reach H → Act H Unit} (h : Code body)
    (hcleanup : Code cleanup) : Code fun R => (body R).always (cleanup R) :=
  let next (r : Except (Panic H) α) (R : Reach H) : Act H α :=
    match r with
    | .ok a => cleanup R >>= fun _ => Pure.pure a
    | .error p => (cleanup R).attempt >>= fun _ => throw p
  let hnext : (r : Except (Panic H) α) → Code (next r)
    | .ok a => hcleanup.bind fun _ => .pure a
    | .error p => hcleanup.attempt fun _ => .panic p
  h.attempt hnext

def onPanic {body : Reach H → Act H α} {cleanup : Reach H → Act H Unit} (h : Code body)
    (hcleanup : Code cleanup) : Code fun R => (body R).onPanic (cleanup R) :=
  let next (r : Except (Panic H) α) (R : Reach H) : Act H α :=
    match r with
    | .ok a => Pure.pure a
    | .error p => (cleanup R).attempt >>= fun _ => throw p
  let hnext : (r : Except (Panic H) α) → Code (next r)
    | .ok a => .pure a
    | .error p => hcleanup.attempt fun _ => .panic p
  h.attempt hnext

def run {body : Reach H → Act H α} (h : Code body) (unit : WorkUnit H.Signal) :
    Code fun R => unit.run (body R) :=
  (Code.enter unit).bind fun guard => h.always (.leave guard)

/-- Nothing that the code does during a look-up panics over the store: it does not enter or leave
units there. Nor does it panic so of its own accord. -/
def Heeds : {α : Type} → {code : Reach H → Act H α} → Code code → Prop
  | _, _, .panic p => p ≠ .storeBorrowed
  | _, _, .bind hbody hnext => hbody.Heeds ∧ ∀ a, (hnext a).Heeds
  | _, _, .attempt hbody hnext =>
    hbody.Heeds ∧ ∀ r, r ≠ .error .storeBorrowed → (hnext r).Heeds
  | _, _, .aside body _ => ∀ w, (exec body w).1 ≠ .error .storeBorrowed
  | _, _, @Code.look _ _ glance _ => ∀ unit R w, (exec (glance unit R) w).1 ≠ .error .storeBorrowed
  | _, _, .pure _ | _, _, .enter _ | _, _, .leave _ | _, _, .drop _ | _, _, .beginRead _
  | _, _, .endRead _ => True

variable {body : Reach H → Act H α} {cleanup : Reach H → Act H Unit} {h : Code body}
  {hcleanup : Code cleanup}

theorem Heeds.always (hbody : h.Heeds) (hc : hcleanup.Heeds) : (h.always hcleanup).Heeds := by
  refine ⟨hbody, ?_⟩
  rintro (p | a) hr
  · exact ⟨hc, fun _ _ hp => hr (congrArg Except.error hp)⟩
  · exact ⟨hc, fun _ => trivial⟩

theorem Heeds.onPanic (hbody : h.Heeds) (hc : hcleanup.Heeds) : (h.onPanic hcleanup).Heeds := by
  refine ⟨hbody, ?_⟩
  rintro (p | a) hr
  · exact ⟨hc, fun _ _ hp => hr (congrArg Except.error hp)⟩
  · trivial

theorem Heeds.run (hbody : h.Heeds) (unit : WorkUnit H.Signal) : (h.run unit).Heeds :=
  ⟨trivial, fun _ => hbody.always trivial⟩

end Code

/-! ### What comes of code -/

namespace Foreign

/-- The calls of these signals leave the store borrowed as often as it was. -/
structure Balanced (F : Foreign H) : Prop where
  beginRead : ∀ signal w, (exec (F.beginRead signal) w).2.units.borrows = w.units.borrows
  endRead : ∀ signal w, (exec (F.endRead signal) w).2.units.borrows = w.units.borrows
  retire : ∀ signal w, (exec (F.retire signal) w).2.units.borrows = w.units.borrows

/-- Where the store is not borrowed, the calls of these signals come out alike. -/
structure AgreeIdle (F G : Foreign H) : Prop where
  reactions : F.reactions = G.reactions
  retire : F.retire = G.retire
  beginRead : ∀ signal w, w.units.borrows = 0 →
    exec (F.beginRead signal) w = exec (G.beginRead signal) w
  endRead : ∀ signal w, w.units.borrows = 0 →
    exec (F.endRead signal) w = exec (G.endRead signal) w

/-- Where the store is not borrowed, the calls of these signals do not panic over it. -/
structure Heedful (F : Foreign H) : Prop where
  retire : ∀ signal w, (exec (F.retire signal) w).1 ≠ .error .storeBorrowed
  beginRead : ∀ signal w, w.units.borrows = 0 →
    (exec (F.beginRead signal) w).1 ≠ .error .storeBorrowed
  endRead : ∀ signal w, w.units.borrows = 0 →
    (exec (F.endRead signal) w).1 ≠ .error .storeBorrowed

end Foreign

theorem Guard.drop_congr {F G : Foreign H} (hretire : F.retire = G.retire) (guard : Guard) :
    @Guard.drop H F guard = @Guard.drop H G guard := by
  have hsignal (signal : SignalRef H.Signal) :
      @SignalRef.retire H F signal = @SignalRef.retire H G signal := by
    cases signal with
    | cache i => rfl
    | foreign signal => exact congrFun hretire signal
  simp only [Guard.drop, hsignal]

theorem Guard.borrows_drop {F : Foreign H} (hF : F.Balanced) (guard : Guard) (w : World H) :
    (exec guard.drop w).2.units.borrows = w.units.borrows := by
  have hsignal (signal : SignalRef H.Signal) (v : World H) :
      (exec signal.retire v).2.units.borrows = v.units.borrows := by
    cases signal with
    | cache i => rfl
    | foreign signal => exact hF.retire signal v
  rcases Nat.eq_zero_or_pos w.units.borrows with hidle | hborrowed
  · rw [exec_drop hidle, exec_leave hidle]
    rcases w.units.signalOf? guard with _ | signal
    · rfl
    · change (exec signal.retire _).2.units.borrows - 1 = _
      rw [hsignal]
      rfl
  · rw [exec_drop_of_borrowed hborrowed]

theorem Guard.drop_outcome {F : Foreign H} (hF : F.Heedful) (guard : Guard) {w : World H}
    (hidle : w.units.borrows = 0) : (exec guard.drop w).1 ≠ .error .storeBorrowed := by
  rw [exec_drop hidle, exec_leave hidle]
  rcases w.units.signalOf? guard with _ | (_ | signal)
  · simp
  · simp [SignalRef.retire]
  · exact hF.retire signal _

namespace Code

variable {R S : Reach H} {code : Reach H → Act H α}

/-- However code comes out, the store is borrowed as often as before. -/
theorem borrows (h : Code code) (hopenly : R.openly.Balanced) (hlooking : R.looking.Balanced)
    (w : World H) : (exec (code R) w).2.units.borrows = w.units.borrows := by
  induction h generalizing R w with
  | pure a => rfl
  | panic p => rfl
  | bind _ _ ihbody ihnext =>
    rw [exec_bind]
    have hbody := ihbody hopenly hlooking w
    rcases hran : exec _ w with ⟨p | a, v⟩
    · rw [hran] at hbody
      exact hbody
    · rw [hran] at hbody
      exact (ihnext a hopenly hlooking v).trans hbody
  | attempt _ _ ihbody ihnext =>
    rw [exec_bind, exec_attempt]
    exact (ihnext _ hopenly hlooking _).trans (ihbody hopenly hlooking w)
  | aside body hbody => rw [hbody]
  | enter unit =>
    rcases Nat.eq_zero_or_pos w.units.borrows with hidle | hborrowed
    · rw [exec_enter hidle]
    · rw [exec_enter_of_borrowed hborrowed]
      rfl
  | leave guard =>
    rcases Nat.eq_zero_or_pos w.units.borrows with hidle | hborrowed
    · rw [exec_leave hidle]
    · rw [exec_leave_of_borrowed hborrowed]
  | drop guard => exact guard.borrows_drop hopenly w
  | look _ ih =>
    -- in there the store is borrowed once more, and no signal is called openly
    rw [exec_withCurrent]
    have hlook := ih w.units.current? hlooking hlooking w.borrowed (R := R.covert)
    change (exec _ w.borrowed).2.units.borrows - 1 = w.units.borrows
    rw [hlook]
    rfl
  | beginRead signal =>
    cases signal with
    | cache i => rfl
    | foreign signal => exact hopenly.beginRead signal w
  | endRead signal =>
    cases signal with
    | cache i => rfl
    | foreign signal => exact hopenly.endRead signal w

/-- Code that finds the store idle does not depend on what the signals that it calls openly do in a
borrowed one. -/
theorem exec_congr (h : Code code) (hopenly : R.openly.Balanced) (hlooking : R.looking.Balanced)
    (hsame : R.looking = S.looking) (hagree : R.openly.AgreeIdle S.openly) (w : World H)
    (hidle : w.units.borrows = 0) : exec (code R) w = exec (code S) w := by
  induction h generalizing w with
  | pure a => rfl
  | panic p => rfl
  | bind hbody _ ihbody ihnext =>
    -- the body gives back what it borrows, so that what follows finds the store idle again
    have hborrows := hbody.borrows hopenly hlooking w
    rw [exec_bind, exec_bind, ← ihbody w hidle]
    rcases hran : exec _ w with ⟨p | a, v⟩
    · rfl
    · rw [hran] at hborrows
      exact ihnext a v (hborrows.trans hidle)
  | attempt hbody _ ihbody ihnext =>
    have hborrows := hbody.borrows hopenly hlooking w
    rw [exec_bind, exec_bind, exec_attempt, exec_attempt, ← ihbody w hidle]
    exact ihnext _ _ (hborrows.trans hidle)
  | aside body hbody => rfl
  | enter unit => rfl
  | leave guard => rfl
  | drop guard => exact congrArg (exec · w) (guard.drop_congr hagree.retire)
  | look _ _ =>
    -- nothing is called openly in there
    have hcovert : R.covert = S.covert := by simp only [Reach.covert, hsame]
    simp only [hcovert]
  | beginRead signal =>
    cases signal with
    | cache i => simp only [SignalRef.beginRead, exec_settle, World.settle, hagree.reactions]
    | foreign signal => exact hagree.beginRead signal w hidle
  | endRead signal =>
    cases signal with
    | cache i => simp only [SignalRef.endRead, exec_settle, World.settle, hagree.reactions]
    | foreign signal => exact hagree.endRead signal w hidle

/-- Code that heeds the look-ups, and finds the store idle, does not panic over it. -/
theorem Heeds.outcome {h : Code code} (hheeds : h.Heeds) (hopenly : R.openly.Balanced)
    (hlooking : R.looking.Balanced) (hheedful : R.openly.Heedful) (w : World H)
    (hidle : w.units.borrows = 0) : (exec (code R) w).1 ≠ .error .storeBorrowed := by
  induction h generalizing w with
  | pure a => simp
  | panic p =>
    intro hp
    exact hheeds (Except.error.inj hp)
  | bind hbody _ ihbody ihnext =>
    have hborrows := hbody.borrows hopenly hlooking w
    have houtcome := ihbody hheeds.1 w hidle
    rw [exec_bind]
    rcases hran : exec _ w with ⟨p | a, v⟩
    · rw [hran] at houtcome
      intro hp
      exact houtcome (congrArg Except.error (Except.error.inj hp))
    · rw [hran] at hborrows
      exact ihnext a (hheeds.2 a) v (hborrows.trans hidle)
  | attempt hbody _ ihbody ihnext =>
    have hborrows := hbody.borrows hopenly hlooking w
    have houtcome := ihbody hheeds.1 w hidle
    rw [exec_bind, exec_attempt]
    exact ihnext _ (hheeds.2 _ houtcome) _ (hborrows.trans hidle)
  | aside body hbody => exact hheeds w
  | enter unit => simp [exec_enter hidle]
  | leave guard => simp [exec_leave hidle]
  | drop guard => exact guard.drop_outcome hheedful hidle
  | look _ _ =>
    rw [exec_withCurrent]
    exact hheeds _ _ _
  | beginRead signal =>
    cases signal with
    | cache i => simp [SignalRef.beginRead, exec_settle]
    | foreign signal => exact hheedful.beginRead signal w hidle
  | endRead signal =>
    cases signal with
    | cache i => simp [SignalRef.endRead, exec_settle]
    | foreign signal => exact hheedful.endRead signal w hidle

end Code

/-! ### Signals -/

/-- What foreign signals do. Their code calls signals in turn, but for what is left of a signal when
a guard is dropped: that neither calls them nor changes the units. -/
structure SignalCode (H : Host) where
  beginRead : H.Signal → Reach H → Act H Unit
  endRead : H.Signal → Reach H → Act H Unit
  retire : H.Signal → Act H Unit
  reactions : Reactions H.Waker
  code_beginRead : ∀ signal, Code (beginRead signal)
  code_endRead : ∀ signal, Code (endRead signal)
  units_retire : ∀ signal w, (exec (retire signal) w).2.units = w.units

/-- Does `body` unless the store is borrowed. -/
def unlessBorrowed (otherwise body : Act H Unit) : Act H Unit := do
  if (← get).units.borrows = 0 then body else otherwise

theorem exec_unlessBorrowed {w : World H} (hidle : w.units.borrows = 0)
    (otherwise body : Act H Unit) : exec (unlessBorrowed otherwise body) w = exec body w := by
  rw [unlessBorrowed, exec_bind, exec_get]
  simp only
  rw [if_pos hidle]

namespace SignalCode

variable (signals : SignalCode H)

/-- The signals, calling each other to this depth. Those that would go deeper do nothing. -/
@[reducible]
def foreign : Nat → Foreign H
  | 0 =>
    { beginRead := fun _ => pure ()
      endRead := fun _ => pure ()
      retire := signals.retire
      reactions := signals.reactions }
  | depth + 1 =>
    { beginRead := (signals.beginRead · ⟨foreign depth, foreign depth⟩)
      endRead := (signals.endRead · ⟨foreign depth, foreign depth⟩)
      retire := signals.retire
      reactions := signals.reactions }

/-- The same signals, but that each of them does something else when it is called openly and finds
the store borrowed. -/
@[reducible]
def guarded (otherwise : H.Signal → Act H Unit) : Nat → Foreign H
  | 0 =>
    { beginRead := fun signal => unlessBorrowed (otherwise signal) (pure ())
      endRead := fun signal => unlessBorrowed (otherwise signal) (pure ())
      retire := signals.retire
      reactions := signals.reactions }
  | depth + 1 =>
    { beginRead := fun signal => unlessBorrowed (otherwise signal)
        (signals.beginRead signal ⟨guarded otherwise depth, signals.foreign depth⟩)
      endRead := fun signal => unlessBorrowed (otherwise signal)
        (signals.endRead signal ⟨guarded otherwise depth, signals.foreign depth⟩)
      retire := signals.retire
      reactions := signals.reactions }

/-- These signals, whether they are called openly or not. -/
def reach (depth : Nat) : Reach H := ⟨signals.foreign depth, signals.foreign depth⟩

/-- These signals, where those that are called openly do something else in a borrowed store. -/
def guardedReach (otherwise : H.Signal → Act H Unit) (depth : Nat) : Reach H :=
  ⟨signals.guarded otherwise depth, signals.foreign depth⟩

theorem balanced (depth : Nat) : (signals.foreign depth).Balanced := by
  have hretire (signal : H.Signal) (w : World H) :
      (exec (signals.retire signal) w).2.units.borrows = w.units.borrows := by
    rw [signals.units_retire]
  induction depth with
  | zero => exact ⟨fun _ _ => rfl, fun _ _ => rfl, hretire⟩
  | succ depth ih =>
    exact ⟨fun signal => (signals.code_beginRead signal).borrows ih ih,
      fun signal => (signals.code_endRead signal).borrows ih ih, hretire⟩

theorem agree_guarded (otherwise : H.Signal → Act H Unit) (depth : Nat) :
    (signals.foreign depth).AgreeIdle (signals.guarded otherwise depth) := by
  induction depth with
  | zero =>
    exact ⟨rfl, rfl, fun _ _ hidle => (exec_unlessBorrowed hidle _ _).symm,
      fun _ _ hidle => (exec_unlessBorrowed hidle _ _).symm⟩
  | succ depth ih =>
    have hbalanced := signals.balanced depth
    constructor
    · rfl
    · rfl
    · intro signal w hidle
      exact ((signals.code_beginRead signal).exec_congr (R := signals.reach depth)
        (S := signals.guardedReach otherwise depth) hbalanced hbalanced rfl ih w hidle).trans
        (exec_unlessBorrowed hidle _ _).symm
    · intro signal w hidle
      exact ((signals.code_endRead signal).exec_congr (R := signals.reach depth)
        (S := signals.guardedReach otherwise depth) hbalanced hbalanced rfl ih w hidle).trans
        (exec_unlessBorrowed hidle _ _).symm

/-- These signals do not enter or leave units while they look at the current one. -/
structure Heeds : Prop where
  beginRead : ∀ signal, (signals.code_beginRead signal).Heeds
  endRead : ∀ signal, (signals.code_endRead signal).Heeds
  retire : ∀ signal w, (exec (signals.retire signal) w).1 ≠ .error .storeBorrowed

variable {signals}

theorem Heeds.heedful (h : signals.Heeds) (depth : Nat) : (signals.foreign depth).Heedful := by
  induction depth with
  | zero =>
    have hdone : (Except.ok () : Except (Panic H) Unit) ≠ .error .storeBorrowed := nofun
    exact ⟨h.retire, fun _ _ _ => hdone, fun _ _ _ => hdone⟩
  | succ depth ih =>
    have hbalanced := signals.balanced depth
    exact ⟨h.retire, fun signal => (h.beginRead signal).outcome hbalanced hbalanced ih,
      fun signal => (h.endRead signal).outcome hbalanced hbalanced ih⟩

end SignalCode

end ReadBarrier
