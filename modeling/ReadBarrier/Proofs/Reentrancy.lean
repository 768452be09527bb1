import ReadBarrier.Proofs.EntryPoint
import ReadBarrier.Proofs.SignalCode

/-!
How the library calls foreign code.

None of the library's operations calls a signal, or other code that it was given, while the store of
units is borrowed, since it looks first and calls afterwards. The calls of an operation can be read
off from the way in which it is built. Between one call and the next the units stay as they are, and
a panic over the store can only come out of one of the calls.
-/

namespace ReadBarrier

open Act

variable {H : Host} {α β φ ι : Type}

namespace Act

theorem ext {a b : Act H α} (h : ∀ w, exec a w = exec b w) : a = b := funext h

/-- A poll as a body of code, which panics where the poll does. -/
def polling (poll : Run H (Outcome H α × φ)) : Act H (Poll α × φ) :=
  ExceptT.mk ((fun polled => polled.1.map (·, polled.2)) <$> poll)

end Act

/-! ### Calls -/

/-- A call of foreign code: of a signal, or of code that an operation is given. -/
inductive Call (H : Host) : Type → Type 1
  | beginRead (signal : H.Signal) : Call H Unit
  | endRead (signal : H.Signal) : Call H Unit
  | given {α : Type} (code : Reach H → Act H α) : Call H α

def Call.act (R : Reach H) : Call H α → Act H α
  | .beginRead signal => R.openly.beginRead signal
  | .endRead signal => R.openly.endRead signal
  | .given code => code R

/-- A call together with the world in which it is made. -/
structure Made (H : Host) where
  {α : Type}
  call : Call H α
  world : World H

namespace Made

variable (R : Reach H)

/-- The world after the call. -/
def after (m : Made H) : World H := (exec (m.call.act R) m.world).2

/-- The call panics over the store. -/
def Slips (m : Made H) : Prop := (exec (m.call.act R) m.world).1 = .error .storeBorrowed

/-- The units are handed from one call to the next, and nothing else changes them. -/
def Handed : UnitStore H.Signal → List (Made H) → UnitStore H.Signal → Prop
  | s, [], t => s = t
  | s, m :: calls, t => m.world.units = s ∧ Handed (m.after R).units calls t

variable {R}

theorem Handed.append {s t u : UnitStore H.Signal} {calls calls' : List (Made H)}
    (h : Handed R s calls t) (h' : Handed R t calls' u) : Handed R s (calls ++ calls') u := by
  induction calls generalizing s with
  | nil =>
    cases h
    exact h'
  | cons m calls ih => exact ⟨h.1, ih h.2⟩

end Made

/-! ### The operations of the library -/

/-- A poll of a tracked import is one of the inner future, after which the lease may go. -/
theorem TrackedImport.polling_poll [Foreign H] (t : TrackedImport H.Signal φ)
    (inner : Run H (Outcome H α × φ)) :
    polling (t.poll inner) = do
      match ← polling inner with
      | (.ready value, rest) =>
        ReadLease.releaseAny t.lease
        return (.ready value, ⟨rest, none⟩)
      | (.pending, rest) => return (.pending, { t with inner := rest }) := by
  apply Act.ext
  intro w
  let visit : Visit H φ α := ⟨id, fun _ => inner⟩
  have hpoll : exec (polling (t.poll inner)) w =
      ((visit.tracked t w).1.1.map (·, (visit.tracked t w).1.2), (visit.tracked t w).2) := rfl
  have hinner : exec (polling inner) w =
      ((visit.alone t.inner w).1.1.map (·, (visit.alone t.inner w).1.2),
        (visit.alone t.inner w).2) := rfl
  rw [hpoll, exec_bind, hinner]
  rcases hvisit : visit.alone t.inner w with ⟨⟨p | ⟨value⟩ | _, rest⟩, v⟩
  · rw [t.poll_of_unfinished hvisit trivial]
    rfl
  · rw [t.poll_of_ready hvisit]
    simp only [Except.map, exec_bind]
    rcases exec (ReadLease.releaseAny t.lease) v with ⟨_ | ⟨⟩, u⟩ <;> rfl
  · rw [t.poll_of_unfinished hvisit trivial]
    rfl

/-- What the library does with signals and with other code that it is given. Of its own accord it
enters and leaves no unit, and looks at the current one only to read it. -/
inductive Built : {α : Type} → (Reach H → Act H α) → Type 1
  | pure {α : Type} (a : α) : Built fun _ => pure a
  | bind {α β : Type} {body : Reach H → Act H α} {next : α → Reach H → Act H β}
      (hbody : Built body) (hnext : ∀ a, Built (next a)) : Built fun R => body R >>= (next · R)
  | always {α : Type} {body : Reach H → Act H α} {cleanup : Reach H → Act H Unit}
      (hbody : Built body) (hcleanup : Built cleanup) :
      Built fun R => (body R).always (cleanup R)
  | onPanic {α : Type} {body : Reach H → Act H α} {cleanup : Reach H → Act H Unit}
      (hbody : Built body) (hcleanup : Built cleanup) :
      Built fun R => (body R).onPanic (cleanup R)
  | record (event : Event H) : Built fun _ => Act.record event
  | read {α : Type} (f : Option (WorkUnit H.Signal) → α) :
      Built fun _ => withCurrent fun unit => pure (f unit)
  | beginRead (signal : SignalRef H.Signal) : Built fun R => let _ := R.openly; signal.beginRead
  | endRead (signal : SignalRef H.Signal) : Built fun R => let _ := R.openly; signal.endRead
  | given {α : Type} {code : Reach H → Act H α} (hcode : Code code) : Built code
  /-- The same, written in another way. -/
  | same {α : Type} {op op' : Reach H → Act H α} (h : op = op') (hop : Built op') : Built op

namespace Built

/-- What is built is code in its turn. -/
def code : {α : Type} → {op : Reach H → Act H α} → Built op → Code op
  | _, _, .pure a => .pure a
  | _, _, .bind hbody hnext => hbody.code.bind fun a => (hnext a).code
  | _, _, .always hbody hcleanup => hbody.code.always hcleanup.code
  | _, _, .onPanic hbody hcleanup => hbody.code.onPanic hcleanup.code
  | _, _, .record _ => .aside _ fun _ => rfl
  | _, _, .read f => .look fun unit => .pure (f unit)
  | _, _, .beginRead signal => .beginRead signal
  | _, _, .endRead signal => .endRead signal
  | _, _, .given hcode => hcode
  | _, _, .same h hop => h ▸ hop.code

/-- The calls that are made in a run from this world, in their order. -/
def calls (R : Reach H) :
    {α : Type} → {op : Reach H → Act H α} → Built op → World H → List (Made H)
  | _, _, @Built.bind _ _ _ body _ hbody hnext, w =>
    hbody.calls R w ++
      match exec (body R) w with
      | (.ok a, v) => (hnext a).calls R v
      | (.error _, _) => []
  | _, _, @Built.always _ _ body _ hbody hcleanup, w =>
    hbody.calls R w ++ hcleanup.calls R (exec (body R) w).2
  | _, _, @Built.onPanic _ _ body _ hbody hcleanup, w =>
    hbody.calls R w ++
      match exec (body R) w with
      | (.ok _, _) => []
      | (.error _, v) => hcleanup.calls R v
  | _, _, .beginRead (.foreign signal), w => [⟨.beginRead signal, w⟩]
  | _, _, .endRead (.foreign signal), w => [⟨.endRead signal, w⟩]
  | _, _, @Built.given _ _ code _, w => [⟨.given code, w⟩]
  | _, _, .same _ hop, w => hop.calls R w
  | _, _, .pure _, _ | _, _, .record _, _ | _, _, .read _, _ | _, _, .beginRead (.cache _), _
  | _, _, .endRead (.cache _), _ => []

def map {body : Reach H → Act H α} (h : Built body) (f : α → β) : Built fun R => f <$> body R :=
  .same (funext fun R => map_eq_pure_bind f (body R)) (h.bind fun a => .pure (f a))

def begin (signal : SignalRef H.Signal) :
    Built fun R => let _ := R.openly; ReadLease.begin signal :=
  (Built.beginRead signal).bind fun _ => (Built.record _).bind fun _ => .pure _

def beginCurrent : Built (H := H) fun R => let _ := R.openly; ReadLease.beginCurrent :=
  (Built.read fun unit => unit.bind WorkUnit.signal?).bind fun
    | none => .pure none
    | some signal => (begin signal).map some

def release (lease : ReadLease H.Signal) : Built fun R => let _ := R.openly; lease.release :=
  (Built.endRead lease.signal).bind fun _ => .record _

def releaseAny : (lease : Option (ReadLease H.Signal)) →
    Built fun R => let _ := R.openly; ReadLease.releaseAny lease
  | none => .pure ()
  | some lease => release lease

def inCall {body : Reach H → Act H α} (h : Built body) (name : String) :
    Built fun R => inCall name (body R) :=
  (Built.record _).bind fun _ => h.always (.record _)

section Track

variable {imports : Reach H → Import H ι φ}

def trackImport {source : ι} (hstart : Built fun R => (imports R).start source)
    (hdiscard : Built fun R => (imports R).discard source) :
    Built fun R => let _ := R.openly; let _ := imports R; ReadBarrier.trackImport source :=
  (beginCurrent.onPanic hdiscard).bind fun lease =>
    (hstart.onPanic (releaseAny lease)).bind fun _ => .pure _

def trackImportWith {make : Reach H → Act H ι} (hmake : Built make)
    (hstart : ∀ source, Built fun R => (imports R).start source) :
    Built fun R => let _ := R.openly; let _ := imports R; ReadBarrier.trackImportWith (make R) :=
  beginCurrent.bind fun lease =>
    ((hmake.bind hstart).onPanic (releaseAny lease)).bind fun _ => .pure _

variable (hstart : ∀ source, Built fun R => (imports R).start source)
  (hdiscard : ∀ source, Built fun R => (imports R).discard source)

def trackCompletion : (value : Completion α ι) →
    Built fun R => let _ := R.openly; let _ := imports R; Trackable.track value
  | .ready _ => .pure _
  | .pending source => (trackImport (hstart source) (hdiscard source)).map _

def trackLayers {ε : Nat → Type} : (n : Nat) → (result : Layers ε n (Completion α ι)) →
    Built fun R => let _ := R.openly; let _ := imports R; Trackable.track result
  | 0, result => trackCompletion hstart hdiscard (result : Completion α ι)
  | _ + 1, .error _ => .pure _
  | n + 1, .ok result => (trackLayers n result).map Except.ok

end Track

section Load

variable {discards : Reach H → Discard H φ}
  (hdiscard : ∀ load, Built fun R => (discards R).discard load)

/-- A load in flight is discarded by discarding the raw one in it and releasing the leases. -/
def discardLoad : (load : LoadFuture H.Signal φ) →
    Built fun R => let _ := R.openly; load.discard (discards R).discard
  | .raw load => hdiscard load
  | .tracked ⟨inner, lease⟩ => (discardLoad inner).always (releaseAny lease)

/-- What a loader hands back is an import that has started. -/
def trackLoad {ε : Type} (result : Completion (LoadResult ε) (LoadFuture H.Signal φ)) :
    Built fun R => let _ := R.openly; let _ := discards R; Trackable.track result :=
  trackCompletion (fun _ => .pure _) (discardLoad hdiscard) result

def callLoader {κ ε : Type}
    {run : Reach H → κ → String → Act H (Completion (LoadResult ε) (LoadFuture H.Signal φ))}
    (hrun : ∀ code specifier, Built fun R => run R code specifier) :
    (func : LoaderFunction κ) → (specifier : String) →
    Built fun R => let _ := R.openly; let _ := discards R; func.call (run R) specifier
  | .raw code, specifier => hrun code specifier
  | .tracked name inner, specifier =>
    (((callLoader hrun inner specifier).bind (trackLoad hdiscard)).inCall name).bind fun _ => .pure _

end Load

def poll (t : TrackedImport H.Signal φ) {inner : Reach H → Run H (Outcome H α × φ)}
    (h : Built fun R => polling (inner R)) :
    Built fun R => let _ := R.openly; polling (t.poll (inner R)) :=
  .same (funext fun R => @TrackedImport.polling_poll _ _ _ R.openly t (inner R)) <| h.bind fun
    | (.ready _, _) => (releaseAny t.lease).bind fun _ => .pure _
    | (.pending, _) => .pure _

end Built

/-! ### What comes of an operation -/

open Made

/-- The store is idle at every call and at the end, the calls hand on the units, and a panic over
the store is that of one of the calls. -/
structure Ends (R : Reach H) (w : World H) (calls : List (Made H))
    (out : Except (Panic H) α × World H) : Prop where
  idle : out.2.units.borrows = 0
  calls_idle : ∀ m ∈ calls, m.world.units.borrows = 0
  handed : Handed R w.units calls out.2.units
  slips : out.1 = .error .storeBorrowed → ∃ m ∈ calls, m.Slips R

section Ends

variable {R : Reach H} {w v : World H} {calls calls' : List (Made H)}

theorem Ends.of_own {out : Except (Panic H) α × World H} (hidle : w.units.borrows = 0)
    (hout : out.1 ≠ .error .storeBorrowed) (hunits : out.2.units = w.units) :
    Ends R w [] out where
  idle := hunits ▸ hidle
  calls_idle := by simp
  handed := hunits.symm
  slips hpanic := absurd hpanic hout

theorem Ends.of_call (m : Made H) (hidle : m.world.units.borrows = 0)
    (hborrows : (m.after R).units.borrows = m.world.units.borrows) :
    Ends R m.world [m] (exec (m.call.act R) m.world) where
  idle := hborrows.trans hidle
  calls_idle := by simpa using hidle
  handed := ⟨rfl, rfl⟩
  slips hpanic := ⟨m, by simp, hpanic⟩

theorem Ends.trans {r : Except (Panic H) α} {out : Except (Panic H) β × World H}
    (h : Ends R w calls (r, v)) (h' : Ends R v calls' out) : Ends R w (calls ++ calls') out where
  idle := h'.idle
  calls_idle m hm := by
    rcases List.mem_append.mp hm with hm | hm
    · exact h.calls_idle m hm
    · exact h'.calls_idle m hm
  handed := h.handed.append h'.handed
  slips hpanic := by
    obtain ⟨m, hm, hslips⟩ := h'.slips hpanic
    exact ⟨m, List.mem_append_right _ hm, hslips⟩

/-- A panic outlives the cleanup after it. -/
theorem Ends.cleanup {p : Panic H} {out : Except (Panic H) Unit × World H}
    (h : Ends R w calls ((.error p : Except (Panic H) α), v)) (h' : Ends R v calls' out) :
    Ends R w (calls ++ calls') ((.error p : Except (Panic H) β), out.2) where
  idle := h'.idle
  calls_idle := (h.trans h').calls_idle
  handed := (h.trans h').handed
  slips hpanic := by
    have hp : p = .storeBorrowed := Except.error.inj hpanic
    obtain ⟨m, hm, hslips⟩ := h.slips (congrArg Except.error hp)
    exact ⟨m, List.mem_append_left _ hm, hslips⟩

/-- A cleanup decides only whether there is an answer. -/
theorem Ends.answer {a : β} {out : Except (Panic H) Unit × World H} (h : Ends R w calls out) :
    Ends R w calls (out.1.map fun _ => a, out.2) where
  idle := h.idle
  calls_idle := h.calls_idle
  handed := h.handed
  slips hpanic := by
    apply h.slips
    rcases hout : out.1 with p | ⟨⟩
    · simpa [hout, Except.map] using hpanic
    · simp [hout, Except.map] at hpanic

theorem Built.ends (hopenly : R.openly.Balanced) (hlooking : R.looking.Balanced)
    {op : Reach H → Act H α} (h : Built op) (w : World H) (hidle : w.units.borrows = 0) :
    Ends R w (h.calls R w) (exec (op R) w) := by
  -- along the way in which the operation is built: the calls of its parts hand on to each other
  induction h generalizing w with
  | pure a => exact .of_own hidle (by simp) rfl
  | bind _ _ ihbody ihnext =>
    have hbody := ihbody w hidle
    rw [exec_bind, calls]
    rcases hran : exec _ w with ⟨p | a, v⟩
    · rw [hran] at hbody
      exact hbody.cleanup (.of_own hbody.idle (by simp) rfl : Ends R v [] (.ok (), v))
    · rw [hran] at hbody
      exact hbody.trans (ihnext a v hbody.idle)
  | always _ _ ihbody ihcleanup =>
    have hbody := ihbody w hidle
    rw [exec_always, calls]
    rcases hran : exec _ w with ⟨p | a, v⟩
    · rw [hran] at hbody
      exact hbody.cleanup (ihcleanup v hbody.idle)
    · rw [hran] at hbody
      exact (hbody.trans (ihcleanup v hbody.idle)).answer
  | onPanic _ _ ihbody ihcleanup =>
    have hbody := ihbody w hidle
    rw [exec_onPanic, calls]
    rcases hran : exec _ w with ⟨p | a, v⟩
    · rw [hran] at hbody
      exact hbody.cleanup (ihcleanup v hbody.idle)
    · rw [hran] at hbody
      simpa using hbody
  | record event => exact .of_own hidle (by simp) rfl
  | read f => exact .of_own hidle (by simp [exec_withCurrent_pure]) rfl
  | beginRead signal =>
    cases signal with
    | cache i => exact .of_own hidle (by simp [SignalRef.beginRead, exec_settle]) rfl
    | foreign signal => exact .of_call ⟨.beginRead signal, w⟩ hidle (hopenly.beginRead signal w)
  | endRead signal =>
    cases signal with
    | cache i => exact .of_own hidle (by simp [SignalRef.endRead, exec_settle]) rfl
    | foreign signal => exact .of_call ⟨.endRead signal, w⟩ hidle (hopenly.endRead signal w)
  | given hcode => exact .of_call ⟨.given _, w⟩ hidle (hcode.borrows hopenly hlooking w)
  | same h _ ih =>
    subst h
    exact ih w hidle

end Ends

/-- The operations that call signals. Whatever else they call is code that they are given. -/
inductive Operation : {τ : Type} → (Reach H → Act H τ) → Type 1
  | beginCurrent : Operation fun R => let _ := R.openly; ReadLease.beginCurrent
  | begin (signal : SignalRef H.Signal) :
      Operation fun R => let _ := R.openly; ReadLease.begin signal
  | release (lease : ReadLease H.Signal) : Operation fun R => let _ := R.openly; lease.release
  | trackImport {ι φ : Type} (imports : Reach H → Import H ι φ) (source : ι)
      (hstart : Code fun R => (imports R).start source)
      (hdiscard : Code fun R => (imports R).discard source) :
      Operation fun R => let _ := R.openly; let _ := imports R; trackImport source
  | trackImportWith {ι φ : Type} (imports : Reach H → Import H ι φ) (make : Reach H → Act H ι)
      (hmake : Code make) (hstart : ∀ source, Code fun R => (imports R).start source) :
      Operation fun R => let _ := R.openly; let _ := imports R; trackImportWith (make R)
  | trackCompletion {ι φ α : Type} (imports : Reach H → Import H ι φ) (value : Completion α ι)
      (hstart : ∀ source, Code fun R => (imports R).start source)
      (hdiscard : ∀ source, Code fun R => (imports R).discard source) :
      Operation fun R => let _ := R.openly; let _ := imports R; trackCompletion? value
  | call {ι φ α β : Type} {ε : Nat → Type} {n : Nat} (imports : Reach H → Import H ι φ)
      (name : String) (func : Reach H → β → Act H (Layers ε n (Completion α ι))) (argument : β)
      (hfunc : Code fun R => func R argument)
      (hstart : ∀ source, Code fun R => (imports R).start source)
      (hdiscard : ∀ source, Code fun R => (imports R).discard source) :
      Operation fun R => let _ := R.openly; let _ := imports R;
        (TrackedFunction.mk name (func R)).call argument
  | callAsync {ι φ β : Type} (imports : Reach H → Import H ι φ) (name : String)
      (func : Reach H → β → Act H ι) (argument : β) (hfunc : Code fun R => func R argument)
      (hstart : ∀ source, Code fun R => (imports R).start source)
      (hdiscard : ∀ source, Code fun R => (imports R).discard source) :
      Operation fun R => let _ := R.openly; let _ := imports R;
        (TrackedFunction.mk name (func R)).callAsync argument
  | load {κ ε φ : Type} (discards : Reach H → Discard H φ)
      (run : Reach H → κ → String → Act H (Completion (LoadResult ε) (LoadFuture H.Signal φ)))
      (loader : Loader κ) (specifier : String)
      (hrun : ∀ code specifier, Code fun R => run R code specifier)
      (hdiscard : ∀ load, Code fun R => (discards R).discard load) :
      Operation fun R => let _ := R.openly; let _ := discards R; loader.call (run R) specifier
  | poll {φ α : Type} (t : TrackedImport H.Signal φ)
      (inner : Reach H → Run H (Outcome H α × φ)) (hinner : Code fun R => polling (inner R)) :
      Operation fun R => let _ := R.openly; polling (t.poll (inner R))
  | discard {φ : Type} (t : TrackedImport H.Signal φ) (inner : Reach H → Act H Unit)
      (hinner : Code inner) : Operation fun R => let _ := R.openly; t.discard (inner R)

/-- How the operations are built from the code that they are given. -/
def Operation.built {op : Reach H → Act H α} : Operation op → Built op
  | .beginCurrent => .beginCurrent
  | .begin signal => .begin signal
  | .release lease => .release lease
  | .trackImport _ _ hstart hdiscard => .trackImport (.given hstart) (.given hdiscard)
  | .trackImportWith _ _ hmake hstart =>
    .trackImportWith (.given hmake) fun source => .given (hstart source)
  | .trackCompletion _ (.ready _) _ _ => .pure _
  | .trackCompletion _ (.pending source) hstart hdiscard =>
    (Built.trackImport (.given (hstart source)) (.given (hdiscard source))).map Except.ok
  | .call _ _ _ _ hfunc hstart hdiscard =>
    let htrack := Built.trackLayers (fun source => .given (hstart source))
      (fun source => .given (hdiscard source)) _
    ((Built.given hfunc).bind htrack).inCall _
  | .callAsync _ _ _ _ hfunc hstart hdiscard =>
    ((Built.given hfunc).bind fun source =>
      .trackImport (.given (hstart source)) (.given (hdiscard source))).inCall _
  | .load _ _ loader specifier hrun hdiscard =>
    .callLoader (fun load => .given (hdiscard load))
      (fun code specifier => .given (hrun code specifier)) loader.func specifier
  | .poll t _ hinner => .poll t (.given hinner)
  | .discard t _ hinner => (Built.given hinner).always (.releaseAny t.lease)

/-! ### Heeding the look-ups -/

namespace Built

/-- The code that it is given heeds the look-ups. -/
def Heeds : {α : Type} → {op : Reach H → Act H α} → Built op → Prop
  | _, _, .bind hbody hnext => hbody.Heeds ∧ ∀ a, (hnext a).Heeds
  | _, _, .always hbody hcleanup => hbody.Heeds ∧ hcleanup.Heeds
  | _, _, .onPanic hbody hcleanup => hbody.Heeds ∧ hcleanup.Heeds
  | _, _, .given hcode => hcode.Heeds
  | _, _, .same _ hop => hop.Heeds
  | _, _, .pure _ | _, _, .record _ | _, _, .read _ | _, _, .beginRead _ | _, _, .endRead _ => True

/-- The library itself does nothing in a look-up. -/
theorem Heeds.code {op : Reach H → Act H α} {h : Built op} (hheeds : h.Heeds) : h.code.Heeds := by
  induction h with
  | pure | beginRead | endRead => trivial
  | bind _ _ ihbody ihnext => exact ⟨ihbody hheeds.1, fun a => ihnext a (hheeds.2 a)⟩
  | always _ _ ihbody ihcleanup => exact (ihbody hheeds.1).always (ihcleanup hheeds.2)
  | onPanic _ _ ihbody ihcleanup => exact (ihbody hheeds.1).onPanic (ihcleanup hheeds.2)
  | record event => exact fun w => by simp
  | read f => exact fun unit R w => by simp
  | given hcode => exact hheeds
  | same h _ ih =>
    subst h
    exact ih hheeds

theorem Heeds.map {body : Reach H → Act H α} {h : Built body} (hbody : h.Heeds) (f : α → β) :
    (h.map f).Heeds :=
  ⟨hbody, fun _ => trivial⟩

theorem heeds_begin (signal : SignalRef H.Signal) : (begin signal).Heeds :=
  ⟨trivial, fun _ => ⟨trivial, fun _ => trivial⟩⟩

theorem heeds_beginCurrent : (beginCurrent (H := H)).Heeds := by
  refine ⟨trivial, ?_⟩
  rintro (_ | signal)
  · trivial
  · exact (heeds_begin signal).map some

theorem heeds_release (lease : ReadLease H.Signal) : (release lease).Heeds :=
  ⟨trivial, fun _ => trivial⟩

theorem heeds_releaseAny (lease : Option (ReadLease H.Signal)) : (releaseAny lease).Heeds := by
  cases lease with
  | none => trivial
  | some lease => exact heeds_release lease

theorem Heeds.inCall {body : Reach H → Act H α} {h : Built body} (hbody : h.Heeds)
    (name : String) : (h.inCall name).Heeds :=
  ⟨trivial, fun _ => ⟨hbody, trivial⟩⟩

section Track

variable {imports : Reach H → Import H ι φ}

theorem Heeds.trackImport {source : ι} {hstart : Built fun R => (imports R).start source}
    {hdiscard : Built fun R => (imports R).discard source} (hs : hstart.Heeds)
    (hd : hdiscard.Heeds) : (Built.trackImport hstart hdiscard).Heeds :=
  ⟨⟨heeds_beginCurrent, hd⟩, fun lease => ⟨⟨hs, heeds_releaseAny lease⟩, fun _ => trivial⟩⟩

variable {hstart : ∀ source, Built fun R => (imports R).start source}
  {hdiscard : ∀ source, Built fun R => (imports R).discard source}

theorem Heeds.trackImportWith {make : Reach H → Act H ι} {hmake : Built make} (hm : hmake.Heeds)
    (hs : ∀ source, (hstart source).Heeds) : (Built.trackImportWith hmake hstart).Heeds :=
  ⟨heeds_beginCurrent, fun lease => ⟨⟨⟨hm, hs⟩, heeds_releaseAny lease⟩, fun _ => trivial⟩⟩

variable (hs : ∀ source, (hstart source).Heeds) (hd : ∀ source, (hdiscard source).Heeds)
include hs hd

theorem heeds_trackCompletion (value : Completion α ι) :
    (trackCompletion hstart hdiscard value).Heeds := by
  cases value with
  | ready value => trivial
  | pending source => exact (Heeds.trackImport (hs source) (hd source)).map _

theorem heeds_trackLayers {ε : Nat → Type} (n : Nat) (result : Layers ε n (Completion α ι)) :
    (trackLayers hstart hdiscard n result).Heeds := by
  induction n with
  | zero => exact heeds_trackCompletion hs hd result
  | succ n ih =>
    cases (result : Except (ε n) (Layers ε n (Completion α ι))) with
    | error e => trivial
    | ok result => exact (ih result).map Except.ok

end Track

section Load

variable {discards : Reach H → Discard H φ}
  {hdiscard : ∀ load, Built fun R => (discards R).discard load}
  (hd : ∀ load, (hdiscard load).Heeds)
include hd

theorem heeds_discardLoad : (load : LoadFuture H.Signal φ) → (discardLoad hdiscard load).Heeds
  | .raw load => hd load
  | .tracked ⟨inner, lease⟩ => ⟨heeds_discardLoad inner, heeds_releaseAny lease⟩

theorem heeds_trackLoad {ε : Type}
    (result : Completion (LoadResult ε) (LoadFuture H.Signal φ)) :
    (trackLoad hdiscard result).Heeds := by
  cases result with
  | ready value => trivial
  | pending load =>
    apply Heeds.map
    apply Heeds.trackImport
    · trivial
    · exact heeds_discardLoad hd load

theorem heeds_callLoader {κ ε : Type}
    {run : Reach H → κ → String → Act H (Completion (LoadResult ε) (LoadFuture H.Signal φ))}
    {hrun : ∀ code specifier, Built fun R => run R code specifier}
    (hr : ∀ code specifier, (hrun code specifier).Heeds) (func : LoaderFunction κ)
    (specifier : String) : (callLoader hdiscard hrun func specifier).Heeds := by
  induction func with
  | raw code => exact hr code specifier
  | tracked name inner ih =>
    refine ⟨?_, fun _ => trivial⟩
    apply Heeds.inCall
    exact ⟨ih, heeds_trackLoad hd⟩

end Load

theorem Heeds.poll {t : TrackedImport H.Signal φ} {inner : Reach H → Run H (Outcome H α × φ)}
    {h : Built fun R => polling (inner R)} (hinner : h.Heeds) : (Built.poll t h).Heeds := by
  refine ⟨hinner, ?_⟩
  rintro ⟨_ | _, rest⟩
  · exact ⟨heeds_releaseAny t.lease, fun _ => trivial⟩
  · trivial

end Built

namespace Operation

/-- The code that the operation is given heeds the look-ups. -/
def Heeds {op : Reach H → Act H α} : Operation op → Prop
  | .beginCurrent | .begin _ | .release _ => True
  | .trackImport _ _ hstart hdiscard => hstart.Heeds ∧ hdiscard.Heeds
  | .trackImportWith _ _ hmake hstart => hmake.Heeds ∧ ∀ source, (hstart source).Heeds
  | .trackCompletion _ _ hstart hdiscard =>
    (∀ source, (hstart source).Heeds) ∧ ∀ source, (hdiscard source).Heeds
  | .call _ _ _ _ hfunc hstart hdiscard | .callAsync _ _ _ _ hfunc hstart hdiscard =>
    hfunc.Heeds ∧ (∀ source, (hstart source).Heeds) ∧ ∀ source, (hdiscard source).Heeds
  | .load _ _ _ _ hrun hdiscard =>
    (∀ code specifier, (hrun code specifier).Heeds) ∧ ∀ load, (hdiscard load).Heeds
  | .poll _ _ hinner | .discard _ _ hinner => hinner.Heeds

theorem Heeds.built {op : Reach H → Act H α} {h : Operation op} (hheeds : h.Heeds) :
    h.built.Heeds := by
  cases h with
  | beginCurrent => exact Built.heeds_beginCurrent
  | begin signal => exact Built.heeds_begin signal
  | release lease => exact Built.heeds_release lease
  | trackImport => exact Built.Heeds.trackImport hheeds.1 hheeds.2
  | trackImportWith => exact Built.Heeds.trackImportWith hheeds.1 hheeds.2
  | trackCompletion imports value =>
    cases value with
    | ready value => trivial
    | pending source =>
      apply Built.Heeds.map
      exact Built.Heeds.trackImport (hheeds.1 source) (hheeds.2 source)
  | call =>
    apply Built.Heeds.inCall
    exact ⟨hheeds.1, Built.heeds_trackLayers hheeds.2.1 hheeds.2.2 _⟩
  | callAsync =>
    apply Built.Heeds.inCall
    exact ⟨hheeds.1, fun source =>
      Built.Heeds.trackImport (hheeds.2.1 source) (hheeds.2.2 source)⟩
  | load => exact Built.heeds_callLoader hheeds.2 hheeds.1 _ _
  | poll => exact Built.Heeds.poll hheeds
  | discard t => exact ⟨hheeds, Built.heeds_releaseAny t.lease⟩

end Operation

/-- A host of two signals, an outer and an inner one. -/
def Host.paired : Host := { Host.noting with Signal := Bool }

/-- An import that is started and discarded without a trace. -/
abbrev trivialImport (_ : Reach Host.paired) : Import Host.paired Unit Unit where
  start := pure
  discard := pure

def trackTrivially (R : Reach Host.paired) : Act Host.paired (TrackedImport Host.paired.Signal Unit) :=
  let _ := R.openly
  let _ := trivialImport R
  trackImport ()

def operation_trackTrivially : Operation trackTrivially :=
  .trackImport trivialImport () (Code.pure ()) (Code.pure ())

/-- Begins a read on the inner signal and catches a panic in there. -/
def tryInner (R : Reach Host.paired) : Act Host.paired Unit := do
  let _ := R.openly
  let _ ← (SignalRef.foreign false).beginRead.attempt
  return ()

def code_tryInner : Code tryInner :=
  (Code.beginRead (H := Host.paired) (.foreign false)).attempt fun _ => .pure ()

/-- What the outer signal does in a unit of the inner one where a read begins. -/
def meddle (R : Reach Host.paired) : Act Host.paired Unit := do
  withCurrent fun _ => tryInner R.covert
  let t ← trackTrivially R
  let _ := R.openly
  t.discard (pure ())

def code_meddle : Code meddle :=
  (Code.look fun _ => code_tryInner).bind fun _ =>
    operation_trackTrivially.built.code.bind fun t =>
      (Operation.discard t (fun _ => pure ()) (Code.pure ())).built.code

/-- Signals of which the outer one tracks an import on the inner one where a read begins, and calls
that one while it looks at the current unit as well. Both enter and leave a unit in each call. -/
def meddling : SignalCode Host.paired where
  beginRead
    | true, R => do
      Act.record (.note "begin")
      WorkUnit.run (.prerender (some (.foreign false))) (meddle R)
    | false, _ => do
      Act.record (.note "begin")
      WorkUnit.cache.run (pure ())
  endRead _ _ := do
    Act.record (.note "end")
    WorkUnit.cache.run (pure ())
  retire _ := pure ()
  reactions := { watched := fun _ => none, calls := fun _ _ => [] }
  code_beginRead
    | true => (Code.aside _ fun _ => rfl).bind fun _ => code_meddle.run _
    | false => (Code.aside _ fun _ => rfl).bind fun _ => (Code.pure ()).run _
  code_endRead _ := (Code.aside _ fun _ => rfl).bind fun _ => (Code.pure ()).run _
  units_retire _ _ := rfl

theorem heeds_meddle : code_meddle.Heeds := by
  refine ⟨fun _ R w => ?_, fun _ => ⟨?_, fun t => ?_⟩⟩
  · simp [tryInner, Except.map]
  · exact (Operation.Heeds.built (h := operation_trackTrivially) ⟨trivial, trivial⟩).code
  · apply Built.Heeds.code
    apply Operation.Heeds.built
    trivial

theorem heeds_meddling : meddling.Heeds := by
  have hstay : ((Code.pure (H := Host.paired) ()).run .cache).Heeds := by
    apply Code.Heeds.run
    trivial
  constructor
  · rintro (_ | _)
    · exact ⟨fun w => by simp, fun _ => hstay⟩
    · exact ⟨fun w => by simp, fun _ => heeds_meddle.run _⟩
  · exact fun _ => ⟨fun w => by simp, fun _ => hstay⟩
  · simp [meddling]

/-- A future that enters a unit while it looks at the current one, whenever it is polled. -/
def careless : Run Host.paired (Outcome Host.paired Unit × Unit) := do
  let entered ← (withCurrent fun _ => WorkUnit.cache.enter).run
  return (entered.map fun _ => .pending, ())

/-- Signals of which one holds a lease of the other, whose reads end in a unit of their own. -/
@[reducible]
def leasing : Foreign Host.paired where
  beginRead _ := pure ()
  endRead _ := do
    let borrows := (← get).units.borrows
    Act.record (.note (if borrows = 0 then "idle" else "borrowed"))
    WorkUnit.cache.run (pure ())
  reactions := { watched := fun _ => none, calls := fun _ _ => [] }

/-- The same signals, where the lease ends with the one that holds it. -/
@[reducible]
def leasingUntilDropped : Foreign Host.paired :=
  { leasing with
    retire
      | true => let _ := leasing; ReadLease.release ⟨.foreign false⟩
      | false => pure () }

end ReadBarrier
