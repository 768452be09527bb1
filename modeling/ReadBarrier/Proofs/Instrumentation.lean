import ReadBarrier.Loader.Instrumenter
import ReadBarrier.Proofs.EntryPoint

/-!
What becomes of a loader in the instrumentation passes.

A loader is wrapped by the first pass that is switched on and lists its name, and by no later one. So
there is at most one read for each of its loads, whatever was done to the table.
-/

namespace ReadBarrier

open Act

variable {κ : Type}

/-! ### Tables by name -/

namespace LoaderTable

theorem get?_insert (table : LoaderTable κ) (name global : String) (loader : Loader κ) :
    (table.insert name loader).get? global =
      if name = global then some loader else table.get? global := by
  obtain ⟨entries⟩ := table
  induction entries with
  | nil => by_cases h : name = global <;> simp [insert, insertInto, get?, h]
  | cons entry entries ih =>
    obtain ⟨other, kept⟩ := entry
    simp only [insert, get?, insertInto] at ih ⊢
    by_cases hlt : name < other
    · rw [if_pos hlt]
      by_cases h : name = global <;> simp [h]
    · by_cases heq : name = other
      · subst heq
        by_cases h : name = global <;> simp [h]
      · rw [if_neg hlt, if_neg heq]
        by_cases hother : other = global
        · have h : ¬ name = global := fun h => heq (h.trans hother.symm)
          simp [hother, h]
        · simpa [hother] using ih

theorem get?_erase (table : LoaderTable κ) {name global : String} (h : ¬ name = global) :
    (table.erase name).get? global = table.get? global := by
  obtain ⟨entries⟩ := table
  induction entries with
  | nil => rfl
  | cons entry entries ih =>
    obtain ⟨other, kept⟩ := entry
    simp only [erase, get?] at ih ⊢
    by_cases hname : other = name
    · have hglobal : ¬ other = global := fun hglobal => h (hname.symm.trans hglobal)
      simpa [hname, h] using ih
    · rw [List.filter_cons_of_pos (by simpa using hname)]
      by_cases hglobal : other = global
      · simp [hglobal]
      · simpa [hglobal] using ih

theorem get?_register (table : LoaderTable κ) (name global : String) (code : κ) :
    (table.register name code).2.get? global =
      if name = global then some (.ofCode global code) else table.get? global := by
  rw [register, get?_insert]
  by_cases h : name = global
  · subst h
    rfl
  · rw [if_neg h, if_neg h]

end LoaderTable

/-! ### One pass -/

/-- The loader that passes leave of which the first to list it has this prefix, if any does. -/
def Loader.wrap (start : Option String) (global : String) (loader : Loader κ) : Loader κ :=
  match start with
  | none => loader
  | some start => if loader.isInstrumented then loader else loader.track (start ++ global)

/-- What is wrapped is not wrapped again. -/
theorem Loader.wrap_wrap (start other : Option String) (global : String) (loader : Loader κ) :
    (loader.wrap start global).wrap other global = loader.wrap (start.or other) global := by
  cases start with
  | none => cases other <;> rfl
  | some start =>
    cases other with
    | none => rfl
    | some other => by_cases h : loader.isInstrumented <;> simp [wrap, h, track]

namespace Instrumenter

theorem get?_instrumentOne (i : Instrumenter) (table : LoaderTable κ) (report : InstrumentReport)
    (name global : String) :
    (i.instrumentOne table report name).1.get? global =
      (table.get? global).map
        (Loader.wrap (if name = global then some i.config.functionNamePrefix else none) global) := by
  rw [instrumentOne]
  by_cases h : name = global
  · subst h
    cases hget : table.get? name with
    | none => simp [hget]
    | some loader =>
      by_cases hloader : loader.isInstrumented
      · simp [hloader, Loader.wrap, LoaderTable.get?_insert]
      · simp [hloader, Loader.wrap, LoaderTable.get?_insert, loaderName]
  · have hsame : (Loader.wrap none global : Loader κ → Loader κ) = id := rfl
    rw [if_neg h, hsame, Option.map_id_apply]
    cases table.get? name with
    | none => rfl
    | some loader =>
      by_cases hloader : loader.isInstrumented
      · simp [hloader, LoaderTable.get?_insert, LoaderTable.get?_erase, h]
      · simp [hloader, LoaderTable.get?_insert, LoaderTable.get?_erase, h]

theorem get?_foldl_instrumentOne (i : Instrumenter) (names : List String)
    (p : LoaderTable κ × InstrumentReport) (global : String) :
    (names.foldl (fun p name => i.instrumentOne p.1 p.2 name) p).1.get? global =
      (p.1.get? global).map
        (Loader.wrap (if global ∈ names then some i.config.functionNamePrefix else none)
          global) := by
  induction names generalizing p with
  | nil => exact (Option.map_id_apply ..).symm
  | cons name names ih =>
    rw [List.foldl_cons, ih, get?_instrumentOne, Option.map_map]
    congr 1
    funext loader
    rw [Function.comp_apply, Loader.wrap_wrap]
    by_cases hname : name = global
    · simp [hname]
    · simp [hname, Ne.symm hname]

/-- The prefix that the pass gives to a loader of this name, if it wraps it. -/
def prefixFor? (i : Instrumenter) (global : String) : Option String :=
  if i.config.enabled ∧ global ∈ i.config.instrumentedGlobals then
    some i.config.functionNamePrefix
  else none

theorem get?_instrument (i : Instrumenter) (table : LoaderTable κ) (global : String) :
    (i.instrument table).1.get? global =
      (table.get? global).map (Loader.wrap (i.prefixFor? global) global) := by
  rw [instrument]
  by_cases henabled : i.config.enabled
  · rw [if_pos henabled]
    refine (i.get?_foldl_instrumentOne i.config.instrumentedGlobals (table, {}) global).trans ?_
    simp [henabled, prefixFor?]
  · rw [if_neg henabled, prefixFor?, if_neg fun h => henabled h.1]
    exact (Option.map_id_apply ..).symm

theorem append_ne_of_prefixFor? {i : Instrumenter} {global start : String}
    (h : i.prefixFor? global = some start) : start ++ global ≠ global := by
  have hvalid := i.valid
  obtain ⟨-, rfl⟩ : _ ∧ i.config.functionNamePrefix = start := by simpa [prefixFor?] using h
  intro heq
  have hlength := congrArg String.length heq
  rw [String.length_append] at hlength
  have hempty : i.config.functionNamePrefix = "" := String.length_eq_zero_iff.mp (by omega)
  rw [TrackingConfig.validate, if_pos hempty] at hvalid
  cases hvalid

end Instrumenter

/-! ### The history of a table -/

inductive TableStep (κ : Type) where
  | register (global : String) (code : κ)
  | instrument (pass : Instrumenter)

namespace TableStep

/-- The code registered last under a name, with what was done to the table since. -/
def lastRegistered (global : String) : List (TableStep κ) → Option (κ × List (TableStep κ))
  | [] => none
  | .instrument _ :: later => lastRegistered global later
  | .register name code :: later =>
    (lastRegistered global later).or (if name = global then some (code, later) else none)

/-- The prefix of the first pass that wraps a loader of this name. -/
def firstPrefix? (global : String) : List (TableStep κ) → Option String
  | [] => none
  | .instrument pass :: later => (pass.prefixFor? global).or (firstPrefix? global later)
  | .register .. :: later => firstPrefix? global later

theorem append_ne_of_firstPrefix? {steps : List (TableStep κ)} {global start : String}
    (h : firstPrefix? global steps = some start) : start ++ global ≠ global := by
  induction steps with
  | nil => cases h
  | cons step steps ih =>
    cases step with
    | register name code => exact ih h
    | instrument pass =>
      rcases Option.or_eq_some_iff.mp h with hpass | ⟨-, hlater⟩
      · exact Instrumenter.append_ne_of_prefixFor? hpass
      · exact ih hlater

end TableStep

namespace LoaderTable

def step (table : LoaderTable κ) : TableStep κ → LoaderTable κ
  | .register global code => (table.register global code).2
  | .instrument pass => (pass.instrument table).1

def after (table : LoaderTable κ) (steps : List (TableStep κ)) : LoaderTable κ :=
  steps.foldl step table

open TableStep

theorem get?_after (table : LoaderTable κ) (steps : List (TableStep κ)) (global : String) :
    (table.after steps).get? global =
      match lastRegistered global steps with
      | some (code, later) =>
        some ((Loader.ofCode global code).wrap (firstPrefix? global later) global)
      | none => (table.get? global).map (Loader.wrap (firstPrefix? global steps) global) := by
  induction steps generalizing table with
  | nil => exact (Option.map_id_apply ..).symm
  | cons step steps ih =>
    have hcons : table.after (step :: steps) = (table.step step).after steps := rfl
    rw [hcons, ih]
    cases step with
    | register name code =>
      -- If the name is registered again later, this step is forgotten.
      rw [LoaderTable.step, get?_register, lastRegistered]
      rcases lastRegistered global steps with _ | found
      · by_cases hname : name = global
        · simp [hname]
        · simp [hname, firstPrefix?]
      · rfl
    | instrument pass =>
      -- What this pass wraps, the later ones leave as it is.
      rw [LoaderTable.step, Instrumenter.get?_instrument, lastRegistered]
      rcases lastRegistered global steps with _ | found
      · simp only [Option.map_map, firstPrefix?]
        congr 1
        funext loader
        exact Loader.wrap_wrap ..
      · rfl

end LoaderTable

/-! ### Loads -/

section Load

variable {H : Host} [Foreign H] {ε φ : Type} [Discard H φ]

/-- A tracked loader calls its code once. If that hands back a load, one read is begun on the signal
of the current unit, if there is one, and the load is given up if this panics. All else is passed
on as it is. -/
theorem LoaderFunction.exec_call_tracked
    (run : κ → String → Act H (Completion (LoadResult ε) (LoadFuture H.Signal φ)))
    (name : String) (inner : LoaderFunction κ) (specifier : String) (w : World H) :
    exec ((LoaderFunction.tracked name inner).call run specifier) w =
      match exec (inner.call run specifier) (w.called name) with
      | (.error p, v) => (.error p, v.exited name)
      | (.ok (.ready result), v) => (.ok (.ready result), v.exited name)
      | (.ok (.pending load), v) =>
        match v.signal? with
        | none => (.ok (.pending (.tracked ⟨load, none⟩)), v.exited name)
        | some signal =>
          match exec (ReadLease.begin signal) v with
          | (.ok lease, u) => (.ok (.pending (.tracked ⟨load, some lease⟩)), u.exited name)
          | (.error p, u) =>
            (.error p, (exec (load.discard Discard.discard) u).2.exited name) := by
  rw [LoaderFunction.call, TrackedFunction.call, exec_bind, exec_inCall, exec_bind]
  rcases exec (inner.call run specifier) (w.called name) with ⟨p | ⟨result⟩ | load, v⟩
  · rfl
  · rfl
  · have htrack : exec (Trackable.track (.pending load : Completion (LoadResult ε) _)) v =
        exec (Completion.pending <$> trackImport load) v := rfl
    simp only [htrack, exec_map, exec_trackImport]
    cases v.signal? with
    | none => rfl
    | some signal =>
      rcases hbegin : exec (ReadLease.begin signal) v with ⟨p | lease, u⟩
      · simp only [hbegin]
        rfl
      · simp only [hbegin]
        rfl

theorem LoaderTable.load_of_get? {table : LoaderTable κ} {global : String} {loader : Loader κ}
    (h : table.get? global = some loader)
    (run : κ → String → Act H (Completion (LoadResult ε) (LoadFuture H.Signal φ)))
    (specifier : String) :
    table.load run global specifier = .ok <$> loader.func.call run specifier := by
  rw [load, h]
  rfl

/-- Whatever is done to a table, a name has the code registered last under it, with one layer of
tracking if a pass has wrapped it since, and raw otherwise. The first such pass gives the loader its
name. A load calls the code once, and begins a read if the loader is wrapped, the code hands back a
load and the unit current then has a signal: one read, on that signal. -/
theorem LoaderTable.wrapped_once (steps : List (TableStep κ)) (global : String) :
    let table : LoaderTable κ := LoaderTable.after {} steps
    match TableStep.lastRegistered global steps with
    | none =>
      table.get? global = none ∧
      ∀ (run : κ → String → Act H (Completion (LoadResult ε) (LoadFuture H.Signal φ)))
        (specifier : String) (w : World H),
        exec (table.load run global specifier) w = (.ok (.error (.unknownLoader global)), w)
    | some (code, later) =>
      match TableStep.firstPrefix? global later with
      | none =>
        table.get? global = some ⟨global, .raw code, false⟩ ∧
        ∀ (run : κ → String → Act H (Completion (LoadResult ε) (LoadFuture H.Signal φ)))
          (specifier : String) (w : World H),
          exec (table.load run global specifier) w = exec (.ok <$> run code specifier) w
      | some start =>
        let name := start ++ global
        name ≠ global ∧
        table.get? global = some ⟨name, .tracked name (.raw code), true⟩ ∧
        ∀ (run : κ → String → Act H (Completion (LoadResult ε) (LoadFuture H.Signal φ)))
          (specifier : String) (w : World H),
          exec (table.load run global specifier) w =
            match exec (run code specifier) (w.called name) with
            | (.error p, v) => (.error p, v.exited name)
            | (.ok (.ready result), v) => (.ok (.ok (.ready result)), v.exited name)
            | (.ok (.pending load), v) =>
              match v.signal? with
              | none => (.ok (.ok (.pending (.tracked ⟨load, none⟩))), v.exited name)
              | some signal =>
                match ReadLease.begun signal v with
                | (.ok lease, u) =>
                  (.ok (.ok (.pending (.tracked ⟨load, some lease⟩))), u.exited name)
                | (.error p, u) =>
                  (.error p, (exec (load.discard Discard.discard) u).2.exited name) := by
  intro table
  have hget : table.get? global = _ := LoaderTable.get?_after {} steps global
  rcases hlast : TableStep.lastRegistered global steps with _ | ⟨code, later⟩
  · rw [hlast] at hget
    refine ⟨hget, fun run specifier w => ?_⟩
    rw [load, hget]
    rfl
  · simp only [hlast] at hget
    cases hfirst : TableStep.firstPrefix? global later with
    | none =>
      simp only [hfirst] at hget ⊢
      refine ⟨hget, fun run specifier w => ?_⟩
      rw [load_of_get? hget]
      rfl
    | some start =>
      simp only [hfirst] at hget ⊢
      refine ⟨TableStep.append_ne_of_firstPrefix? hfirst, hget, fun run specifier w => ?_⟩
      rw [load_of_get? hget, exec_map]
      simp only [Loader.wrap, Loader.ofCode, Loader.track, Bool.false_eq_true, if_false]
      rw [LoaderFunction.exec_call_tracked, LoaderFunction.call]
      rcases exec (run code specifier) (w.called (start ++ global)) with ⟨p | ⟨result⟩ | load, v⟩
      · rfl
      · rfl
      · simp only
        cases v.signal? with
        | none => rfl
        | some signal =>
          simp only
          rw [ReadLease.exec_begin]
          rcases ReadLease.begun signal v with ⟨p | lease, u⟩ <;> rfl

end Load

example :
    let other : Instrumenter := ⟨{ functionNamePrefix := "other::" }, rfl⟩
    let table : LoaderTable Nat := LoaderTable.after {}
      [.register "__webpack_load__" 0, .instrument default, .register "__webpack_load__" 1,
        .instrument other, .instrument default]
    table.get? "__webpack_load__" =
      some ⟨"other::__webpack_load__", .tracked "other::__webpack_load__" (.raw 1), true⟩ := by
  rfl

end ReadBarrier
