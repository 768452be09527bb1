import ReadBarrier.Proofs.Config.Validation
import ReadBarrier.Proofs.Instrumentation

/-!
What one instrumentation pass does to a table, and what it reports.

The pass takes a loader out of the table before it puts the wrapped one in, and it looks at the
table between these changes. Still each global is reported as the table was before the pass, since
no global is configured twice.
-/

namespace ReadBarrier

variable {κ : Type}

/-! ### The order of a table -/

namespace LoaderTable

/-- The names of a table are in strictly ascending order. -/
def Ordered (table : LoaderTable κ) : Prop := table.globals.Pairwise (· < ·)

variable {table : LoaderTable κ} {name : String} {loader : Loader κ}

theorem mem_globals_iff {global : String} :
    global ∈ table.globals ↔ (table.get? global).isSome = true := by
  simp [globals, get?]

theorem mem_globals_insert {global : String} :
    global ∈ (table.insert name loader).globals ↔ global = name ∨ global ∈ table.globals := by
  rw [mem_globals_iff, mem_globals_iff, get?_insert]
  by_cases h : name = global
  · simp [h]
  · simp [h, Ne.symm h]

section Cons

variable {other : String} {kept : Loader κ} {entries : List (String × Loader κ)}

theorem globals_insert_of_lt (h : name < other) :
    (insert ⟨(other, kept) :: entries⟩ name loader).globals =
      name :: other :: (LoaderTable.mk entries).globals := by
  simp [insert, insertInto, globals, h]

theorem globals_insert_self :
    (insert ⟨(name, kept) :: entries⟩ name loader).globals =
      name :: (LoaderTable.mk entries).globals := by
  simp [insert, insertInto, globals]

theorem globals_insert_of_gt (h : other < name) :
    (insert ⟨(other, kept) :: entries⟩ name loader).globals =
      other :: (insert ⟨entries⟩ name loader).globals := by
  have hlt : ¬ name < other := fun hlt => String.lt_irrefl _ (String.lt_trans h hlt)
  have hne : name ≠ other := fun heq => String.lt_irrefl _ (heq ▸ h)
  simp [insert, insertInto, globals, hlt, hne]

end Cons

theorem Ordered.insert (h : table.Ordered) (name : String) (loader : Loader κ) :
    (table.insert name loader).Ordered := by
  obtain ⟨entries⟩ := table
  induction entries with
  | nil => exact List.pairwise_singleton _ _
  | cons entry entries ih =>
    obtain ⟨other, kept⟩ := entry
    obtain ⟨hfirst, hrest⟩ := List.pairwise_cons.mp h
    by_cases hlt : name < other
    · rw [Ordered, globals_insert_of_lt hlt]
      apply List.pairwise_cons.mpr
      refine ⟨?_, h⟩
      intro later hlater
      rcases List.mem_cons.mp hlater with rfl | hlater
      · exact hlt
      · exact String.lt_trans hlt (hfirst later hlater)
    · by_cases heq : name = other
      · subst heq
        rw [Ordered, globals_insert_self]
        exact h
      · have hgt := Std.lt_of_le_of_ne (String.not_lt.mp hlt) (Ne.symm heq)
        rw [Ordered, globals_insert_of_gt hgt]
        apply List.pairwise_cons.mpr
        refine ⟨?_, ih hrest⟩
        intro later hlater
        rcases mem_globals_insert.mp hlater with rfl | hlater
        · exact hgt
        · exact hfirst later hlater

/-- A loader has one place in a table. What is put under its name after it was taken out comes to
stand in that place. -/
theorem Ordered.exists_place (h : table.Ordered) (hget : table.get? name = some loader) :
    ∃ before after, table.entries = before ++ (name, loader) :: after ∧
      ∀ other, ((table.erase name).insert name other).entries = before ++ (name, other) :: after := by
  obtain ⟨entries⟩ := table
  induction entries with
  | nil => simp [get?] at hget
  | cons entry entries ih =>
    obtain ⟨first, kept⟩ := entry
    obtain ⟨hfirst, hrest⟩ := List.pairwise_cons.mp h
    by_cases heq : first = name
    · subst heq
      obtain rfl : kept = loader := by simpa [get?] using hget
      have herase : (LoaderTable.mk ((first, kept) :: entries)).erase first = ⟨entries⟩ := by
        have hall : ∀ e ∈ entries, (e.1 != first) = true := by
          intro e he
          have hlt := hfirst e.1 (List.mem_map_of_mem he)
          have hne : e.1 ≠ first := fun heq => String.lt_irrefl _ (heq ▸ hlt)
          simpa using hne
        simp [erase, List.filter_eq_self.mpr hall]
      refine ⟨[], entries, rfl, fun other => ?_⟩
      rw [herase]
      cases entries with
      | nil => rfl
      | cons e entries =>
        have hlt : first < e.1 := hfirst e.1 (List.mem_cons_self ..)
        simp [LoaderTable.insert, insertInto, hlt]
    · have hget' : (LoaderTable.mk entries).get? name = some loader := by
        simpa [get?, heq] using hget
      have hlt : first < name :=
        hfirst name (mem_globals_iff.mpr (by rw [hget', Option.isSome_some]))
      have hnot : ¬ name < first := fun hgt => String.lt_irrefl _ (String.lt_trans hlt hgt)
      obtain ⟨before, after, hentries, hput⟩ := ih hrest hget'
      refine ⟨(first, kept) :: before, after, by simp [show entries = _ from hentries], ?_⟩
      intro other
      have herase : (LoaderTable.mk ((first, kept) :: entries)).erase name =
          ⟨(first, kept) :: ((LoaderTable.mk entries).erase name).entries⟩ := by
        simp [erase, heq]
      rw [herase, List.cons_append, ← hput other]
      simp [LoaderTable.insert, insertInto, hnot, Ne.symm heq]

/-- Taking a loader out of a table and putting another one in its place keeps the names. -/
theorem Ordered.globals_replace (h : table.Ordered) (hget : table.get? name = some loader)
    (other : Loader κ) : ((table.erase name).insert name other).globals = table.globals := by
  obtain ⟨before, after, hentries, hput⟩ := h.exists_place hget
  rw [globals, globals, hput other, hentries]
  simp

/-- A loader that is taken out of a table and put back leaves no trace. -/
theorem Ordered.insert_erase (h : table.Ordered) (hget : table.get? name = some loader) :
    (table.erase name).insert name loader = table := by
  obtain ⟨before, after, hentries, hput⟩ := h.exists_place hget
  exact congrArg LoaderTable.mk ((hput loader).trans hentries.symm)

end LoaderTable

/-! ### One pass -/

namespace Instrumenter

variable {table : LoaderTable κ}

theorem nodup_globals (i : Instrumenter) : i.config.instrumentedGlobals.Nodup :=
  (TrackingConfig.validate_eq_ok_iff.mp i.valid).2.2

theorem globals_instrumentOne (i : Instrumenter) (h : table.Ordered) (report : InstrumentReport)
    (name : String) : (i.instrumentOne table report name).1.globals = table.globals := by
  rw [instrumentOne]
  cases hget : table.get? name with
  | none => rfl
  | some loader =>
    by_cases hloader : loader.isInstrumented = true
    · simp only [hloader, ↓reduceIte]
      exact h.globals_replace hget _
    · simp only [hloader]
      exact h.globals_replace hget _

theorem globals_foldl_instrumentOne (i : Instrumenter) (names : List String)
    {p : LoaderTable κ × InstrumentReport} (h : p.1.Ordered) :
    (names.foldl (fun p name => i.instrumentOne p.1 p.2 name) p).1.globals = p.1.globals := by
  induction names generalizing p with
  | nil => rfl
  | cons name names ih =>
    have hone := i.globals_instrumentOne h p.2 name
    have hordered : (i.instrumentOne p.1 p.2 name).1.Ordered := by
      rw [LoaderTable.Ordered, hone]
      exact h
    rw [List.foldl_cons, ih hordered, hone]

/-- A pass neither loses a loader nor makes one up. -/
theorem globals_instrument (i : Instrumenter) (h : table.Ordered) :
    (i.instrument table).1.globals = table.globals := by
  rw [instrument]
  by_cases henabled : i.config.enabled = true
  · rw [if_pos henabled]
    exact i.globals_foldl_instrumentOne i.config.instrumentedGlobals (p := (table, {})) h
  · rw [if_neg henabled]

end Instrumenter

theorem LoaderTable.ordered_after (steps : List (TableStep κ)) :
    (LoaderTable.after {} steps : LoaderTable κ).Ordered := by
  have hafter (table : LoaderTable κ) (h : table.Ordered) : (table.after steps).Ordered := by
    induction steps generalizing table with
    | nil => exact h
    | cons step steps ih =>
      apply ih
      cases step with
      | register global code => exact h.insert global _
      | instrument pass =>
        rw [LoaderTable.step, Ordered, pass.globals_instrument h]
        exact h
  exact hafter {} .nil

/-! ### The report -/

namespace LoaderTable

/-- Whether a global has a loader that is not tracked yet. -/
def isRaw (table : LoaderTable κ) (global : String) : Bool :=
  (table.get? global).any (!·.isInstrumented)

/-- Whether a global has a loader that is tracked already. -/
def isTracked (table : LoaderTable κ) (global : String) : Bool :=
  (table.get? global).any (·.isInstrumented)

end LoaderTable

namespace InstrumentReport

/-- The report on these globals, by how a table has them. -/
def ofGlobals (table : LoaderTable κ) (globals : List String) : InstrumentReport where
  wrapped := globals.filter table.isRaw
  alreadyInstrumented := globals.filter table.isTracked
  missing := globals.filter (!table.contains ·)

def append (r s : InstrumentReport) : InstrumentReport where
  wrapped := r.wrapped ++ s.wrapped
  alreadyInstrumented := r.alreadyInstrumented ++ s.alreadyInstrumented
  missing := r.missing ++ s.missing

theorem append_assoc (r s t : InstrumentReport) :
    (r.append s).append t = r.append (s.append t) := by
  simp [append]

theorem ofGlobals_cons (table : LoaderTable κ) (name : String) (names : List String) :
    ofGlobals table (name :: names) = (ofGlobals table [name]).append (ofGlobals table names) := by
  have hcons (p : String → Bool) : (name :: names).filter p = [name].filter p ++ names.filter p :=
    List.filter_append (p := p) [name] names
  simp only [ofGlobals, append, hcons]

theorem ofGlobals_congr {table other : LoaderTable κ} {names : List String}
    (h : ∀ name ∈ names, table.get? name = other.get? name) :
    ofGlobals table names = ofGlobals other names := by
  have hraw : names.filter table.isRaw = names.filter other.isRaw :=
    List.filter_congr fun name hname => by rw [LoaderTable.isRaw, h name hname]; rfl
  have htracked : names.filter table.isTracked = names.filter other.isTracked :=
    List.filter_congr fun name hname => by rw [LoaderTable.isTracked, h name hname]; rfl
  have hmissing : names.filter (!table.contains ·) = names.filter (!other.contains ·) :=
    List.filter_congr fun name hname => by rw [LoaderTable.contains, h name hname]; rfl
  rw [ofGlobals, hraw, htracked, hmissing]
  rfl

/-- Each global is reported once, as one of the three. -/
theorem perm_ofGlobals (table : LoaderTable κ) (names : List String) :
    ((ofGlobals table names).wrapped ++ (ofGlobals table names).alreadyInstrumented ++
      (ofGlobals table names).missing).Perm names := by
  simp only [ofGlobals, List.append_assoc]
  induction names with
  | nil => exact .nil
  | cons name names ih =>
    cases hget : table.get? name with
    | none =>
      have hraw : table.isRaw name = false := by simp [LoaderTable.isRaw, hget]
      have htracked : table.isTracked name = false := by simp [LoaderTable.isTracked, hget]
      have hcontains : table.contains name = false := by simp [LoaderTable.contains, hget]
      simp only [List.filter_cons, hraw, htracked, hcontains, Bool.not_false, Bool.false_eq_true,
        ↓reduceIte, ← List.append_assoc] at ih ⊢
      exact List.perm_middle.trans (ih.cons name)
    | some loader =>
      have hcontains : table.contains name = true := by simp [LoaderTable.contains, hget]
      cases hloader : loader.isInstrumented with
      | false =>
        have hraw : table.isRaw name = true := by simp [LoaderTable.isRaw, hget, hloader]
        have htracked : table.isTracked name = false := by
          simp [LoaderTable.isTracked, hget, hloader]
        simp only [List.filter_cons, hraw, htracked, hcontains, Bool.not_true, Bool.false_eq_true,
          ↓reduceIte]
        exact ih.cons name
      | true =>
        have hraw : table.isRaw name = false := by simp [LoaderTable.isRaw, hget, hloader]
        have htracked : table.isTracked name = true := by
          simp [LoaderTable.isTracked, hget, hloader]
        simp only [List.filter_cons, hraw, htracked, hcontains, Bool.not_true, Bool.false_eq_true,
          ↓reduceIte]
        exact List.perm_middle.trans (ih.cons name)

end InstrumentReport

namespace Instrumenter

open InstrumentReport

variable {table : LoaderTable κ}

theorem report_instrumentOne (i : Instrumenter) (report : InstrumentReport) (name : String) :
    (i.instrumentOne table report name).2 = report.append (ofGlobals table [name]) := by
  rw [instrumentOne]
  cases hget : table.get? name with
  | none => simp [append, ofGlobals, LoaderTable.isRaw, LoaderTable.isTracked,
      LoaderTable.contains, hget]
  | some loader =>
    cases hloader : loader.isInstrumented <;>
      simp [append, ofGlobals, LoaderTable.isRaw, LoaderTable.isTracked, LoaderTable.contains,
        hget, hloader]

/-- The globals ahead are still as they were before the pass. -/
theorem report_foldl_instrumentOne (i : Instrumenter) {names : List String} (hnodup : names.Nodup)
    (p : LoaderTable κ × InstrumentReport) :
    (names.foldl (fun p name => i.instrumentOne p.1 p.2 name) p).2 =
      p.2.append (ofGlobals p.1 names) := by
  induction names generalizing p with
  | nil => simp [append, ofGlobals]
  | cons name names ih =>
    obtain ⟨hname, hnames⟩ := List.nodup_cons.mp hnodup
    have hahead : ofGlobals (i.instrumentOne p.1 p.2 name).1 names = ofGlobals p.1 names := by
      apply ofGlobals_congr
      intro global hglobal
      have hne : name ≠ global := fun heq => hname (heq ▸ hglobal)
      rw [get?_instrumentOne, if_neg hne]
      exact Option.map_id_apply ..
    rw [List.foldl_cons, ih hnames, hahead, report_instrumentOne, append_assoc, ← ofGlobals_cons]

theorem report_instrument (i : Instrumenter) (henabled : i.config.enabled = true)
    (table : LoaderTable κ) :
    (i.instrument table).2 = ofGlobals table i.config.instrumentedGlobals := by
  rw [instrument, if_pos henabled]
  refine (i.report_foldl_instrumentOne i.nodup_globals (table, {})).trans ?_
  simp [append]

/-! ### A second pass -/

theorem instrumentOne_of_not_raw (i : Instrumenter) (hordered : table.Ordered)
    (report : InstrumentReport) {name : String} (h : table.isRaw name = false) :
    (i.instrumentOne table report name).1 = table := by
  rw [instrumentOne]
  cases hget : table.get? name with
  | none => rfl
  | some loader =>
    have hloader : loader.isInstrumented = true := by simpa [LoaderTable.isRaw, hget] using h
    simp only [hloader, ↓reduceIte]
    exact hordered.insert_erase hget

theorem instrument_of_not_raw (i : Instrumenter) (hordered : table.Ordered)
    (h : ∀ global ∈ i.config.instrumentedGlobals, table.isRaw global = false) :
    (i.instrument table).1 = table := by
  have hfold (names : List String) (hnames : ∀ name ∈ names, table.isRaw name = false)
      (report : InstrumentReport) :
      (names.foldl (fun p name => i.instrumentOne p.1 p.2 name) (table, report)).1 = table := by
    induction names generalizing report with
    | nil => rfl
    | cons name names ih =>
      obtain ⟨hname, hrest⟩ := List.forall_mem_cons.mp hnames
      have hone := i.instrumentOne_of_not_raw hordered report hname
      have heta : i.instrumentOne table report name =
          (table, (i.instrumentOne table report name).2) := Prod.ext hone rfl
      rw [List.foldl_cons, heta]
      exact ih hrest _
  rw [instrument]
  by_cases henabled : i.config.enabled = true
  · rw [if_pos henabled]
    exact hfold _ h {}
  · rw [if_neg henabled]

section Again

variable {i : Instrumenter} {global : String} (henabled : i.config.enabled = true)
  (hglobal : global ∈ i.config.instrumentedGlobals)

include henabled hglobal

theorem get?_instrument_of_mem :
    (i.instrument table).1.get? global =
      (table.get? global).map (Loader.wrap (some i.config.functionNamePrefix) global) := by
  rw [get?_instrument, prefixFor?, if_pos ⟨henabled, hglobal⟩]

theorem isRaw_instrument : (i.instrument table).1.isRaw global = false := by
  rw [LoaderTable.isRaw, get?_instrument_of_mem henabled hglobal]
  cases table.get? global with
  | none => rfl
  | some loader => cases h : loader.isInstrumented <;> simp [Loader.wrap, Loader.track, h]

theorem isTracked_instrument :
    (i.instrument table).1.isTracked global = (table.isRaw global || table.isTracked global) := by
  rw [LoaderTable.isTracked, get?_instrument_of_mem henabled hglobal, LoaderTable.isRaw,
    LoaderTable.isTracked]
  cases table.get? global with
  | none => rfl
  | some loader => cases h : loader.isInstrumented <;> simp [Loader.wrap, Loader.track, h]

theorem contains_instrument :
    (i.instrument table).1.contains global = table.contains global := by
  rw [LoaderTable.contains, get?_instrument_of_mem henabled hglobal, LoaderTable.contains,
    Option.isSome_map]

/-- A loader that is not tracked yet is wrapped, under its new name. -/
theorem get?_instrument_of_raw (hraw : table.isRaw global = true) :
    ∃ loader, table.get? global = some loader ∧
      (i.instrument table).1.get? global = some (loader.track (i.loaderName global)) := by
  cases hget : table.get? global with
  | none => simp [LoaderTable.isRaw, hget] at hraw
  | some loader =>
    have hloader : loader.isInstrumented = false := by
      simpa [LoaderTable.isRaw, hget] using hraw
    refine ⟨loader, rfl, (get?_instrument_of_mem henabled hglobal).trans ?_⟩
    simp [hget, Loader.wrap, hloader, loaderName]

end Again

/-- All other loaders are kept. -/
theorem get?_instrument_of_not_raw (i : Instrumenter) {global : String}
    (h : global ∈ i.config.instrumentedGlobals → table.isRaw global = false) :
    (i.instrument table).1.get? global = table.get? global := by
  rw [get?_instrument, prefixFor?]
  by_cases hpass : i.config.enabled = true ∧ global ∈ i.config.instrumentedGlobals
  · have hraw := h hpass.2
    rw [if_pos hpass]
    cases hget : table.get? global with
    | none => rfl
    | some loader =>
      have hloader : loader.isInstrumented = true := by
        simpa [LoaderTable.isRaw, hget] using hraw
      simp [Loader.wrap, hloader]
  · rw [if_neg hpass]
    exact Option.map_id_apply ..

/-- The second of two passes finds nothing to wrap: what the first one wrapped is tracked now. -/
theorem instrument_instrument {i : Instrumenter} (henabled : i.config.enabled = true)
    (h : table.Ordered) :
    i.instrument (i.instrument table).1 =
      ((i.instrument table).1, {
        wrapped := []
        alreadyInstrumented := i.config.instrumentedGlobals.filter fun global =>
          table.isRaw global || table.isTracked global
        missing := i.config.instrumentedGlobals.filter (!table.contains ·) }) := by
  have hordered : (i.instrument table).1.Ordered := by
    rw [LoaderTable.Ordered, i.globals_instrument h]
    exact h
  have htable : (i.instrument (i.instrument table).1).1 = (i.instrument table).1 :=
    i.instrument_of_not_raw hordered fun global hglobal => isRaw_instrument henabled hglobal
  refine Prod.ext htable ((i.report_instrument henabled _).trans ?_)
  have hraw : i.config.instrumentedGlobals.filter (i.instrument table).1.isRaw = [] := by
    apply List.filter_eq_nil_iff.mpr
    intro global hglobal
    rw [isRaw_instrument henabled hglobal]
    exact Bool.false_ne_true
  have htracked : i.config.instrumentedGlobals.filter (i.instrument table).1.isTracked =
      i.config.instrumentedGlobals.filter fun global =>
        table.isRaw global || table.isTracked global := by
    apply List.filter_congr
    intro global hglobal
    exact isTracked_instrument henabled hglobal
  have hmissing : i.config.instrumentedGlobals.filter (!(i.instrument table).1.contains ·) =
      i.config.instrumentedGlobals.filter (!table.contains ·) := by
    apply List.filter_congr
    intro global hglobal
    rw [contains_instrument henabled hglobal]
  rw [ofGlobals, hraw, htracked, hmissing]

/-- A pass reports on each configured global once, in the order of the configuration: it is missing,
or its loader was tracked before, or it is now, under its new name and around the old function. The
table keeps its names, in their order, and all other loaders. The same pass then finds nothing more
to do. A pass that is switched off does nothing. -/
theorem instrument_partitions (i : Instrumenter) {table : LoaderTable κ} (h : table.Ordered) :
    let globals := i.config.instrumentedGlobals
    let after := (i.instrument table).1
    let report := (i.instrument table).2
    globals.Nodup ∧
    (i.config.enabled = false → after = table ∧ report = {}) ∧
    (i.config.enabled = true →
      report.missing = globals.filter (fun global => !table.contains global) ∧
      report.alreadyInstrumented =
        globals.filter (fun global => (table.get? global).any (·.isInstrumented)) ∧
      report.wrapped =
        globals.filter (fun global => (table.get? global).any (!·.isInstrumented)) ∧
      (report.wrapped ++ report.alreadyInstrumented ++ report.missing).Perm globals ∧
      after.globals = table.globals ∧
      (∀ global, global ∉ report.wrapped → after.get? global = table.get? global) ∧
      (∀ global ∈ report.wrapped, ∃ loader, table.get? global = some loader ∧
        after.get? global =
          some ⟨i.config.functionNamePrefix ++ global,
            .tracked (i.config.functionNamePrefix ++ global) loader.func, true⟩) ∧
      i.instrument after =
        (after, {
          wrapped := []
          alreadyInstrumented := globals.filter fun global =>
            global ∈ report.wrapped ∨ global ∈ report.alreadyInstrumented
          missing := report.missing })) := by
  intro globals after report
  refine ⟨i.nodup_globals, ?_, ?_⟩
  · intro hdisabled
    have hnone : i.instrument table = (table, {}) := by simp [instrument, hdisabled]
    exact ⟨congrArg Prod.fst hnone, congrArg Prod.snd hnone⟩
  · intro henabled
    have hreport : report = ofGlobals table globals := i.report_instrument henabled table
    have hwrapped (global : String) :
        global ∈ report.wrapped ↔ global ∈ globals ∧ table.isRaw global = true := by
      rw [hreport]
      exact List.mem_filter
    refine ⟨by rw [hreport]; rfl, by rw [hreport]; rfl, by rw [hreport]; rfl, ?_,
      i.globals_instrument h, ?_, ?_, ?_⟩
    · rw [hreport]
      exact perm_ofGlobals table globals
    · intro global hglobal
      apply i.get?_instrument_of_not_raw
      intro hmem
      exact Bool.eq_false_iff.mpr fun hraw => hglobal ((hwrapped global).mpr ⟨hmem, hraw⟩)
    · intro global hglobal
      obtain ⟨hmem, hraw⟩ := (hwrapped global).mp hglobal
      exact get?_instrument_of_raw henabled hmem hraw
    · rw [instrument_instrument henabled h, hreport]
      congr 2
      apply List.filter_congr
      intro global hglobal
      have hmem : global ∈ globals := hglobal
      simp [ofGlobals, hmem]

/-- A loader that an earlier pass wrapped, one that is raw, and two that are missing. -/
theorem instrument_partitions_default :
    let other : Instrumenter := ⟨{ instrumentedGlobals := ["__webpack_load__"] }, rfl⟩
    let table : LoaderTable Nat := LoaderTable.after {}
      [.register "__webpack_load__" 0, .register "__turbopack_load__" 1, .instrument other]
    table.Ordered ∧
    (instrument default table).2 =
      { wrapped := ["__turbopack_load__"]
        alreadyInstrumented := ["__webpack_load__"]
        missing := ["__webpack_require__", "__turbopack_require__"] } ∧
    (instrument default table).1.globals = ["__turbopack_load__", "__webpack_load__"] ∧
    instrument default (instrument default table).1 =
      ((instrument default table).1,
        { wrapped := []
          alreadyInstrumented := ["__webpack_load__", "__turbopack_load__"]
          missing := ["__webpack_require__", "__turbopack_require__"] }) := by
  intro other table
  have hordered : table.Ordered := LoaderTable.ordered_after _
  have hreport : (instrument default table).2 =
      { wrapped := ["__turbopack_load__"]
        alreadyInstrumented := ["__webpack_load__"]
        missing := ["__webpack_require__", "__turbopack_require__"] } := rfl
  obtain ⟨-, -, henabled⟩ := instrument_partitions default hordered
  obtain ⟨-, -, -, -, hglobals, -, -, hagain⟩ := henabled rfl
  refine ⟨hordered, hreport, hglobals, hagain.trans ?_⟩
  rw [hreport]
  rfl

end Instrumenter

end ReadBarrier
