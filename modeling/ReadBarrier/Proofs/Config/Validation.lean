import Mathlib.Data.List.Nodup
import ReadBarrier.Loader.Instrumenter

/-!
Which configurations the pass can use, and what is said about the others.

A configuration that cannot be used has one fault that counts: an empty prefix or, if there is none,
the first of its globals that is blank or came up before. The instrumenter is refused for that very
reason.
-/

namespace ReadBarrier

namespace Text

/-- The code points of the property White_Space. -/
def whiteSpacePoints : List Nat :=
  [0x09, 0x0A, 0x0B, 0x0C, 0x0D, 0x20, 0x85, 0xA0, 0x1680, 0x2000, 0x2001, 0x2002, 0x2003, 0x2004,
    0x2005, 0x2006, 0x2007, 0x2008, 0x2009, 0x200A, 0x2028, 0x2029, 0x202F, 0x205F, 0x3000]

theorem isWhiteSpace_iff_mem {c : Char} :
    isWhiteSpace c = true ↔ c.toNat ∈ whiteSpacePoints := by
  simp only [isWhiteSpace, whiteSpacePoints, List.mem_cons, List.not_mem_nil, Bool.or_eq_true,
    Bool.and_eq_true, beq_iff_eq, decide_eq_true_eq, or_false]
  omega

/-- A text is not blank if one of its characters is no white space. -/
theorem isBlank_eq_false_iff {s : String} :
    isBlank s = false ↔ ∃ c ∈ s.toList, c.toNat ∉ whiteSpacePoints := by
  simp only [isBlank, List.all_eq_false, isWhiteSpace_iff_mem]

end Text

namespace TrackingConfig

variable {c : TrackingConfig} {earlier names : List String} {value : InvalidValue}

/-- The globals pass the check if none is blank and none comes up twice. -/
theorem checkGlobals_eq_ok_iff :
    checkGlobals earlier names = .ok () ↔
      (∀ name ∈ names, Text.isBlank name = false ∧ name ∉ earlier) ∧ names.Nodup := by
  induction names generalizing earlier with
  | nil => simp [checkGlobals]
  | cons name names ih =>
    rw [List.forall_mem_cons, List.nodup_cons, checkGlobals]
    by_cases hblank : Text.isBlank name = true
    · simp [hblank]
    · by_cases hearlier : name ∈ earlier
      · simp [hblank, hearlier]
      · rw [if_neg hblank, if_neg hearlier, ih]
        constructor
        · intro h
          obtain ⟨hnames, hnodup⟩ := h
          have hfresh : name ∉ names := fun hname => by simpa using (hnames name hname).2
          refine ⟨⟨⟨by simpa using hblank, hearlier⟩, ?_⟩, hfresh, hnodup⟩
          intro other hother
          obtain ⟨hfull, hnew⟩ := hnames other hother
          exact ⟨hfull, fun hmem => hnew (List.mem_cons_of_mem _ hmem)⟩
        · intro h
          obtain ⟨⟨-, hnames⟩, hfresh, hnodup⟩ := h
          refine ⟨?_, hnodup⟩
          intro other hother
          obtain ⟨hfull, hnew⟩ := hnames other hother
          refine ⟨hfull, ?_⟩
          rw [List.mem_cons, not_or]
          exact ⟨fun heq => hfresh (heq ▸ hother), hnew⟩

theorem validate_eq_ok_iff :
    c.validate = .ok () ↔
      c.functionNamePrefix ≠ "" ∧ (∀ name ∈ c.instrumentedGlobals, Text.isBlank name = false) ∧
        c.instrumentedGlobals.Nodup := by
  by_cases hprefix : c.functionNamePrefix = ""
  · simp [validate, hprefix]
  · simp [validate, hprefix, checkGlobals_eq_ok_iff]

/-! ### The first fault -/

/-- The check runs through the globals that pass it, to one that does not. -/
theorem checkGlobals_eq_error_iff :
    checkGlobals earlier names = .error value ↔
      ∃ before name after, names = before ++ name :: after ∧ checkGlobals earlier before = .ok () ∧
        (Text.isBlank name = true ∧ value = .blankGlobal ∨
          Text.isBlank name = false ∧ (name ∈ earlier ∨ name ∈ before) ∧
            value = .repeatedGlobal name) := by
  induction names generalizing earlier with
  | nil => simp [checkGlobals]
  | cons first names ih =>
    rw [checkGlobals]
    constructor
    · intro h
      by_cases hblank : Text.isBlank first = true
      · rw [if_pos hblank, Except.error.injEq] at h
        exact ⟨[], first, names, rfl, rfl, .inl ⟨hblank, h.symm⟩⟩
      · have hfull : Text.isBlank first = false := by simpa using hblank
        rw [if_neg hblank] at h
        by_cases hearlier : first ∈ earlier
        · rw [if_pos hearlier, Except.error.injEq] at h
          exact ⟨[], first, names, rfl, rfl, .inr ⟨hfull, .inl hearlier, h.symm⟩⟩
        · rw [if_neg hearlier, ih] at h
          obtain ⟨before, name, after, rfl, hbefore, hname⟩ := h
          refine ⟨first :: before, name, after, rfl, ?_, ?_⟩
          · rw [checkGlobals, if_neg hblank, if_neg hearlier, hbefore]
          · rcases hname with hname | ⟨hname, hmem, hvalue⟩
            · exact .inl hname
            · refine .inr ⟨hname, ?_, hvalue⟩
              simp only [List.mem_cons] at hmem ⊢
              tauto
    · rintro ⟨before, name, after, hnames, hbefore, hname⟩
      cases before with
      | nil =>
        obtain ⟨rfl, rfl⟩ : first = name ∧ names = after := by simpa using hnames
        rcases hname with ⟨hblank, rfl⟩ | ⟨hfull, hmem, rfl⟩
        · rw [if_pos hblank]
        · have hearlier : first ∈ earlier := by simpa using hmem
          rw [if_neg (by simp [hfull]), if_pos hearlier]
      | cons first' before =>
        obtain ⟨rfl, rfl⟩ : first = first' ∧ names = before ++ name :: after := by simpa using hnames
        have hok := hbefore
        rw [checkGlobals_eq_ok_iff, List.forall_mem_cons] at hok
        obtain ⟨⟨⟨hfull, hearlier⟩, -⟩, -⟩ := hok
        rw [checkGlobals, if_neg (by simp [hfull]), if_neg hearlier] at hbefore
        rw [if_neg (by simp [hfull]), if_neg hearlier, ih]
        refine ⟨before, name, after, rfl, hbefore, ?_⟩
        rcases hname with hname | ⟨hname, hmem, hvalue⟩
        · exact .inl hname
        · refine .inr ⟨hname, ?_, hvalue⟩
          simp only [List.mem_cons] at hmem ⊢
          tauto

/-- What is wrong with the global of this index: it is blank or, if it is not, it stands under a
smaller index too. -/
inductive Fault (names : List String) (i : Nat) : InvalidValue → Prop
  | blank {name : String} (hname : names[i]? = some name)
      (hblank : ∀ c ∈ name.toList, c.toNat ∈ Text.whiteSpacePoints) : Fault names i .blankGlobal
  | repeated {name : String} (hname : names[i]? = some name)
      (hfull : ∃ c ∈ name.toList, c.toNat ∉ Text.whiteSpacePoints)
      (hearlier : ∃ j < i, names[j]? = some name) : Fault names i (.repeatedGlobal name)

/-- The globals before an index pass the check if none of them is at fault. -/
theorem checkGlobals_take_eq_ok_iff {i : Nat} :
    checkGlobals [] (names.take i) = .ok () ↔ ∀ j < i, ∀ u, ¬ Fault names j u := by
  have hget {j : Nat} (hj : j < i) : (names.take i)[j]? = names[j]? := List.getElem?_take_of_lt hj
  rw [checkGlobals_eq_ok_iff, List.nodup_iff_getElem?_ne_getElem?]
  constructor
  · rintro ⟨hfull, hdistinct⟩ j hj u hfault
    have hlt {name : String} (hname : names[j]? = some name) : j < (names.take i).length := by
      obtain ⟨hlt, -⟩ := List.getElem?_eq_some_iff.mp hname
      rw [List.length_take]
      omega
    cases hfault with
    | @blank name hname hblank =>
      have hmem : name ∈ names.take i := List.mem_of_getElem? ((hget hj).trans hname)
      obtain ⟨c, hc, hpoint⟩ := Text.isBlank_eq_false_iff.mp (hfull name hmem).1
      exact hpoint (hblank c hc)
    | repeated hname _ hearlier =>
      obtain ⟨k, hk, hkname⟩ := hearlier
      apply hdistinct k j hk (hlt hname)
      rw [hget (Nat.lt_trans hk hj), hget hj, hkname, hname]
  · intro h
    have hfull {j : Nat} (hj : j < i) {name : String} (hname : names[j]? = some name) :
        Text.isBlank name = false := by
      rw [Text.isBlank_eq_false_iff]
      by_contra hblank
      apply h j hj _ (.blank hname ?_)
      intro c hc
      by_contra hpoint
      exact hblank ⟨c, hc, hpoint⟩
    constructor
    · intro name hmem
      obtain ⟨j, hname⟩ := List.mem_iff_getElem?.mp hmem
      have hj : j < i := by
        obtain ⟨hlt, -⟩ := List.getElem?_eq_some_iff.mp hname
        exact Nat.lt_of_lt_of_le hlt (List.length_take_le ..)
      rw [hget hj] at hname
      exact ⟨hfull hj hname, List.not_mem_nil⟩
    · intro k j hk hlt heq
      have hj : j < i := Nat.lt_of_lt_of_le hlt (List.length_take_le ..)
      obtain ⟨name, hname⟩ : ∃ name, names[j]? = some name := by
        rw [← hget hj]
        exact ⟨_, List.getElem?_eq_getElem hlt⟩
      rw [hget (Nat.lt_trans hk hj), hget hj, hname] at heq
      exact h j hj _ (.repeated hname (Text.isBlank_eq_false_iff.mp (hfull hj hname)) ⟨k, hk, heq⟩)

theorem checkGlobals_eq_error_iff_fault :
    checkGlobals [] names = .error value ↔
      ∃ i, Fault names i value ∧ ∀ j < i, ∀ u, ¬ Fault names j u := by
  rw [checkGlobals_eq_error_iff]
  constructor
  · rintro ⟨before, name, after, rfl, hbefore, hname⟩
    have htake : (before ++ name :: after).take before.length = before := List.take_left' rfl
    refine ⟨before.length, ?_, checkGlobals_take_eq_ok_iff.mp (htake.symm ▸ hbefore)⟩
    have hget : (before ++ name :: after)[before.length]? = some name := by simp
    rcases hname with ⟨hblank, rfl⟩ | ⟨hfull, hmem, rfl⟩
    · apply Fault.blank hget
      intro c hc
      exact Text.isWhiteSpace_iff_mem.mp (List.all_eq_true.mp hblank c hc)
    · have hmem : name ∈ before := by simpa using hmem
      obtain ⟨j, hj, hjname⟩ := List.mem_iff_getElem.mp hmem
      apply Fault.repeated hget (Text.isBlank_eq_false_iff.mp hfull)
      exact ⟨j, hj, by rw [List.getElem?_append_left hj, List.getElem?_eq_getElem hj, hjname]⟩
  · rintro ⟨i, hfault, hfirst⟩
    have hbefore := checkGlobals_take_eq_ok_iff.mpr hfirst
    have hsplit {name : String} (hname : names[i]? = some name) :
        names = names.take i ++ name :: names.drop (i + 1) := by
      obtain ⟨hlt, rfl⟩ := List.getElem?_eq_some_iff.mp hname
      simp
    cases hfault with
    | @blank name hname hblank =>
      refine ⟨_, name, _, hsplit hname, hbefore, .inl ⟨?_, rfl⟩⟩
      apply List.all_eq_true.mpr
      intro c hc
      exact Text.isWhiteSpace_iff_mem.mpr (hblank c hc)
    | @repeated name hname hfull hearlier =>
      obtain ⟨j, hj, hjname⟩ := hearlier
      have hmem : name ∈ names.take i :=
        List.mem_of_getElem? ((List.getElem?_take_of_lt hj).trans hjname)
      exact ⟨_, name, _, hsplit hname, hbefore,
        .inr ⟨Text.isBlank_eq_false_iff.mpr hfull, .inr hmem, rfl⟩⟩

theorem validate_eq_error_iff :
    c.validate = .error value ↔
      if c.functionNamePrefix = "" then value = .emptyPrefix
      else ∃ i, Fault c.instrumentedGlobals i value ∧
        ∀ j < i, ∀ other, ¬ Fault c.instrumentedGlobals j other := by
  rw [validate]
  split
  · rw [Except.error.injEq, eq_comm]
  · exact checkGlobals_eq_error_iff_fault

theorem field_of_validate (h : c.validate = .error value) :
    value.field =
      if c.functionNamePrefix = "" then .functionNamePrefix else .instrumentedGlobals := by
  rw [validate_eq_error_iff] at h
  split at h
  · rw [if_pos ‹_›, h, InvalidValue.field]
  · obtain ⟨i, hfault, -⟩ := h
    rw [if_neg ‹_›]
    cases hfault <;> rfl

end TrackingConfig

namespace Instrumenter

variable {c : TrackingConfig} {e : Error} {i : Instrumenter}

theorem ofConfig_eq_error_iff :
    ofConfig c = .error e ↔ ∃ value, c.validate = .error value ∧ e = .ofConfig (.invalid value) := by
  unfold ofConfig
  split
  next hvalid => simp [hvalid]
  next value hvalid => simp [hvalid, eq_comm]

theorem ofConfig_eq_ok_iff : ofConfig c = .ok i ↔ i.config = c := by
  unfold ofConfig
  split
  next hvalid =>
    rw [Except.ok.injEq]
    constructor
    · rintro rfl
      rfl
    · rintro rfl
      rfl
  next value hvalid =>
    constructor
    · rintro ⟨⟩
    · rintro rfl
      exact absurd (i.valid.symm.trans hvalid) (by simp)

end Instrumenter

/-- A configuration can be used if its prefix is not empty, each of its globals has a character
that is no white space, and no two are the same. Otherwise the error is on the prefix, if that is
empty, and else on the first global at fault. The instrumenter takes the very same configurations
and passes on the error; so what one of them holds can be used. -/
theorem TrackingConfig.validate_first_fault (c : TrackingConfig) :
    (c.validate = .ok () ↔
      c.functionNamePrefix ≠ "" ∧
      (∀ name ∈ c.instrumentedGlobals, ∃ ch ∈ name.toList, ch.toNat ∉ Text.whiteSpacePoints) ∧
      c.instrumentedGlobals.Nodup) ∧
    (∀ value, c.validate = .error value ↔
      if c.functionNamePrefix = "" then value = .emptyPrefix
      else ∃ i, Fault c.instrumentedGlobals i value ∧
        ∀ j < i, ∀ other, ¬ Fault c.instrumentedGlobals j other) ∧
    (∀ value, c.validate = .error value →
      value.field =
        if c.functionNamePrefix = "" then .functionNamePrefix else .instrumentedGlobals) ∧
    (∀ name, (InvalidValue.repeatedGlobal name).reason = "`" ++ name ++ "` is listed twice") ∧
    (∀ e, Instrumenter.ofConfig c = .error e ↔
      ∃ value, c.validate = .error value ∧
        e = .mk .invalidConfig (some (ConfigError.invalid value).message)
          (some (.config (.invalid value)))) ∧
    (∀ i, Instrumenter.ofConfig c = .ok i → i.config = c ∧ c.validate = .ok ()) ∧
    (default : Instrumenter).config = {} ∧ TrackingConfig.validate {} = .ok () := by
  refine ⟨?_, fun _ => validate_eq_error_iff, fun _ => field_of_validate, ?_,
    fun _ => Instrumenter.ofConfig_eq_error_iff, ?_, rfl, rfl⟩
  · simp only [validate_eq_ok_iff, Text.isBlank_eq_false_iff]
  · intro name
    rfl
  · intro i hi
    obtain rfl := Instrumenter.ofConfig_eq_ok_iff.mp hi
    exact ⟨rfl, i.valid⟩

/-- The third global stands before it too, and the fourth is blank. The second differs from the first
by a blank. -/
def TrackingConfig.faulty : TrackingConfig :=
  { enabled := false, instrumentedGlobals := ["a", " a", "a", "\u3000"] }

theorem TrackingConfig.validate_first_fault_faulty :
    faulty.validate = .error (.repeatedGlobal "a") ∧
    (∃ i, Fault faulty.instrumentedGlobals i (.repeatedGlobal "a") ∧
      ∀ j < i, ∀ other, ¬ Fault faulty.instrumentedGlobals j other) ∧
    (InvalidValue.repeatedGlobal "a").field = .instrumentedGlobals ∧
    (∃ e, Instrumenter.ofConfig faulty = .error e ∧
      e.detail = some "invalid value for `instrumentedGlobals`: `a` is listed twice") ∧
    ∃ i, Instrumenter.ofConfig {} = .ok i ∧ i.config = {} := by
  obtain ⟨-, herror, hfield, -, hinstrumenter, -⟩ := validate_first_fault faulty
  obtain ⟨-, -, -, -, -, hok, -⟩ := validate_first_fault {}
  have hfaulty : faulty.validate = .error (.repeatedGlobal "a") := by decide
  have hfirst := (herror _).mp hfaulty
  rw [if_neg (by decide)] at hfirst
  refine ⟨hfaulty, hfirst, hfield _ hfaulty, ?_, ?_⟩
  · exact ⟨_, (hinstrumenter _).mpr ⟨_, hfaulty, rfl⟩, rfl⟩
  · exact ⟨default, rfl, (hok default rfl).1⟩

end ReadBarrier
