import ReadBarrier.Config
import ReadBarrier.Proofs.Json.Contract

/-!
The fields that a document gives to a configuration: how a library takes them up one by one, and what
they are in the end, whatever their order.
-/

namespace ReadBarrier

open Json (Value)

/-- The fields that a document gives. -/
structure ConfigDraft where
  enabled : Option Bool := none
  functionNamePrefix : Option String := none
  instrumentedGlobals : Option (List String) := none

/-- The configuration with the values of the draft in place of its own. -/
def ConfigDraft.overlay (d : ConfigDraft) (c : TrackingConfig) : TrackingConfig where
  enabled := d.enabled.getD c.enabled
  functionNamePrefix := d.functionNamePrefix.getD c.functionNamePrefix
  instrumentedGlobals := d.instrumentedGlobals.getD c.instrumentedGlobals

/-! ### How a draft is filled -/

namespace ConfigField

def ofKey? (key : String) : Option ConfigField := all.find? (·.key == key)

theorem ofKey?_key (field : ConfigField) : ofKey? field.key = some field := by
  cases field <;> decide

theorem ofKey?_eq_some {key : String} {field : ConfigField} :
    ofKey? key = some field ↔ key = field.key := by
  constructor
  · intro h
    have hkey := List.find?_some h
    exact (beq_iff_eq.mp hkey).symm
  · rintro rfl
    exact ofKey?_key field

theorem key_injective {f g : ConfigField} (h : f.key = g.key) : f = g := by
  have hf := ofKey?_key f
  rw [h, ofKey?_key] at hf
  exact (Option.some.inj hf).symm

end ConfigField

namespace ConfigDraft

def has (d : ConfigDraft) : ConfigField → Bool
  | .enabled => d.enabled.isSome
  | .functionNamePrefix => d.functionNamePrefix.isSome
  | .instrumentedGlobals => d.instrumentedGlobals.isSome

/-- The draft with the value of a field, if that is of the right type. -/
def set? (d : ConfigDraft) (field : ConfigField) (v : Value) : Option ConfigDraft :=
  match field with
  | .enabled => v.boolean?.map fun b => { d with enabled := some b }
  | .functionNamePrefix => v.string?.map fun s => { d with functionNamePrefix := some s }
  | .instrumentedGlobals => v.strings?.map fun l => { d with instrumentedGlobals := some l }

def add? (d : ConfigDraft) (member : String × Value) : Option ConfigDraft :=
  match ConfigField.ofKey? member.1 with
  | none => none
  | some field => if d.has field then none else d.set? field member.2

/-- The draft with the values of some fields, in the order of the fields. -/
def fill? (d : ConfigDraft) : List ConfigField → List Value → Option ConfigDraft
  | _, [] => some d
  | [], _ :: _ => none
  | field :: fields, v :: vs => (d.set? field v).bind (·.fill? fields vs)

theorem add?_eq_some {d d' : ConfigDraft} {m : String × Value} :
    d.add? m = some d' ↔
      ∃ field, m.1 = field.key ∧ d.has field = false ∧ d.set? field m.2 = some d' := by
  unfold add?
  cases hkey : ConfigField.ofKey? m.1 with
  | none =>
    constructor
    · intro h
      cases h
    · rintro ⟨field, hfield, -⟩
      rw [ConfigField.ofKey?_eq_some.mpr hfield] at hkey
      cases hkey
  | some found =>
    have hfound := ConfigField.ofKey?_eq_some.mp hkey
    cases hhas : d.has found with
    | true =>
      simp only [hhas, ↓reduceIte, reduceCtorEq, false_iff]
      rintro ⟨field, hfield, hfree, -⟩
      obtain rfl : field = found := by
        rw [ConfigField.ofKey?_eq_some.mpr hfield] at hkey
        exact Option.some.inj hkey
      rw [hhas] at hfree
      cases hfree
    | false =>
      simp only [hhas, Bool.false_eq_true, ↓reduceIte]
      constructor
      · intro h
        exact ⟨found, hfound, hhas, h⟩
      · rintro ⟨field, hfield, -, h⟩
        rw [ConfigField.ofKey?_eq_some.mpr hfield] at hkey
        obtain rfl := Option.some.inj hkey
        exact h

end ConfigDraft

def Json.Value.draft? : Value → Option ConfigDraft
  | object members => members.foldlM ConfigDraft.add? {}
  | array items => ConfigDraft.fill? {} ConfigField.all items
  | _ => none

/-! ### A library fills configurations as drafts -/

theorem rel_bind {α β γ δ : Type} {r : α → β → Prop} {q : γ → δ → Prop} {x : Option α}
    {y : Option β} {f : α → Option γ} {g : β → Option δ} (h : Option.Rel r x y)
    (hfg : ∀ a b, r a b → Option.Rel q (f a) (g b)) : Option.Rel q (x.bind f) (y.bind g) := by
  cases h with
  | none => exact .none
  | some h => exact hfg _ _ h

/-- The filling has the values of the draft, and the default for the rest. -/
structure ConfigDraft.Fills (x : Filling TrackingConfig) (d : ConfigDraft) : Prop where
  record : x.record = d.overlay {}
  given (field : ConfigField) : field.key ∈ x.given ↔ d.has field = true

namespace ConfigDraft.Fills

open TrackingConfig (declaration)

variable {x : Filling TrackingConfig} {d : ConfigDraft}

theorem blank : Fills declaration.blank {} where
  record := rfl
  given field := by cases field <;> simp [declaration, Record.blank, has]

theorem take (h : Fills x d) {field : ConfigField} {c : TrackingConfig} {d' : ConfigDraft}
    (hc : c = d'.overlay {}) (hd : ∀ g, d'.has g = (decide (g = field) || d.has g)) :
    Fills (x.take field.key c) d' where
  record := hc
  given g := by
    have hkey : g.key = field.key ↔ g = field := ⟨ConfigField.key_injective, congrArg _⟩
    simp [Filling.take, hd, h.given, hkey]

theorem put? (h : Fills x d) (field : ConfigField) (v : Value) :
    Option.Rel Fills (x.put? field.declared v) (d.set? field v) := by
  cases field with
  | enabled =>
    simp only [Filling.put?, ConfigField.declared, ConfigField.access, set?]
    cases v.boolean? with
    | none => exact .none
    | some b => exact .some (h.take (by rw [h.record]; rfl) fun g => by cases g <;> rfl)
  | functionNamePrefix =>
    simp only [Filling.put?, ConfigField.declared, ConfigField.access, set?]
    cases v.string? with
    | none => exact .none
    | some s => exact .some (h.take (by rw [h.record]; rfl) fun g => by cases g <;> rfl)
  | instrumentedGlobals =>
    simp only [Filling.put?, ConfigField.declared, ConfigField.access, set?]
    cases v.strings? with
    | none => exact .none
    | some l => exact .some (h.take (by rw [h.record]; rfl) fun g => by cases g <;> rfl)

theorem field?_eq (key : String) :
    declaration.field? key = (ConfigField.ofKey? key).map ConfigField.declared :=
  List.find?_map ..

theorem add? (h : Fills x d) (m : String × Value) :
    Option.Rel Fills (declaration.add? x m) (d.add? m) := by
  rw [Record.add?, ConfigDraft.add?, field?_eq]
  cases ConfigField.ofKey? m.1 with
  | none => exact .none
  | some field =>
    have hgiven : field.declared.key ∈ x.given ↔ d.has field = true := h.given field
    simp only [Option.map_some, hgiven]
    split
    · exact .none
    · exact h.put? field m.2

theorem foldlM_add? (h : Fills x d) (ms : List (String × Value)) :
    Option.Rel Fills (ms.foldlM declaration.add? x) (ms.foldlM ConfigDraft.add? d) := by
  induction ms generalizing x d with
  | nil => exact .some h
  | cons m ms ih =>
    rw [List.foldlM_cons, List.foldlM_cons]
    exact rel_bind (h.add? m) fun _ _ h' => ih h'

theorem fill? (h : Fills x d) (fields : List ConfigField) (vs : List Value) :
    Option.Rel Fills (x.fill? (fields.map ConfigField.declared) vs) (d.fill? fields vs) := by
  induction fields generalizing x d vs with
  | nil => cases vs with
    | nil => exact .some h
    | cons => exact .none
  | cons field fields ih => cases vs with
    | nil => exact .some h
    | cons v vs =>
      rw [List.map_cons, Filling.fill?, ConfigDraft.fill?]
      exact rel_bind (h.put? field v) fun _ _ h' => ih h' vs

theorem filling? (v : Value) : Option.Rel Fills (declaration.filling? v) v.draft? := by
  cases v with
  | object ms => exact blank.foldlM_add? ms
  | array items => exact blank.fill? ConfigField.all items
  | _ => exact .none

end ConfigDraft.Fills

/-- A configuration is read from what a draft is read from, and is the default with the draft. -/
theorem TrackingConfig.ofValue?_declaration (v : Value) :
    declaration.ofValue? v = v.draft?.map (·.overlay {}) := by
  have h := ConfigDraft.Fills.filling? v
  rw [Record.ofValue?]
  generalize declaration.filling? v = x, v.draft? = d at h
  cases h with
  | none => rfl
  | some h => exact congrArg some h.record

/-! ### What a draft holds -/

namespace ConfigDraft

/-- What a draft holds for a field. -/
def value? (d : ConfigDraft) : ConfigField → Option Value
  | .enabled => d.enabled.map .boolean
  | .functionNamePrefix => d.functionNamePrefix.map .string
  | .instrumentedGlobals => d.instrumentedGlobals.map fun l => .array (l.map .string)

theorem has_eq (d : ConfigDraft) (field : ConfigField) :
    d.has field = (d.value? field).isSome := by
  cases field <;> simp [has, value?]

theorem ext_value? {d d' : ConfigDraft} (h : ∀ field, d.value? field = d'.value? field) :
    d = d' := by
  obtain ⟨enabled, functionNamePrefix, instrumentedGlobals⟩ := d
  obtain ⟨enabled', functionNamePrefix', instrumentedGlobals'⟩ := d'
  have henabled := h .enabled
  have hprefix := h .functionNamePrefix
  have hglobals := h .instrumentedGlobals
  have henabled : enabled = enabled' :=
    (Option.map_inj_right fun _ _ => Value.boolean.inj).mp henabled
  have hprefix : functionNamePrefix = functionNamePrefix' :=
    (Option.map_inj_right fun _ _ => Value.string.inj).mp hprefix
  have hglobals : instrumentedGlobals = instrumentedGlobals' :=
    (Option.map_inj_right fun _ _ h =>
      (List.map_inj_right fun _ _ => Value.string.inj).mp (Value.array.inj h)).mp hglobals
  rw [henabled, hprefix, hglobals]

/-- The draft holds what is given, for each field at most once, and nothing else. -/
structure Holds (d : ConfigDraft) (given : List (ConfigField × Value)) : Prop where
  distinct : (given.map Prod.fst).Nodup
  values : ∀ field v, d.value? field = some v ↔ (field, v) ∈ given

/-- The draft `d'` holds what `d` does and what is given, for fields of which `d` holds nothing. -/
structure Extends (d : ConfigDraft) (given : List (ConfigField × Value)) (d' : ConfigDraft) :
    Prop where
  distinct : (given.map Prod.fst).Nodup
  fresh : ∀ p ∈ given, d.value? p.1 = none
  values : ∀ field v, d'.value? field = some v ↔ d.value? field = some v ∨ (field, v) ∈ given

theorem holds_iff {d : ConfigDraft} {given : List (ConfigField × Value)} :
    d.Holds given ↔ Extends {} given d := by
  have hnone (field : ConfigField) : ConfigDraft.value? {} field = none := by
    cases field <;> rfl
  constructor
  · intro h
    exact ⟨h.distinct, fun p _ => hnone p.1, fun field v => by simp [h.values, hnone]⟩
  · intro h
    exact ⟨h.distinct, fun field v => by simp [h.values, hnone]⟩

theorem value?_of_set? {d d' : ConfigDraft} {field : ConfigField} {v : Value}
    (h : d.set? field v = some d') (g : ConfigField) :
    d'.value? g = if g = field then some v else d.value? g := by
  cases field with
  | enabled =>
    obtain ⟨b, hb, rfl⟩ := Option.map_eq_some_iff.mp h
    obtain rfl := Value.boolean?_eq_some.mp hb
    cases g <;> rfl
  | functionNamePrefix =>
    obtain ⟨a, ha, rfl⟩ := Option.map_eq_some_iff.mp h
    obtain rfl := Value.string?_eq_some.mp ha
    cases g <;> rfl
  | instrumentedGlobals =>
    obtain ⟨l, hl, rfl⟩ := Option.map_eq_some_iff.mp h
    obtain rfl := Value.strings?_eq_some.mp hl
    cases g <;> rfl

/-- Whatever a draft holds for a field can be put there. -/
theorem set?_of_value? {d : ConfigDraft} {field : ConfigField} {v : Value}
    (h : d.value? field = some v) (d' : ConfigDraft) : ∃ d₁, d'.set? field v = some d₁ := by
  cases field with
  | enabled =>
    obtain ⟨b, -, rfl⟩ := Option.map_eq_some_iff.mp h
    exact ⟨_, rfl⟩
  | functionNamePrefix =>
    obtain ⟨a, -, rfl⟩ := Option.map_eq_some_iff.mp h
    exact ⟨_, rfl⟩
  | instrumentedGlobals =>
    obtain ⟨l, -, rfl⟩ := Option.map_eq_some_iff.mp h
    exact ⟨_, by rw [set?, Value.strings?_eq_some.mpr rfl, Option.map_some]⟩

theorem extends_nil {d d' : ConfigDraft} : Extends d [] d' ↔ d' = d := by
  constructor
  · intro h
    apply ext_value?
    intro field
    apply Option.ext
    intro v
    simpa using h.values field v
  · rintro rfl
    exact ⟨List.nodup_nil, fun p hp => absurd hp List.not_mem_nil, fun field v => by simp⟩

/-- A value may as well be put into the draft as stand at the head of what is given. -/
theorem value?_or_mem {d d₁ : ConfigDraft} {field : ConfigField} {v : Value}
    (hnone : d.value? field = none) (hset : d.set? field v = some d₁)
    (given : List (ConfigField × Value)) (g : ConfigField) (w : Value) :
    (d₁.value? g = some w ∨ (g, w) ∈ given) ↔
      (d.value? g = some w ∨ (g, w) ∈ (field, v) :: given) := by
  rw [value?_of_set? hset]
  by_cases hg : g = field
  · subst hg
    simp [hnone, eq_comm]
  · simp [hg]

theorem extends_cons {d d' : ConfigDraft} {field : ConfigField} {v : Value}
    {given : List (ConfigField × Value)} :
    Extends d ((field, v) :: given) d' ↔
      d.value? field = none ∧ ∃ d₁, d.set? field v = some d₁ ∧ Extends d₁ given d' := by
  have hdistinct : ((field, v) :: given |>.map Prod.fst).Nodup ↔
      (∀ p ∈ given, p.1 ≠ field) ∧ (given.map Prod.fst).Nodup := by
    rw [List.map_cons, List.nodup_cons]
    simp only [List.mem_map, not_exists, not_and]
  constructor
  · intro h
    have hnone := h.fresh _ List.mem_cons_self
    have hv := (h.values field v).mpr (.inr List.mem_cons_self)
    obtain ⟨d₁, hset⟩ := set?_of_value? hv d
    obtain ⟨hne, hnodup⟩ := hdistinct.mp h.distinct
    have hd₁ := value?_of_set? hset
    refine ⟨hnone, d₁, hset, hnodup, fun p hp => ?_, fun g w => ?_⟩
    · rw [hd₁, if_neg (hne p hp)]
      exact h.fresh p (List.mem_cons_of_mem _ hp)
    · exact (h.values g w).trans (value?_or_mem hnone hset given g w).symm
  · rintro ⟨hnone, d₁, hset, h⟩
    have hd₁ := value?_of_set? hset
    have hne : ∀ p ∈ given, p.1 ≠ field := by
      intro p hp hfield
      have hfresh := h.fresh p hp
      rw [hd₁, if_pos hfield] at hfresh
      cases hfresh
    refine ⟨hdistinct.mpr ⟨hne, h.distinct⟩, fun p hp => ?_, fun g w => ?_⟩
    · rcases List.mem_cons.mp hp with rfl | hp
      · exact hnone
      · have hfresh := h.fresh p hp
        rwa [hd₁, if_neg (hne p hp)] at hfresh
    · exact (h.values g w).trans (value?_or_mem hnone hset given g w)

/-- The members of an object: each has the key of its field. -/
def members (given : List (ConfigField × Value)) : List (String × Value) :=
  given.map fun p => (p.1.key, p.2)

theorem foldlM_add?_eq_some {d d' : ConfigDraft} {ms : List (String × Value)} :
    ms.foldlM add? d = some d' ↔ ∃ given, ms = members given ∧ d.Extends given d' := by
  induction ms generalizing d with
  | nil =>
    constructor
    · intro h
      cases h
      exact ⟨[], rfl, extends_nil.mpr rfl⟩
    · rintro ⟨given, hms, h⟩
      obtain rfl := List.map_eq_nil_iff.mp hms.symm
      rw [extends_nil.mp h]
      rfl
  | cons m ms ih =>
    rw [List.foldlM_cons]
    constructor
    · intro h
      obtain ⟨d₁, hadd, h⟩ := Option.bind_eq_some_iff.mp h
      obtain ⟨field, hkey, hfree, hset⟩ := add?_eq_some.mp hadd
      obtain ⟨given, rfl, hextends⟩ := ih.mp h
      have hnone : d.value? field = none := by
        rw [has_eq] at hfree
        exact Option.isNone_iff_eq_none.mp (Option.isSome_eq_false_iff.mp hfree)
      have hm : m = (field.key, m.2) := Prod.ext hkey rfl
      exact ⟨(field, m.2) :: given, congrArg (· :: members given) hm,
        extends_cons.mpr ⟨hnone, d₁, hset, hextends⟩⟩
    · rintro ⟨given, hms, h⟩
      obtain ⟨⟨field, v⟩, given, rfl, rfl, rfl⟩ := List.map_eq_cons_iff.mp hms.symm
      obtain ⟨hnone, d₁, hset, h⟩ := extends_cons.mp h
      have hfree : d.has field = false := by rw [has_eq, hnone]; rfl
      have hadd : d.add? (field.key, v) = some d₁ := add?_eq_some.mpr ⟨field, rfl, hfree, hset⟩
      exact Option.bind_eq_some_iff.mpr ⟨d₁, hadd, ih.mpr ⟨given, rfl, h⟩⟩

theorem fill?_eq_some {d d' : ConfigDraft} {fields : List ConfigField} {vs : List Value}
    (hnodup : fields.Nodup) (hfree : ∀ field ∈ fields, d.value? field = none) :
    d.fill? fields vs = some d' ↔
      vs.length ≤ fields.length ∧ d.Extends (fields.zip vs) d' := by
  induction fields generalizing d vs with
  | nil =>
    cases vs with
    | nil => simp [fill?, extends_nil, eq_comm]
    | cons v vs => simp [fill?]
  | cons field fields ih =>
    cases vs with
    | nil => simp [fill?, extends_nil, eq_comm]
    | cons v vs =>
      obtain ⟨hnot, hnodup⟩ := List.nodup_cons.mp hnodup
      have hnone := hfree field List.mem_cons_self
      have hrest {d₁ : ConfigDraft} (hset : d.set? field v = some d₁) :
          ∀ g ∈ fields, d₁.value? g = none := by
        intro g hg
        have hne : g ≠ field := by
          rintro rfl
          exact hnot hg
        rw [value?_of_set? hset, if_neg hne]
        exact hfree g (List.mem_cons_of_mem _ hg)
      rw [fill?, Option.bind_eq_some_iff, List.zip_cons_cons, extends_cons]
      constructor
      · rintro ⟨d₁, hset, h⟩
        obtain ⟨hlength, h⟩ := (ih hnodup (hrest hset)).mp h
        exact ⟨Nat.succ_le_succ hlength, hnone, d₁, hset, h⟩
      · rintro ⟨hlength, -, d₁, hset, h⟩
        exact ⟨d₁, hset, (ih hnodup (hrest hset)).mpr ⟨Nat.le_of_succ_le_succ hlength, h⟩⟩

end ConfigDraft

end ReadBarrier
