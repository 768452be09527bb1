import Mathlib.Data.List.Nodup
import Mathlib.Data.List.Perm.Basic
import ReadBarrier.Proofs.Config.Draft
import ReadBarrier.Proofs.Json.Blanks
import ReadBarrier.Proofs.Json.Document

/-!
Which JSON texts are configurations, whichever library reads them.
-/

namespace ReadBarrier

open Json (Value IsText squeeze)

/-! ### Documents -/

/-- The document says what the draft holds, by the keys of the fields or in their order. -/
inductive Configures : Value → ConfigDraft → Prop
  | object {given : List (ConfigField × Value)} {d : ConfigDraft} (h : d.Holds given) :
      Configures (.object (ConfigDraft.members given)) d
  | array {items : List Value} {d : ConfigDraft} (hlength : items.length ≤ ConfigField.all.length)
      (h : d.Holds (ConfigField.all.zip items)) : Configures (.array items) d

theorem draft?_eq_some {v : Value} {d : ConfigDraft} : v.draft? = some d ↔ Configures v d := by
  constructor
  · intro h
    cases v with
    | object ms =>
      obtain ⟨given, rfl, hextends⟩ := ConfigDraft.foldlM_add?_eq_some.mp h
      exact .object (ConfigDraft.holds_iff.mpr hextends)
    | array items =>
      obtain ⟨hlength, h⟩ := (ConfigDraft.fill?_eq_some (by decide) (by decide)).mp h
      exact .array hlength (ConfigDraft.holds_iff.mpr h)
    | _ => cases h
  · intro h
    cases h with
    | object h => exact ConfigDraft.foldlM_add?_eq_some.mpr ⟨_, rfl, ConfigDraft.holds_iff.mp h⟩
    | array hlength h =>
      exact (ConfigDraft.fill?_eq_some (by decide) (by decide)).mpr
        ⟨hlength, ConfigDraft.holds_iff.mp h⟩

namespace ConfigDraft

theorem member_injective {p q : ConfigField × Value} (h : (p.1.key, p.2) = (q.1.key, q.2)) :
    p = q := by
  obtain ⟨hkey, hvalue⟩ := Prod.mk.inj h
  exact Prod.ext (ConfigField.key_injective hkey) hvalue

theorem configures_object {given : List (ConfigField × Value)} {d : ConfigDraft} :
    Configures (.object (members given)) d ↔ d.Holds given := by
  constructor
  · intro h
    generalize hv : Value.object (members given) = v at h
    cases h with
    | @object given' d h =>
      have hmembers : given.map _ = given'.map _ := Value.object.inj hv
      rwa [(List.map_inj_right fun _ _ => member_injective).mp hmembers]
    | array => cases hv
  · exact .object

/-- Members in another order are members of the same values in another order. -/
theorem perm_members {given : List (ConfigField × Value)} {ms : List (String × Value)}
    (h : (members given).Perm ms) : ∃ given', ms = members given' ∧ given.Perm given' := by
  have hcomp := congrFun (congrFun (List.eq_map_comp_perm fun p : ConfigField × Value =>
    (p.1.key, p.2)) ms) given
  obtain ⟨given', hms, hperm⟩ := hcomp.mpr h.symm
  exact ⟨given', hms, hperm.symm⟩

theorem Holds.perm {d : ConfigDraft} {given given' : List (ConfigField × Value)}
    (h : d.Holds given) (hperm : given.Perm given') : d.Holds given' where
  distinct := (hperm.map Prod.fst).nodup_iff.mp h.distinct
  values field v := (h.values field v).trans hperm.mem_iff

end ConfigDraft

theorem Configures.given {ms : List (String × Value)} {d : ConfigDraft}
    (h : Configures (.object ms) d) : ∃ given, ms = ConfigDraft.members given ∧ d.Holds given := by
  cases h with
  | object h => exact ⟨_, rfl, h⟩

theorem Configures.perm {ms ms' : List (String × Value)} {d : ConfigDraft}
    (h : Configures (.object ms) d) (hperm : ms.Perm ms') : Configures (.object ms') d := by
  obtain ⟨given, rfl, hholds⟩ := h.given
  obtain ⟨given', rfl, hgiven⟩ := ConfigDraft.perm_members hperm
  exact .object (hholds.perm hgiven)

/-! ### Configurations -/

/-- Whether a value is of the type of a field. -/
def ConfigField.Takes : ConfigField → Value → Prop
  | enabled, v => ∃ b, v = .boolean b
  | functionNamePrefix, v => ∃ s, v = .string s
  | instrumentedGlobals, v => ∃ l : List String, v = .array (l.map .string)

theorem ConfigDraft.takes_of_value? {d : ConfigDraft} {field : ConfigField} {v : Value}
    (h : d.value? field = some v) : field.Takes v := by
  cases field <;> obtain ⟨a, -, rfl⟩ := Option.map_eq_some_iff.mp h <;> exact ⟨a, rfl⟩

/-- Somewhere in the document is a value of the wrong type. -/
def Mistyped : Value → Prop
  | .object members => ∃ field v, (ConfigField.key field, v) ∈ members ∧ ¬ field.Takes v
  | .array items => ∃ p ∈ ConfigField.all.zip items, ¬ p.1.Takes p.2
  | _ => True

theorem Configures.typed {v : Value} {d : ConfigDraft} (h : Configures v d) : ¬ Mistyped v := by
  cases h with
  | @object given d h =>
    rintro ⟨field, v, hv, hwrong⟩
    obtain ⟨p, hp, heq⟩ := List.mem_map.mp hv
    obtain rfl := ConfigDraft.member_injective (q := (field, v)) heq
    exact hwrong (ConfigDraft.takes_of_value? ((h.values field v).mpr hp))
  | array hlength h =>
    rintro ⟨p, hp, hwrong⟩
    exact hwrong (ConfigDraft.takes_of_value? ((h.values p.1 p.2).mpr hp))

namespace TrackingConfig

theorem validated_eq_ok {c d : TrackingConfig} :
    c.validated = .ok d ↔ c = d ∧ d.validate = .ok () := by
  unfold validated
  split
  · next h =>
    constructor
    · intro heq
      cases heq
      exact ⟨rfl, h⟩
    · rintro ⟨rfl, -⟩
      rfl
  · next h =>
    constructor
    · intro heq
      cases heq
    · rintro ⟨rfl, hvalid⟩
      rw [h] at hvalid
      cases hvalid

theorem ofRead_eq_validated {ε : Type} {error : ε → ConfigError} {read : Except ε TrackingConfig}
    {c : TrackingConfig} (h : read.toOption = some c) : ofRead error read = c.validated := by
  cases read with
  | error fault => cases h
  | ok d =>
    obtain rfl := Option.some.inj h
    rfl

theorem ofRead_eq_ok_iff {ε : Type} {error : ε → ConfigError} {read : Except ε TrackingConfig}
    {c : TrackingConfig} :
    ofRead error read = .ok c ↔ read.toOption = some c ∧ c.validate = .ok () := by
  cases read with
  | error fault => simp [ofRead]
  | ok d => simp [ofRead, validated_eq_ok]

/-! ### Texts -/

section Library

variable {json : JsonLibrary}

/-- A JSON text that says a draft is taken for what the draft says. -/
theorem fromJson_of_configures (hjson : json.Documented) {text : String} {v : Value}
    {d : ConfigDraft} (h : IsText text.toList v) (hd : Configures v d) :
    fromJson json text = (d.overlay {}).validated := by
  apply ofRead_eq_validated
  rw [hjson.reads declaration h, ofValue?_declaration, draft?_eq_some.mpr hd, Option.map_some]

/-- The value of a text decides whether it is accepted. -/
theorem fromJson_iff_ofValue? (hjson : json.Documented) {text : String} {v : Value}
    (h : IsText text.toList v) (c : TrackingConfig) :
    fromJson json text = .ok c ↔ declaration.ofValue? v = some c ∧ c.validate = .ok () := by
  rw [fromJson, ofRead_eq_ok_iff, hjson.reads declaration h]

theorem fromJson_iff (hjson : json.Documented) {text : String} {v : Value}
    (h : IsText text.toList v) (c : TrackingConfig) :
    fromJson json text = .ok c ↔ ∃ d, Configures v d ∧ c = d.overlay {} ∧ c.validate = .ok () := by
  rw [fromJson_iff_ofValue? hjson h, ofValue?_declaration, Option.map_eq_some_iff]
  constructor
  · rintro ⟨⟨d, hd, rfl⟩, hvalid⟩
    exact ⟨d, draft?_eq_some.mp hd, rfl, hvalid⟩
  · rintro ⟨d, hd, rfl, hvalid⟩
    exact ⟨⟨d, draft?_eq_some.mpr hd, rfl⟩, hvalid⟩

/-- A text that is accepted is a JSON text. -/
theorem isText_of_fromJson (hjson : json.Documented) {text : String} {c : TrackingConfig}
    (h : fromJson json text = .ok c) : ∃ v, IsText text.toList v := by
  by_contra hnone
  have hread := (ofRead_eq_ok_iff.mp h).1
  rw [hjson.refuses declaration (not_exists.mp hnone)] at hread
  cases hread

end Library

/-- Which texts are configurations: what `c` has to do with a text that is accepted as `c`, and what
has no part in that. -/
structure JsonContract (json : JsonLibrary) (text : String) : Prop where
  /-- The text is a JSON text that says some fields, and `c` is the default with these. -/
  accepts (c : TrackingConfig) : fromJson json text = .ok c ↔
    ∃ v d, IsText text.toList v ∧ Configures v d ∧ c = d.overlay {} ∧ c.validate = .ok ()
  /-- The value of a JSON text decides, whichever way the text is taken apart. -/
  decided {v : Value} (h : IsText text.toList v) (c : TrackingConfig) : fromJson json text = .ok c ↔
    ∃ d, Configures v d ∧ c = d.overlay {} ∧ c.validate = .ok ()
  /-- An unknown key is not accepted. -/
  unknown {members : List (String × Value)} (h : IsText text.toList (.object members))
    {m : String × Value} (hm : m ∈ members) (hkey : ∀ field : ConfigField, m.1 ≠ field.key)
    (c : TrackingConfig) : fromJson json text ≠ .ok c
  /-- A repeated key is not accepted. -/
  repeated {members : List (String × Value)} (h : IsText text.toList (.object members))
    (hkeys : ¬ (members.map Prod.fst).Nodup) (c : TrackingConfig) : fromJson json text ≠ .ok c
  /-- A value of the wrong type is not accepted, wherever it is. -/
  mistyped {v : Value} (h : IsText text.toList v) (hv : Mistyped v) (c : TrackingConfig) :
    fromJson json text ≠ .ok c
  /-- The order of the members has no part. -/
  permuted {other : String} {members members' : List (String × Value)}
    (h : IsText text.toList (.object members)) (h' : IsText other.toList (.object members'))
    (hperm : members.Perm members') (c : TrackingConfig) :
    fromJson json text = .ok c ↔ fromJson json other = .ok c
  /-- Blanks between tokens have no part. -/
  respaced {other : String} {v v' : Value} (h : IsText text.toList v) (h' : IsText other.toList v')
    (hsqueeze : squeeze false text.toList = squeeze false other.toList) (c : TrackingConfig) :
    fromJson json text = .ok c ↔ fromJson json other = .ok c
  /-- The values alone, in the order of the fields, do as well as members. -/
  positional {other : String} {items : List Value} (h : IsText text.toList (.array items))
    (hlength : items.length ≤ ConfigField.all.length)
    (h' : IsText other.toList (.object (ConfigDraft.members (ConfigField.all.zip items))))
    (c : TrackingConfig) : fromJson json text = .ok c ↔ fromJson json other = .ok c

/-- With any library that does what is documented, the configurations are the texts of the
contract. -/
theorem fromJson_accepts {json : JsonLibrary} (hjson : json.Documented) (text : String) :
    JsonContract json text where
  accepts c := by
    constructor
    · intro h
      obtain ⟨v, hv⟩ := isText_of_fromJson hjson h
      obtain ⟨d, hd, hc⟩ := (fromJson_iff hjson hv c).mp h
      exact ⟨v, d, hv, hd, hc⟩
    · rintro ⟨v, d, hv, hd, hc, hvalid⟩
      exact (fromJson_iff hjson hv c).mpr ⟨d, hd, hc, hvalid⟩
  decided h c := fromJson_iff hjson h c
  unknown {members} h {m} hm hkey c hc := by
    obtain ⟨d, hd, -⟩ := (fromJson_iff hjson h c).mp hc
    obtain ⟨given, rfl, -⟩ := hd.given
    obtain ⟨p, -, rfl⟩ := List.mem_map.mp hm
    exact hkey p.1 rfl
  repeated {members} h hkeys c hc := by
    obtain ⟨d, hd, -⟩ := (fromJson_iff hjson h c).mp hc
    obtain ⟨given, rfl, hholds⟩ := hd.given
    have hnodup := List.Nodup.map (fun _ _ => ConfigField.key_injective) hholds.distinct
    rw [ConfigDraft.members, List.map_map] at hkeys
    rw [List.map_map] at hnodup
    exact hkeys hnodup
  mistyped {v} h hv c hc := by
    obtain ⟨d, hd, -⟩ := (fromJson_iff hjson h c).mp hc
    exact hd.typed hv
  permuted {other members members'} h h' hperm c := by
    rw [fromJson_iff hjson h, fromJson_iff hjson h']
    constructor
    · rintro ⟨d, hd, hc⟩
      exact ⟨d, hd.perm hperm, hc⟩
    · rintro ⟨d, hd, hc⟩
      exact ⟨d, hd.perm hperm.symm, hc⟩
  respaced {other v v'} h h' hsqueeze c := by
    -- both texts say what is said without the blanks, and a text says one thing only
    have hsay {s : List Char} {u : Value} (hs : IsText s u) :
        (json.read declaration (String.ofList s)).toOption = declaration.ofValue? u :=
      hjson.reads declaration (by rwa [String.toList_ofList])
    have hvalue := hsay h.squeeze
    rw [hsqueeze, hsay h'.squeeze] at hvalue
    rw [fromJson_iff_ofValue? hjson h, fromJson_iff_ofValue? hjson h', hvalue]
  positional {other items} h hlength h' c := by
    rw [fromJson_iff hjson h, fromJson_iff hjson h']
    constructor
    · rintro ⟨d, hd, hc⟩
      cases hd with
      | array _ hholds => exact ⟨d, .object hholds, hc⟩
    · rintro ⟨d, hd, hc⟩
      exact ⟨d, .array hlength (ConfigDraft.configures_object.mp hd), hc⟩

/-- A key may be spelled with escapes. -/
theorem fromJson_accepts_escaped :
    Json.library.Documented ∧
      fromJson Json.library "\x7b\"\\u0065nabled\" : false\x7d" = .ok { enabled := false } := by
  have hholds : ConfigDraft.Holds { enabled := some false } [(.enabled, .boolean false)] :=
    { distinct := by decide
      values := fun field v => by cases field <;> simp [ConfigDraft.value?, eq_comm] }
  have hletters : Json.Spells "nabled\" : false\x7d".toList "nabled".toList " : false\x7d".toList :=
    Json.spells_encoded "nabled".toList _
  have hletter : Json.IsQuad ['0', '0', '6', '5'] 0x65 := ⟨rfl, by decide⟩
  have hkey : Json.Spells "\\u0065nabled\" : false\x7d".toList "enabled".toList
      " : false\x7d".toList :=
    .unit hletter (by simp [Json.IsHighSurrogate]) (by simp [Json.IsLowSurrogate]) hletters
  have hblank : ∀ b ∈ [' '], Json.IsBlank b := by simp [Json.IsBlank]
  have hmember : Json.Member Json.IsValue "\"\\u0065nabled\" : false\x7d".toList
      ("enabled", .boolean false) "\x7d".toList :=
    .mk hkey ⟨[' '], rfl, hblank⟩ ⟨[' '], rfl, hblank⟩ .no
  have htext : IsText "\x7b\"\\u0065nabled\" : false\x7d".toList
      (.object (ConfigDraft.members [(.enabled, .boolean false)])) :=
    ⟨_, _, .refl _, .object (.first (.refl _) hmember (.done (.refl _))), .refl _⟩
  refine ⟨Json.library_documented, ?_⟩
  exact ((fromJson_accepts Json.library_documented _).accepts _).mpr
    ⟨_, _, htext, .object hholds, rfl, rfl⟩

end TrackingConfig

end ReadBarrier
