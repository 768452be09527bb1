import ReadBarrier.Config.File
import ReadBarrier.Proofs.Config.Acceptance

/-!
Configurations written out, and read back.
-/

namespace ReadBarrier

open Json (Value Gap Listing More Member Spells IsValue IsText literal)

namespace Json

variable {α : Type} {P : List Char → α → List Char → Prop} {opening close : Char}
  {text : α → List Char} {pad : List Char}

theorem more_of_texts (hpad : ∀ c ∈ pad, IsBlank c) (h : ∀ a t, P (text a ++ t) a t)
    (as : List α) (t : List Char) :
    More P close (as.flatMap (fun a => ',' :: pad ++ text a) ++ close :: t) as t := by
  induction as with
  | nil => exact .done (Gap.refl _)
  | cons a as ih =>
    rw [List.flatMap_cons]
    simp only [List.cons_append, List.append_assoc]
    exact .next (Gap.refl _) ⟨pad, rfl, hpad⟩ (h a _) ih

theorem listing_of_texts (hpad : ∀ c ∈ pad, IsBlank c) (h : ∀ a t, P (text a ++ t) a t)
    (as : List α) (t : List Char) :
    Listing P opening close
      (opening :: ((',' :: pad).intercalate (as.map text) ++ close :: t)) as t := by
  cases as with
  | nil => exact .empty (Gap.refl _)
  | cons a as =>
    rw [intercalate_map_cons, List.append_assoc]
    exact .first (Gap.refl _) (h a _) (more_of_texts hpad h as t)

theorem isValue_literal (s : String) (t : List Char) :
    IsValue (literal s.toList ++ t) (.string s) t := by
  have h := IsValue.string (spells_encoded s.toList t)
  rw [String.ofList_toList] at h
  simpa [literal] using h

variable {ρ : Type}

theorem isValue_valueText (hpad : ∀ b ∈ pad, IsBlank b) (r : ρ) (field : Field ρ) (t : List Char) :
    IsValue (valueText pad field r ++ t) (field.value r) t := by
  obtain ⟨key, access⟩ := field
  cases access with
  | boolean get set =>
    simp only [valueText, Field.value]
    cases get r with
    | true => exact .yes
    | false => exact .no
  | string get set => exact isValue_literal (get r) t
  | strings get set =>
    have hlisting : Listing (fun s a t => IsValue s (.string a) t) '[' ']' _ _ t :=
      listing_of_texts hpad isValue_literal (get r) t
    have hitems := IsValue.array (hlisting.map (f := Value.string) fun _ _ _ h => h)
    simpa [valueText, Field.value] using hitems

theorem no_pad : ∀ b ∈ ([] : List Char), IsBlank b := fun _ hb => absurd hb List.not_mem_nil

theorem member_memberText (r : ρ) (field : Field ρ) (t : List Char) :
    Member IsValue (memberText r field ++ t) (field.key, field.value r) t := by
  have hvalue := isValue_valueText no_pad r field t
  have h := Member.mk (spells_encoded field.key.toList _) (Gap.refl _) (Gap.refl _) hvalue
  rw [String.ofList_toList] at h
  simpa [memberText, literal] using h

/-- The object of some fields is a JSON text, and says these fields. -/
theorem isText_objectText (fields : List (Field ρ)) (r : ρ) :
    IsText (objectText fields r) (.object (fields.map fun field => (field.key, field.value r))) := by
  let member (field : Field ρ) : String × Value := (field.key, field.value r)
  have hlisting : Listing (fun s field t => Member IsValue s (member field) t) '{' '}' _ _ [] :=
    listing_of_texts no_pad (member_memberText r) fields []
  have hobject := IsValue.object (hlisting.map (f := member) fun _ _ _ h => h)
  refine ⟨_, _, Gap.refl _, ?_, Gap.refl _⟩
  simpa [objectText] using hobject

end Json

namespace TrackingConfig

/-- The value of a field. -/
def value (c : TrackingConfig) : ConfigField → Value
  | .enabled => .boolean c.enabled
  | .functionNamePrefix => .string c.functionNamePrefix
  | .instrumentedGlobals => .array (c.instrumentedGlobals.map .string)

/-- The fields with their values. -/
def entries (c : TrackingConfig) (fields : List ConfigField) : List (ConfigField × Value) :=
  fields.map fun field => (field, c.value field)

/-- The object of some fields, without blanks. -/
def objectText (c : TrackingConfig) (fields : List ConfigField) : List Char :=
  Json.objectText (fields.map ConfigField.declared) c

theorem isText_objectText (c : TrackingConfig) (fields : List ConfigField) :
    IsText (c.objectText fields) (.object (ConfigDraft.members (c.entries fields))) := by
  have hmembers : (fields.map ConfigField.declared).map (fun field => (field.key, field.value c)) =
      ConfigDraft.members (c.entries fields) := by
    rw [ConfigDraft.members, entries, List.map_map, List.map_map]
    apply List.map_congr_left
    intro field _
    cases field <;> rfl
  exact hmembers ▸ Json.isText_objectText (fields.map ConfigField.declared) c

/-- The draft with some fields of the configuration. -/
def only (c : TrackingConfig) (fields : List ConfigField) : ConfigDraft where
  enabled := if .enabled ∈ fields then some c.enabled else none
  functionNamePrefix :=
    if .functionNamePrefix ∈ fields then some c.functionNamePrefix else none
  instrumentedGlobals :=
    if .instrumentedGlobals ∈ fields then some c.instrumentedGlobals else none

theorem holds_only (c : TrackingConfig) {fields : List ConfigField} (h : fields.Nodup) :
    (c.only fields).Holds (c.entries fields) where
  distinct := by simpa [entries, List.map_map, Function.comp_def] using h
  values field v := by
    have hvalue : (c.only fields).value? field =
        if field ∈ fields then some (c.value field) else none := by
      cases field <;> simp only [only, ConfigDraft.value?, value] <;> split <;> rfl
    rw [hvalue]
    by_cases hfield : field ∈ fields
    · simp [entries, hfield]
    · simp [entries, hfield]

/-- With a library that does what is documented, every configuration is written as a text that is
read as the configuration, if it can be used, and refused for the value that cannot. -/
theorem fromJson_write {json : JsonLibrary} (hjson : json.Documented) (c : TrackingConfig) :
    let text := json.write declaration c
    IsText text.toList (.object (ConfigDraft.members (c.entries ConfigField.all))) ∧
      fromJson json text =
        match c.validate with
        | .ok () => .ok c
        | .error value => .error (.invalid value) := by
  intro text
  have htext : IsText text.toList (.object (ConfigDraft.members (c.entries ConfigField.all))) :=
    hjson.writes declaration c ▸ c.isText_objectText ConfigField.all
  refine ⟨htext, ?_⟩
  rw [fromJson_of_configures hjson htext (.object (c.holds_only (by decide)))]
  rfl

/-- One configuration that can be used, and one that cannot. -/
theorem fromJson_write_escaped :
    let c : TrackingConfig := { functionNamePrefix := "\"\\\n\x01é", instrumentedGlobals := ["😀"] }
    let d : TrackingConfig := { c with instrumentedGlobals := ["\t", "\x00"] }
    Json.library.Documented ∧ c.validate = .ok () ∧ ofJson c.toJson = .ok c ∧
      ofJson d.toJson = .error (.invalid .blankGlobal) := by
  intro c d
  have hc : c.validate = .ok () := by decide
  have hd : d.validate = .error .blankGlobal := by decide
  obtain ⟨-, hread⟩ := fromJson_write Json.library_documented c
  obtain ⟨-, hrefused⟩ := fromJson_write Json.library_documented d
  rw [hc] at hread
  rw [hd] at hrefused
  exact ⟨Json.library_documented, hc, hread, hrefused⟩

end TrackingConfig

end ReadBarrier
