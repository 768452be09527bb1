import ReadBarrier.Proofs.Config.Writing
import ReadBarrier.Proofs.Toml.Reading

/-!
Configurations are the same in TOML and in JSON, whichever libraries read them.
-/

namespace ReadBarrier

open Json (IsText Value encodeChar encoded_encodeChar intercalate_map_cons literal literal_append
  valueText)

namespace Toml

/-! ### What is written as in JSON -/

/-- A text that is written as in JSON is a basic string, unless it holds the one character that JSON
leaves as it is and TOML does not take. -/
theorem spells_encoded {cs : List Char} (h : '\x7f' ∉ cs) (t : List Char) :
    Spells (cs.flatMap encodeChar ++ '"' :: t) cs t := by
  induction cs with
  | nil => exact .close
  | cons c cs ih =>
    have hrest := ih fun hcs => h (List.mem_cons_of_mem _ hcs)
    rw [List.flatMap_cons, List.append_assoc]
    generalize hw : encodeChar c = written
    cases hw ▸ encoded_encodeChar c with
    | plain hquote hbackslash hcontrol =>
      have hdelete : c.toNat ≠ 0x7F := by
        intro hc
        obtain rfl : c = '\x7f' := Char.toNat_inj.mp hc
        exact h List.mem_cons_self
      exact .plain hquote hbackslash (.inr hcontrol) hdelete hrest
    | @escape e he hslash =>
      have hescape : (e, c) ∈ escapes := by
        simp only [Json.escapes, List.mem_cons, Prod.mk.injEq, List.not_mem_nil, or_false] at he
        rcases he with ⟨rfl, rfl⟩ | ⟨rfl, rfl⟩ | ⟨rfl, rfl⟩ | ⟨rfl, rfl⟩ | ⟨rfl, rfl⟩ |
          ⟨rfl, rfl⟩ | ⟨rfl, rfl⟩ | ⟨rfl, rfl⟩
        case inr.inr.inl => exact absurd rfl hslash
        all_goals decide
      exact .escape hescape hrest
    | control hquad => exact .unit hquad hrest

section Array

variable {pad : List Char} (hpad : ∀ b ∈ pad, b = ' ' ∨ b = '\t')

include hpad

theorem more_literals {as : List String} (h : ∀ a ∈ as, '\x7f' ∉ a.toList) (t : List Char) :
    More (as.flatMap (fun a => ',' :: pad ++ literal a.toList) ++ ']' :: t) as t := by
  induction as with
  | nil => exact .done (.refl _)
  | cons a as ih =>
    have hrest := ih fun b hb => h b (List.mem_cons_of_mem _ hb)
    have hnext := More.next (.refl _) ⟨pad, rfl, hpad⟩ (spells_encoded (h a List.mem_cons_self) _)
      hrest
    rw [String.ofList_toList] at hnext
    simpa [literal] using hnext

theorem strings_literals {as : List String} (h : ∀ a ∈ as, '\x7f' ∉ a.toList) (t : List Char) :
    Strings ((',' :: pad).intercalate (as.map fun a => literal a.toList) ++ ']' :: t) as t := by
  cases as with
  | nil => exact .empty (.refl _)
  | cons a as =>
    have hmore := more_literals hpad (fun b hb => h b (List.mem_cons_of_mem _ hb)) t
    have hfirst := Strings.first (.refl _) (spells_encoded (h a List.mem_cons_self) _) hmore
    rw [String.ofList_toList] at hfirst
    rw [intercalate_map_cons, List.append_assoc, literal_append]
    exact hfirst

end Array

/-! ### Lines -/

/-- What may stand behind the last line: any number of line ends. -/
def Trailing (t : List Char) : Prop := ∀ c ∈ t, c = '\n'

theorem Trailing.lines {t : List Char} (h : Trailing t) : Lines t [] := by
  induction t with
  | nil => exact .nil
  | cons c t ih =>
    obtain rfl := h c List.mem_cons_self
    exact .empty (ih fun d hd => h d (List.mem_cons_of_mem _ hd))

section Lines

variable {α : Type} {text : α → List Char} {member : α → String × Value} {ending : List Char}
  (hassigns : ∀ a t, Assigns (text a ++ t) (member a) t) (hending : Trailing ending)

include hassigns hending

theorem lines_flatMap (a : α) (as : List α) :
    Lines (text a ++ (as.flatMap (fun b => '\n' :: text b) ++ ending))
      ((a :: as).map member) := by
  induction as generalizing a with
  | nil =>
    cases ending with
    | nil => exact .last (hassigns a _)
    | cons c ending =>
      obtain rfl := hending c List.mem_cons_self
      have hrest : Trailing ending := fun d hd => hending d (List.mem_cons_of_mem _ hd)
      exact .line (hassigns a _) hrest.lines
  | cons b as ih =>
    rw [List.flatMap_cons, List.append_assoc]
    exact .line (hassigns a _) (ih b)

theorem lines_intercalate (as : List α) :
    Lines (['\n'].intercalate (as.map text) ++ ending) (as.map member) := by
  cases as with
  | nil => exact hending.lines
  | cons a as =>
    rw [intercalate_map_cons, List.append_assoc]
    exact lines_flatMap hassigns hending a as

end Lines

end Toml

namespace TrackingConfig

/-- The line of a field; `pad` stands behind the commas of an array. -/
def lineText (pad : List Char) (c : TrackingConfig) (field : ConfigField) : List Char :=
  field.key.toList ++ ' ' :: '=' :: ' ' :: valueText pad field.declared c

/-- The lines of some fields, with `ending` behind the last one. -/
def linesText (pad ending : List Char) (c : TrackingConfig) (fields : List ConfigField) :
    List Char :=
  ['\n'].intercalate (fields.map (c.lineText pad)) ++ ending

section Lines

variable {pad ending : List Char} {c : TrackingConfig} (hpad : ∀ b ∈ pad, b = ' ' ∨ b = '\t')
  (hc : ∀ s ∈ c.functionNamePrefix :: c.instrumentedGlobals, '\x7f' ∉ s.toList)

include hpad hc

theorem isItem_valueText (field : ConfigField) (t : List Char) :
    Toml.IsItem (valueText pad field.declared c ++ t) (c.value field) t := by
  cases field with
  | enabled => exact .boolean
  | functionNamePrefix =>
    have hstring := Toml.IsItem.string (Toml.spells_encoded (hc _ List.mem_cons_self) t)
    rw [String.ofList_toList] at hstring
    simpa [valueText, ConfigField.declared, ConfigField.access, literal, value] using hstring
  | instrumentedGlobals =>
    have hglobals : ∀ a ∈ c.instrumentedGlobals, '\x7f' ∉ a.toList := fun a ha =>
      hc a (List.mem_cons_of_mem _ ha)
    have hstrings := Toml.IsItem.strings (Toml.strings_literals hpad hglobals t)
    simpa [valueText, ConfigField.declared, ConfigField.access, value] using hstrings

theorem assigns_lineText (field : ConfigField) (t : List Char) :
    Toml.Assigns (c.lineText pad field ++ t) (field.key, c.value field) t := by
  have hbare : field.key.toList.all Toml.isBare := by cases field <;> decide
  have hkey : Toml.IsKey field.key.toList := by
    refine ⟨by cases field <;> decide, fun c hc => ?_⟩
    simpa [Toml.isBare, or_assoc] using List.all_eq_true.mp hbare c hc
  have hblank : ∀ b ∈ [' '], b = ' ' ∨ b = '\t' := by simp
  have hline := Toml.Assigns.mk hkey ⟨[' '], rfl, hblank⟩ ⟨[' '], rfl, hblank⟩
    (isItem_valueText hpad hc field t) (.refl t)
  rw [String.ofList_toList] at hline
  simpa [lineText] using hline

theorem isDocument_linesText (hending : Toml.Trailing ending) {fields : List ConfigField}
    (hfields : fields.Nodup) :
    Toml.IsDocument (c.linesText pad ending fields)
      (ConfigDraft.members (c.entries fields)) where
  lines := by
    have hlines := Toml.lines_intercalate (assigns_lineText hpad hc) hending fields
    simpa [linesText, ConfigDraft.members, entries, Function.comp_def] using hlines
  keys := by
    have hkeys := hfields.map fun _ _ => ConfigField.key_injective
    simpa [ConfigDraft.members, entries, Function.comp_def] using hkeys

end Lines

/-- The fields of a configuration say the same in both documents, whichever fields they are and in
whichever order, and whichever libraries read them: the default with these fields, or which value of
it cannot be used. -/
theorem fromToml_eq_fromJson {json : JsonLibrary} {toml : TomlLibrary} (hjson : json.Documented)
    (htoml : toml.Documented) (c : TrackingConfig)
    (hc : ∀ s ∈ c.functionNamePrefix :: c.instrumentedGlobals, '\x7f' ∉ s.toList)
    {fields : List ConfigField} (hfields : fields.Nodup) {pad ending : List Char}
    (hpad : ∀ b ∈ pad, b = ' ' ∨ b = '\t') (hending : Toml.Trailing ending) {text : String}
    {ms : List (String × Value)} (htext : IsText text.toList (.object ms))
    (hms : ms.Perm (ConfigDraft.members (c.entries fields))) :
    fromToml toml (String.ofList (c.linesText pad ending fields)) = fromJson json text ∧
      fromJson json text =
        match ((c.only fields).overlay {}).validate with
        | .ok () => .ok ((c.only fields).overlay {})
        | .error value => .error (.invalid value) := by
  have hdraft : Configures (.object (ConfigDraft.members (c.entries fields))) (c.only fields) :=
    .object (c.holds_only hfields)
  have hdocument := isDocument_linesText hpad hc hending hfields
  rw [← String.toList_ofList (l := c.linesText pad ending fields)] at hdocument
  have hread := htoml.reads declaration hdocument
  rw [ofValue?_declaration, draft?_eq_some.mpr hdraft, Option.map_some] at hread
  have hsame := fromJson_of_configures hjson htext (hdraft.perm hms.symm)
  exact ⟨(ofRead_eq_validated hread).trans hsame.symm, hsame⟩

theorem fromToml_eq_fromJson_escaped :
    let c : TrackingConfig :=
      { functionNamePrefix := "\"\\\n\x01é", instrumentedGlobals := ["load", "😀"] }
    let toml := "instrumentedGlobals = [\"load\", \"😀\"]\n" ++
      "functionNamePrefix = \"\\\"\\\\\\n\\u0001é\"\n"
    let json := "\x7b\"functionNamePrefix\":\"\\\"\\\\\\n\\u0001é\"," ++
      "\"instrumentedGlobals\":[\"load\",\"😀\"]\x7d"
    Json.library.Documented ∧ Toml.library.Documented ∧
      fromToml Toml.library toml = fromJson Json.library json ∧
      fromJson Json.library json = .ok c := by
  intro c toml json
  have htoml : String.ofList
      (c.linesText [' '] ['\n'] [.instrumentedGlobals, .functionNamePrefix]) = toml := by decide
  have hjson : json.toList = c.objectText [.functionNamePrefix, .instrumentedGlobals] := by decide
  have htext := c.isText_objectText [.functionNamePrefix, .instrumentedGlobals]
  rw [← hjson] at htext
  rw [← htoml]
  exact ⟨Json.library_documented, Toml.library_documented,
    fromToml_eq_fromJson Json.library_documented Toml.library_documented c (by decide) (by decide)
      (List.forall_mem_singleton.mpr (.inl rfl)) (fun _ => List.mem_singleton.mp) htext
      (List.Perm.swap ..)⟩

end TrackingConfig

end ReadBarrier
