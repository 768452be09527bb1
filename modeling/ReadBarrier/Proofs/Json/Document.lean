import ReadBarrier.Proofs.Json.Reading

/-!
Documents: a JSON text is read as what its value says, and nothing else is read.
-/

namespace ReadBarrier

variable {ρ : Type} {R : Record ρ}

theorem Record.mem_of_field? {key : String} {field : Field ρ} (h : R.field? key = some field) :
    field ∈ R.fields ∧ field.key = key := by
  have hfind : R.fields.find? (·.key == key) = some field := h
  have hkey := List.find?_some hfind
  exact ⟨List.mem_of_find?_eq_some hfind, beq_iff_eq.mp hkey⟩

namespace Filling

theorem given_of_put? {x y : Filling ρ} {field : Field ρ} {v : Json.Value}
    (h : x.put? field v = some y) : y.given = field.key :: x.given := by
  obtain ⟨key, access⟩ := field
  cases access <;> obtain ⟨_, -, rfl⟩ := Option.map_eq_some_iff.mp h <;> rfl

/-- How many fields have not been given. -/
def missing (R : Record ρ) (x : Filling ρ) : Nat :=
  (R.fields.filter fun field => field.key ∉ x.given).length

theorem missing_of_add? {x y : Filling ρ} {m : String × Json.Value} (h : R.add? x m = some y) :
    y.missing R < x.missing R := by
  unfold Record.add? at h
  split at h
  · cases h
  · next field hfield =>
    split at h
    · cases h
    · next hfree =>
      have hfilter : (R.fields.filter fun f => f.key ∉ y.given) =
          (R.fields.filter fun f => f.key ∉ x.given).filter fun f => f.key ≠ field.key := by
        rw [List.filter_filter]
        simp only [given_of_put? h, List.mem_cons, not_or, Bool.decide_and]
      have hmem : field ∈ R.fields.filter fun f => f.key ∉ x.given :=
        List.mem_filter.mpr ⟨(Record.mem_of_field? hfield).1, decide_eq_true hfree⟩
      rw [missing, missing, hfilter, List.length_filter_lt_length_iff_exists]
      exact ⟨field, hmem, by simp⟩

end Filling

namespace Json

open Text (Read skip)

/-! ### Members -/

theorem readKey_sound {x : Filling ρ} {s t : List Char} {field : Field ρ}
    (h : readKey R x s = .ok (field, t)) :
    ∃ cs, Spells s cs t ∧ R.field? (String.ofList cs) = some field ∧ field.key ∉ x.given := by
  obtain ⟨r, hr, h⟩ := except_bind_eq_ok.mp h
  have hspells := readLiteral_sound (ofSyntax_eq_ok.mp hr)
  cases hkey : R.field? (String.ofList r.value) with
  | none =>
    simp only [hkey] at h
    cases h
  | some found =>
    by_cases hgiven : found.key ∈ x.given
    · simp only [hkey, if_pos hgiven] at h
      cases h
    · simp only [hkey, if_neg hgiven] at h
      cases h
      exact ⟨r.value, hspells, hkey, hgiven⟩

theorem toOption_readKey (x : Filling ρ) {s cs t : List Char} (h : Spells s cs t) :
    (readKey R x s).toOption =
      ((R.field? (String.ofList cs)).filter fun field => field.key ∉ x.given).map (·, t) := by
  obtain ⟨hlt, hread⟩ := readLiteral_complete h
  simp only [readKey, hread, ofSyntax, except_ok_bind]
  cases R.field? (String.ofList cs) with
  | none => rfl
  | some field =>
    by_cases hgiven : field.key ∈ x.given <;> simp [Option.filter, hgiven, pure, Except.pure]

theorem readColon_eq_ok {s t : List Char} : readColon s = .ok t ↔ skip isBlank s = ':' :: t := by
  unfold readColon
  split <;> simp_all [truncated, malformed]

theorem readMember_sound {x y : Filling ρ} {s t : List Char} (h : readMember R x s = .ok (y, t)) :
    ∃ m, Member IsValue ('"' :: s) m t ∧ R.add? x m = some y := by
  obtain ⟨⟨field, u⟩, hkey, h⟩ := except_bind_eq_ok.mp h
  obtain ⟨w, hcolon, h⟩ := except_bind_eq_ok.mp h
  obtain ⟨cs, hspells, hfield, hgiven⟩ := readKey_sound hkey
  obtain ⟨z, v, hgap, hv, hput⟩ := (reads_field field x).sound h
  refine ⟨(String.ofList cs, v), .mk hspells (gap_of_skip (readColon_eq_ok.mp hcolon)) hgap hv, ?_⟩
  simp [Record.add?, hfield, hgiven, hput]

theorem toOption_readMember {x : Filling ρ} {s t : List Char} {m : String × Value}
    (h : Member IsValue ('"' :: s) m t) :
    (readMember R x s).toOption = (R.add? x m).map (·, t) := by
  cases h with
  | @mk _ cs u v w _ a hname hcolon hgap ha =>
    have hkey := toOption_readKey (R := R) x hname
    have hread := readColon_eq_ok.mpr (skip_of_gap hcolon (by simp [IsBlank]))
    unfold readMember
    rw [toOption_bind, hkey, Record.add?]
    cases R.field? (String.ofList cs) with
    | none => rfl
    | some field =>
      have hvalue := (reads_field field x).complete hgap ha
      by_cases hgiven : field.key ∈ x.given
      · simp [Option.filter, hgiven]
      · simp [Option.filter, hgiven, hread, hvalue]

theorem readMoreMembers_sound {x y : Filling ρ} {s t : List Char} {n : Nat}
    (h : readMoreMembers R x s n = .ok (y, t)) :
    ∃ ms, More (Member IsValue) '}' s ms t ∧ ms.foldlM R.add? x = some y := by
  induction n generalizing x s with
  | zero => cases h
  | succ n ih =>
    unfold readMoreMembers at h
    split at h
    · next u hu =>
      cases h
      exact ⟨[], .done (gap_of_skip hu), rfl⟩
    · next u hu =>
      split at h
      · next w hw =>
        obtain ⟨⟨x₁, z⟩, hmember, h⟩ := except_bind_eq_ok.mp h
        obtain ⟨m, hm, hadd⟩ := readMember_sound hmember
        obtain ⟨ms, hms, hfold⟩ := ih h
        refine ⟨m :: ms, .next (gap_of_skip hu) (gap_of_skip hw) hm hms, ?_⟩
        rw [List.foldlM_cons, hadd]
        exact hfold
      · cases h
      · cases h
    · cases h
    · cases h

/-- A document has no more members than there are fields, or a member is refused. -/
theorem toOption_readMoreMembers {x : Filling ρ} {s t : List Char} {n : Nat}
    {ms : List (String × Value)} (h : More (Member IsValue) '}' s ms t) (hn : x.missing R < n) :
    (readMoreMembers R x s n).toOption = (ms.foldlM R.add? x).map (·, t) := by
  -- along the members that remain; each one that is taken leaves fewer fields missing
  induction h generalizing x n with
  | done h =>
    obtain ⟨n, rfl⟩ := Nat.exists_eq_succ_of_ne_zero (Nat.ne_of_gt (Nat.zero_lt_of_lt hn))
    simp only [readMoreMembers, skip_of_gap h (by simp [IsBlank])]
    rfl
  | @next s u v w t m ms hcomma hgap hm _ ih =>
    obtain ⟨n, rfl⟩ := Nat.exists_eq_succ_of_ne_zero (Nat.ne_of_gt (Nat.zero_lt_of_lt hn))
    have hs := skip_of_gap hcomma (by simp [IsBlank])
    cases hm with
    | @mk _ cs _ _ _ _ a hname hcolon hgap' ha =>
      have hread := toOption_readMember (R := R) (x := x) (.mk hname hcolon hgap' ha)
      simp only [readMoreMembers, hs, skip_of_gap hgap quote_not_blank]
      rw [toOption_bind, hread, List.foldlM_cons]
      cases hadd : R.add? x (String.ofList cs, a) with
      | none => rfl
      | some y =>
        have hlt := Filling.missing_of_add? hadd
        exact ih (Nat.lt_of_lt_of_le hlt (Nat.le_of_lt_succ hn))

theorem readObject_sound {x : Filling ρ} {s t : List Char} (h : readObject R s = .ok (x, t)) :
    ∃ ms, Listing (Member IsValue) '{' '}' ('{' :: s) ms t ∧
      ms.foldlM R.add? R.blank = some x := by
  unfold readObject at h
  split at h
  · next u hu =>
    cases h
    exact ⟨[], .empty (gap_of_skip hu), rfl⟩
  · next u hu =>
    obtain ⟨⟨x₁, z⟩, hmember, h⟩ := except_bind_eq_ok.mp h
    obtain ⟨m, hm, hadd⟩ := readMember_sound hmember
    obtain ⟨ms, hms, hfold⟩ := readMoreMembers_sound h
    refine ⟨m :: ms, .first (gap_of_skip hu) hm hms, ?_⟩
    rw [List.foldlM_cons, hadd]
    exact hfold
  · cases h
  · cases h

theorem toOption_readObject {s t : List Char} {ms : List (String × Value)}
    (h : Listing (Member IsValue) '{' '}' ('{' :: s) ms t) :
    (readObject R s).toOption = (ms.foldlM R.add? R.blank).map (·, t) := by
  cases h with
  | empty hclose =>
    unfold readObject
    rw [skip_of_gap hclose (by simp [IsBlank])]
    rfl
  | first hgap hm hms =>
    cases hm with
    | @mk _ cs _ _ _ _ a hname hcolon hgap' ha =>
      have hread := toOption_readMember (R := R) (x := R.blank) (.mk hname hcolon hgap' ha)
      unfold readObject
      simp only [skip_of_gap hgap quote_not_blank]
      rw [toOption_bind, hread, List.foldlM_cons]
      cases hadd : R.add? R.blank (String.ofList cs, a) with
      | none => rfl
      | some x =>
        have hlt : x.missing R < R.blank.missing R := Filling.missing_of_add? hadd
        have hle : R.blank.missing R ≤ R.fields.length := List.length_filter_le ..
        have hturns : x.missing R < R.fields.length + 1 := by omega
        exact toOption_readMoreMembers hms hturns

/-! ### Elements -/

theorem readClose_eq_ok {s t : List Char} : readClose s = .ok t ↔ skip isBlank s = ']' :: t := by
  unfold readClose
  split <;> simp_all [truncated, malformed]

theorem readMoreElements_sound {x y : Filling ρ} {s t : List Char} {fields : List (Field ρ)}
    (h : readMoreElements x s fields = .ok (y, t)) :
    ∃ vs, More IsValue ']' s vs t ∧ x.fill? fields vs = some y := by
  induction fields generalizing x s with
  | nil =>
    obtain ⟨u, hclose, h⟩ := except_bind_eq_ok.mp h
    cases h
    exact ⟨[], .done (gap_of_skip (readClose_eq_ok.mp hclose)), rfl⟩
  | cons field fields ih =>
    unfold readMoreElements at h
    split at h
    · next u hu =>
      cases h
      exact ⟨[], .done (gap_of_skip hu), rfl⟩
    · next u hu =>
      split at h
      · cases h
      · cases h
      · obtain ⟨⟨x₁, z⟩, hfield, h⟩ := except_bind_eq_ok.mp h
        obtain ⟨w, v, hgap, hv, hput⟩ := (reads_field field x).sound hfield
        obtain ⟨vs, hvs, hfill⟩ := ih h
        refine ⟨v :: vs, .next (gap_of_skip hu) ((gap_skip u).trans hgap) hv hvs, ?_⟩
        rw [Filling.fill?, hput]
        exact hfill
    · cases h
    · cases h

theorem toOption_readMoreElements {x : Filling ρ} {s t : List Char} {fields : List (Field ρ)}
    {vs : List Value} (h : More IsValue ']' s vs t) :
    (readMoreElements x s fields).toOption = (x.fill? fields vs).map (·, t) := by
  induction h generalizing x fields with
  | done h =>
    have hs := skip_of_gap h (by simp [IsBlank])
    cases fields with
    | nil =>
      rw [readMoreElements, readClose_eq_ok.mpr hs]
      rfl
    | cons field fields =>
      simp only [readMoreElements, hs]
      rfl
  | @next s u v w t a vs hcomma hgap ha _ ih =>
    have hs := skip_of_gap hcomma (by simp [IsBlank])
    cases fields with
    | nil =>
      simp only [readMoreElements, readClose, hs]
      rfl
    | cons field fields =>
      have hread := (reads_field field x).complete (Gap.refl v) ha
      have hu := skip_of_isValue hgap ha
      obtain ⟨c, z, rfl, hc⟩ := isValue_opens ha
      simp only [readMoreElements, hs, hu]
      rw [Filling.fill?]
      split
      · next heq => cases heq
      · next heq =>
        cases heq
        exact absurd rfl hc.not_close
      · rw [toOption_bind, hread]
        cases x.put? field a with
        | none => rfl
        | some y => exact ih

theorem readArray_sound {x : Filling ρ} {s t : List Char} (h : readArray R s = .ok (x, t)) :
    ∃ vs, Listing IsValue '[' ']' ('[' :: s) vs t ∧ R.blank.fill? R.fields vs = some x := by
  unfold readArray at h
  split at h
  · cases h
  · next u hu =>
    cases h
    exact ⟨[], .empty (gap_of_skip hu), by cases R.fields <;> rfl⟩
  · split at h
    · cases h
    · next field fields hfields =>
      obtain ⟨⟨x₁, z⟩, hfield, h⟩ := except_bind_eq_ok.mp h
      obtain ⟨w, v, hgap, hv, hput⟩ := (reads_field _ _).sound hfield
      obtain ⟨vs, hvs, hfill⟩ := readMoreElements_sound h
      refine ⟨v :: vs, .first ((gap_skip s).trans hgap) hv hvs, ?_⟩
      rw [hfields, Filling.fill?, hput]
      exact hfill

theorem toOption_readArray {s t : List Char} {vs : List Value}
    (h : Listing IsValue '[' ']' ('[' :: s) vs t) :
    (readArray R s).toOption = (R.blank.fill? R.fields vs).map (·, t) := by
  cases h with
  | empty hclose =>
    unfold readArray
    rw [skip_of_gap hclose (by simp [IsBlank])]
    cases R.fields <;> rfl
  | @first _ u v _ a vs hgap ha hvs =>
    have hu := skip_of_isValue hgap ha
    obtain ⟨c, z, rfl, hc⟩ := isValue_opens ha
    simp only [readArray, hu]
    split
    · next heq => cases heq
    · next heq =>
      cases heq
      exact absurd rfl hc.not_close
    · cases R.fields with
      | nil => rfl
      | cons field fields =>
        have hread := (reads_field field R.blank).complete (Gap.refl _) ha
        simp only [Filling.fill?]
        rw [toOption_bind, hread]
        cases R.blank.put? field a with
        | none => rfl
        | some x => exact toOption_readMoreElements hvs

/-! ### Documents -/

theorem reads_filling (R : Record ρ) : Reads (readTop R) R.filling? where
  sound {s t x} h := by
    have hgap := gap_skip s
    unfold readTop at h
    split at h
    · next u hu =>
      obtain ⟨ms, hms, hfold⟩ := readObject_sound h
      exact ⟨_, .object ms, hu ▸ hgap, .object hms, hfold⟩
    · next u hu =>
      obtain ⟨vs, hvs, hfill⟩ := readArray_sound h
      exact ⟨_, .array vs, hu ▸ hgap, .array hvs, hfill⟩
    · exact absurd h (refuse_ne_ok _ _ _)
  complete {s u t v} hgap h := by
    obtain ⟨c, w, rfl, hc⟩ := isValue_opens h
    have hskip := skip_of_isValue hgap h
    unfold readTop
    rw [hskip]
    split
    · next heq =>
      cases heq
      obtain ⟨ms, rfl⟩ := hc.brace
      exact toOption_readObject h.listing_of_object
    · next heq =>
      cases heq
      obtain ⟨vs, rfl⟩ := hc.bracket
      exact toOption_readArray h.listing_of_array
    · next hbrace hbracket =>
      rw [toOption_refuse]
      cases v with
      | object ms =>
        obtain rfl : c = '{' := hc
        exact absurd rfl (hbrace w)
      | array vs =>
        obtain rfl : c = '[' := hc
        exact absurd rfl (hbracket w)
      | _ => rfl

theorem skip_of_gap_nil {s : List Char} (h : Gap s []) : skip isBlank s = [] := by
  obtain ⟨blanks, rfl, hblanks⟩ := h
  rw [skip, List.dropWhile_append_of_pos]
  · rfl
  · intro c hc
    exact isBlank_iff.mpr (hblanks c hc)

/-- Whatever is read is a JSON text. -/
theorem readDocument_sound {s : List Char} {r : ρ} (h : readDocument R s = .ok r) :
    ∃ v, IsText s v := by
  obtain ⟨⟨x, t⟩, htop, h⟩ := except_bind_eq_ok.mp h
  obtain ⟨u, v, hgap, hv, -⟩ := (reads_filling R).sound htop
  dsimp only at h
  split at h
  · next ht => exact ⟨v, u, t, hgap, hv, gap_of_skip ht⟩
  · cases h

/-- A JSON text is read as what its value says. -/
theorem toOption_readDocument {s : List Char} {v : Value} (h : IsText s v) :
    (readDocument R s).toOption = R.ofValue? v := by
  obtain ⟨u, t, hgap, hv, hend⟩ := h
  rw [readDocument, toOption_bind, (reads_filling R).complete hgap hv, Record.ofValue?]
  cases R.filling? v with
  | none => rfl
  | some x =>
    simp only [Option.map_some, Option.bind_some, skip_of_gap_nil hend]
    rfl

theorem toOption_read (R : Record ρ) (text : String) :
    (library.read R text).toOption = (readDocument R text.toList).toOption := by
  simp only [library]
  cases readDocument R text.toList <;> rfl

theorem library_documented : library.Documented where
  reads R _ _ h := (toOption_read R _).trans (toOption_readDocument h)
  refuses R text h := by
    rw [toOption_read]
    cases hread : readDocument R text.toList with
    | error fault => rfl
    | ok r =>
      obtain ⟨v, hv⟩ := readDocument_sound hread
      exact absurd hv (h v)
  writes R r := String.toList_ofList

end Json

end ReadBarrier
