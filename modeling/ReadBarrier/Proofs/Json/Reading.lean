import ReadBarrier.Proofs.Json.Contract
import ReadBarrier.Proofs.Json.Literal

/-!
What the fields of a record are read from: the readers follow the grammar of JSON.
-/

namespace ReadBarrier.Json

open Text (Read skip)

/-! ### Blanks -/

theorem isBlank_iff {c : Char} : isBlank c = true ↔ IsBlank c := by
  simp only [isBlank, IsBlank, Bool.or_eq_true, decide_eq_true_eq]
  grind

theorem gap_skip (s : List Char) : Gap s (skip isBlank s) := by
  refine ⟨s.takeWhile isBlank, (List.takeWhile_append_dropWhile).symm, fun c hc => ?_⟩
  exact isBlank_iff.mp (List.all_eq_true.mp List.all_takeWhile c hc)

theorem skip_of_gap {s t : List Char} {c : Char} (h : Gap s (c :: t)) (hc : ¬ IsBlank c) :
    skip isBlank s = c :: t := by
  obtain ⟨blanks, rfl, hblanks⟩ := h
  have hc : isBlank c = false := by
    rw [← Bool.not_eq_true, isBlank_iff]
    exact hc
  rw [skip, List.dropWhile_append_of_pos]
  · simp [hc]
  · intro b hb
    exact isBlank_iff.mpr (hblanks b hb)

/-! ### How a value opens -/

/-- The first character of a text of the value. -/
def Opens : Value → Char → Prop
  | .null, c => c = 'n'
  | .boolean true, c => c = 't'
  | .boolean false, c => c = 'f'
  | .number _, c => c = '-' ∨ c.isDigit
  | .string _, c => c = '"'
  | .array _, c => c = '['
  | .object _, c => c = '{'

theorem isValue_opens {s t : List Char} {v : Value} (h : IsValue s v t) :
    ∃ c u, s = c :: u ∧ Opens v c := by
  cases h with
  | null => exact ⟨'n', _, rfl, rfl⟩
  | yes => exact ⟨'t', _, rfl, rfl⟩
  | no => exact ⟨'f', _, rfl, rfl⟩
  | number h =>
    cases h with
    | @mk negative whole f e fraction exponent hwhole hzero hf he =>
      cases negative with
      | true => exact ⟨'-', _, rfl, .inl rfl⟩
      | false =>
        obtain ⟨hne, hdigits⟩ := hwhole
        cases whole with
        | nil => exact absurd rfl hne
        | cons c whole => exact ⟨c, _, rfl, .inr (hdigits c List.mem_cons_self)⟩
  | string h => exact ⟨'"', _, rfl, rfl⟩
  | array h => cases h <;> exact ⟨'[', _, rfl, rfl⟩
  | object h => cases h <;> exact ⟨'{', _, rfl, rfl⟩

theorem Opens.not_blank {v : Value} {c : Char} (h : Opens v c) : ¬ IsBlank c := by
  rcases v with _ | (_ | _) | _ | _ | _ | _ <;> rintro (rfl | rfl | rfl | rfl) <;> simp [Opens] at h

theorem Opens.quote {v : Value} (h : Opens v '"') : ∃ s, v = .string s := by
  rcases v with _ | (_ | _) | _ | s | _ | _ <;> simp [Opens] at h
  exact ⟨s, rfl⟩

theorem Opens.bracket {v : Value} (h : Opens v '[') : ∃ items, v = .array items := by
  rcases v with _ | (_ | _) | _ | _ | items | _ <;> simp [Opens] at h
  exact ⟨items, rfl⟩

theorem Opens.brace {v : Value} (h : Opens v '{') : ∃ members, v = .object members := by
  rcases v with _ | (_ | _) | _ | _ | _ | members <;> simp [Opens] at h
  exact ⟨members, rfl⟩

theorem Opens.not_close {v : Value} {c : Char} (h : Opens v c) : c ≠ ']' := by
  rcases v with _ | (_ | _) | _ | _ | _ | _ <;> rintro rfl <;> simp [Opens] at h

/-- The text from which a value is read on starts with the value. -/
theorem skip_of_isValue {s u t : List Char} {v : Value} (hgap : Gap s u) (h : IsValue u v t) :
    skip isBlank s = u := by
  obtain ⟨c, w, rfl, hc⟩ := isValue_opens h
  exact skip_of_gap hgap hc.not_blank

/-! ### Values of the wrong type -/

theorem refuse_ne_ok {α : Type} (expected : Expected) (s : List Char) (a : α) :
    refuse expected s ≠ .ok a := by
  intro h
  unfold refuse at h
  split at h
  case h_1 => cases h
  case h_6 => cases h
  case h_7 => cases h
  case h_9 =>
    split at h
    · obtain ⟨n, -, h⟩ := except_bind_eq_ok.mp h
      cases h
    · cases h
  all_goals
    obtain ⟨n, -, h⟩ := except_bind_eq_ok.mp h
    cases h

theorem toOption_refuse {α : Type} (expected : Expected) (s : List Char) :
    (refuse expected s : Except Fault α).toOption = none := by
  cases h : (refuse expected s : Except Fault α) with
  | error => rfl
  | ok a => exact absurd h (refuse_ne_ok expected s a)

theorem readWord_eq_ok {word s t : List Char} : readWord word s = .ok t ↔ s = word ++ t := by
  induction word generalizing s with
  | nil => simp [readWord]
  | cons w word ih =>
    cases s with
    | nil => simp [readWord, truncated]
    | cons c s =>
      by_cases hc : c = w
      · simp [readWord, hc, ih]
      · simp [readWord, malformed, hc]

@[simp] theorem toOption_ok {ε α : Type} (a : α) : (Except.ok a : Except ε α).toOption = some a :=
  rfl

@[simp] theorem toOption_error {ε α : Type} (e : ε) :
    (Except.error e : Except ε α).toOption = none := rfl

theorem toOption_bind {ε α β : Type} (x : Except ε α) (f : α → Except ε β) :
    (x >>= f).toOption = x.toOption.bind fun a => (f a).toOption := by
  cases x <;> rfl

/-- A reader of values: it reads those of which `f` makes something, and that is what it makes of
them. -/
structure Reads {α : Type} (read : List Char → Except Fault (α × List Char))
    (f : Value → Option α) : Prop where
  sound {s t : List Char} {a : α} : read s = .ok (a, t) →
    ∃ u v, Gap s u ∧ IsValue u v t ∧ f v = some a
  complete {s u t : List Char} {v : Value} : Gap s u → IsValue u v t →
    (read s).toOption = (f v).map (·, t)

theorem reads_boolean : Reads readBoolean Value.boolean? where
  sound {s t b} h := by
    have hgap := gap_skip s
    unfold readBoolean at h
    split at h
    · next u hu =>
      obtain ⟨w, hw, h⟩ := except_bind_eq_ok.mp h
      cases h
      rw [hu, readWord_eq_ok.mp hw] at hgap
      exact ⟨_, .boolean true, hgap, .yes, rfl⟩
    · next u hu =>
      obtain ⟨w, hw, h⟩ := except_bind_eq_ok.mp h
      cases h
      rw [hu, readWord_eq_ok.mp hw] at hgap
      exact ⟨_, .boolean false, hgap, .no, rfl⟩
    · exact absurd h (refuse_ne_ok _ _ _)
  complete {s u t v} hgap h := by
    have hskip := skip_of_isValue hgap h
    obtain ⟨c, w, hu, hc⟩ := isValue_opens h
    unfold readBoolean
    rw [hskip]
    cases h with
    | yes =>
      have hword : readWord "rue".toList ("rue".toList ++ t) = .ok t := readWord_eq_ok.mpr rfl
      change (readWord "rue".toList ("rue".toList ++ t) >>= _).toOption = _
      rw [hword]
      rfl
    | no =>
      have hword : readWord "alse".toList ("alse".toList ++ t) = .ok t := readWord_eq_ok.mpr rfl
      change (readWord "alse".toList ("alse".toList ++ t) >>= _).toOption = _
      rw [hword]
      rfl
    | number h =>
      rw [hu]
      split
      · next heq =>
        cases heq
        simp [Opens] at hc
      · next heq =>
        cases heq
        simp [Opens] at hc
      · exact toOption_refuse _ _
    | null => exact toOption_refuse _ _
    | string h => exact toOption_refuse _ _
    | array h => cases h <;> exact toOption_refuse _ _
    | object h => cases h <;> exact toOption_refuse _ _

theorem ofSyntax_eq_ok {α : Type} {x : Except SyntaxFault α} {a : α} :
    ofSyntax x = .ok a ↔ x = .ok a := by
  cases x <;> simp [ofSyntax]

theorem quote_not_blank : ¬ IsBlank '"' := by simp [IsBlank]

theorem readStringOf_sound {s : List Char} {r : Read s String} (h : readStringOf s = .ok r) :
    ∃ u cs, Gap s ('"' :: u) ∧ Spells u cs r.rest ∧ r.value = String.ofList cs := by
  have hgap := gap_skip s
  unfold readStringOf at h
  split at h
  · next u hu =>
    obtain ⟨q, hq, h⟩ := except_bind_eq_ok.mp h
    cases h
    rw [hu] at hgap
    exact ⟨u, q.value, hgap, readLiteral_sound (ofSyntax_eq_ok.mp hq), rfl⟩
  · exact absurd h (refuse_ne_ok _ _ _)

theorem readStringOf_complete {s u cs t : List Char} (hgap : Gap s ('"' :: u))
    (h : Spells u cs t) : ∃ hlt, readStringOf s = .ok ⟨String.ofList cs, t, hlt⟩ := by
  have hskip := skip_of_gap hgap quote_not_blank
  obtain ⟨hlt, hread⟩ := readLiteral_complete h
  have hle := Text.length_skip_le isBlank s
  rw [hskip, List.length_cons] at hle
  refine ⟨by omega, ?_⟩
  unfold readStringOf
  split
  · next v hv =>
    cases hskip.symm.trans hv
    rw [hread]
    rfl
  · next hne => exact absurd hskip (hne u)

theorem toOption_readStringOf {s w : List Char} {c : Char} (hskip : skip isBlank s = c :: w)
    (hc : c ≠ '"') : (readStringOf s).toOption = none := by
  unfold readStringOf
  split
  · next v hv =>
    cases hskip.symm.trans hv
    exact absurd rfl hc
  · exact toOption_refuse _ _

theorem reads_string : Reads readString Value.string? where
  sound {s t a} h := by
    obtain ⟨r, hr, h⟩ := except_bind_eq_ok.mp h
    cases h
    obtain ⟨u, cs, hgap, hspells, hvalue⟩ := readStringOf_sound hr
    exact ⟨_, .string r.value, hgap, hvalue ▸ .string hspells, rfl⟩
  complete {s u t v} hgap h := by
    obtain ⟨c, w, hu, hc⟩ := isValue_opens h
    have hskip := skip_of_isValue hgap h
    unfold readString
    rw [toOption_bind]
    by_cases hquote : c = '"'
    · subst hquote
      obtain ⟨a, rfl⟩ := hc.quote
      cases h with
      | string h =>
        obtain ⟨hlt, hread⟩ := readStringOf_complete hgap h
        rw [hread]
        rfl
    · have hv : v.string? = none := by
        cases v with
        | string => exact absurd hc hquote
        | _ => rfl
      rw [toOption_readStringOf (hskip.trans hu) hquote, hv]
      rfl

/-! ### Arrays of strings -/

theorem gap_of_skip {s t : List Char} (h : skip isBlank s = t) : Gap s t := h ▸ gap_skip s

theorem readMoreStrings_sound {s t : List Char} {l : List String}
    (h : readMoreStrings s = .ok (l, t)) : More IsValue ']' s (l.map .string) t := by
  fun_induction readMoreStrings s generalizing l with
  | case1 s u hs =>
    cases h
    exact .done (gap_of_skip hs)
  | case2 => cases h
  | case3 => cases h
  | case4 s u hs c w hne hu ih =>
    obtain ⟨r, hr, h⟩ := except_bind_eq_ok.mp h
    obtain ⟨⟨more, rest⟩, hmore, h⟩ := except_bind_eq_ok.mp h
    cases h
    obtain ⟨v, cs, hgap, hspells, hvalue⟩ := readStringOf_sound hr
    refine .next (gap_of_skip hs) ((gap_of_skip hu).trans hgap) ?_ (ih r hmore)
    rw [hvalue]
    exact .string hspells
  | case5 => cases h
  | case6 => cases h

theorem readMoreStrings_done {s t : List Char} (hs : skip isBlank s = ']' :: t) :
    readMoreStrings s = .ok ([], t) := by
  rw [readMoreStrings]
  split <;> simp_all

theorem readMoreStrings_next {s t u : List Char} {c : Char} (hs : skip isBlank s = ',' :: t)
    (ht : skip isBlank t = c :: u) (hc : c ≠ ']') :
    readMoreStrings s = (do
      let r ← readStringOf (c :: u)
      let (more, rest) ← readMoreStrings r.rest
      return (r.value :: more, rest)) := by
  rw [readMoreStrings]
  split
  · simp_all
  · next v hv =>
    cases hs.symm.trans hv
    split
    · simp_all
    · next hw =>
      cases ht.symm.trans hw
      exact absurd rfl hc
    · next hw =>
      cases ht.symm.trans hw
      rfl
  · simp_all
  · simp_all

theorem toOption_readMoreStrings {s t : List Char} {items : List Value}
    (h : More IsValue ']' s items t) :
    (readMoreStrings s).toOption = (items.mapM Value.string?).map (·, t) := by
  induction h with
  | done h =>
    rw [readMoreStrings_done (skip_of_gap h (by simp [IsBlank]))]
    rfl
  | @next s u v w t a items hcomma hgap ha _ ih =>
    have hs := skip_of_gap hcomma (by simp [IsBlank])
    have hread := reads_string.complete (Gap.refl v) ha
    obtain ⟨c, x, rfl, hc⟩ := isValue_opens ha
    rw [readMoreStrings_next hs (skip_of_isValue hgap ha) hc.not_close, toOption_bind]
    rw [readString, toOption_bind] at hread
    cases hr : readStringOf (c :: x) with
    | error fault =>
      have hvalue : a.string? = none := by simpa [hr] using hread.symm
      simp [hvalue]
    | ok r =>
      rw [hr] at hread
      obtain ⟨value, hvalue, hpair⟩ := Option.map_eq_some_iff.mp hread.symm
      cases hpair
      change (readMoreStrings r.rest >>= _).toOption = _
      rw [toOption_bind, ih, List.mapM_cons, hvalue]
      cases items.mapM Value.string? <;> rfl

theorem readStrings_sound {s t : List Char} {l : List String} (h : readStrings s = .ok (l, t)) :
    ∃ u, Gap s u ∧ Listing IsValue '[' ']' u (l.map .string) t := by
  have hgap := gap_skip s
  unfold readStrings at h
  split at h
  · next u hu =>
    rw [hu] at hgap
    split at h
    · cases h
    · next w hw =>
      cases h
      exact ⟨_, hgap, .empty (gap_of_skip hw)⟩
    · obtain ⟨⟨first, rest⟩, hfirst, h⟩ := except_bind_eq_ok.mp h
      obtain ⟨⟨more, rest'⟩, hmore, h⟩ := except_bind_eq_ok.mp h
      cases h
      obtain ⟨x, v, hx, hv, hvalue⟩ := reads_string.sound hfirst
      obtain rfl := Value.string?_eq_some.mp hvalue
      exact ⟨_, hgap, .first ((gap_skip u).trans hx) hv (readMoreStrings_sound hmore)⟩
  · exact absurd h (refuse_ne_ok _ _ _)

theorem toOption_readStrings {s u t : List Char} {items : List Value} (hgap : Gap s u)
    (h : Listing IsValue '[' ']' u items t) :
    (readStrings s).toOption = (items.mapM Value.string?).map (·, t) := by
  have hbracket : ¬ IsBlank '[' := by simp [IsBlank]
  cases h with
  | @empty u t hclose =>
    have hclose : skip isBlank u = ']' :: t := skip_of_gap hclose (by simp [IsBlank])
    simp only [readStrings, skip_of_gap hgap hbracket, hclose]
    rfl
  | @first u x y t a items hopen ha hitems =>
    have hs := skip_of_isValue hopen ha
    have hread := reads_string.complete (Gap.refl x) ha
    have hmore := toOption_readMoreStrings hitems
    obtain ⟨d, z, rfl, hd⟩ := isValue_opens ha
    simp only [readStrings, skip_of_gap hgap hbracket, hs]
    rw [List.mapM_cons]
    split
    · next heq => cases heq
    · next heq =>
      cases heq
      exact absurd rfl hd.not_close
    · rw [toOption_bind, hread]
      cases a.string? with
      | none => rfl
      | some value =>
        change (readMoreStrings y >>= _).toOption = _
        rw [toOption_bind, hmore]
        cases items.mapM Value.string? <;> rfl

theorem toOption_readStrings_of_ne {s w : List Char} {c : Char} (hskip : skip isBlank s = c :: w)
    (hc : c ≠ '[') : (readStrings s).toOption = none := by
  unfold readStrings
  rw [hskip]
  split
  · next heq =>
    cases heq
    exact absurd rfl hc
  · exact toOption_refuse _ _

theorem reads_strings : Reads readStrings Value.strings? where
  sound {s t l} h := by
    obtain ⟨u, hgap, hlisting⟩ := readStrings_sound h
    exact ⟨u, _, hgap, .array hlisting, Value.mapM_string l⟩
  complete {s u t v} hgap h := by
    obtain ⟨c, w, hu, hc⟩ := isValue_opens h
    by_cases hbracket : c = '['
    · subst hbracket
      obtain ⟨items, rfl⟩ := hc.bracket
      exact toOption_readStrings hgap h.listing_of_array
    · have hv : v.strings? = none := by
        cases v with
        | array => exact absurd hc hbracket
        | _ => rfl
      rw [toOption_readStrings_of_ne ((skip_of_isValue hgap h).trans hu) hbracket, hv]
      rfl

/-! ### Fields -/

theorem Reads.map {α β : Type} {read : List Char → Except Fault (α × List Char)}
    {f : Value → Option α} (h : Reads read f) (g : α → β) :
    Reads (fun s => do
      let (a, t) ← read s
      return (g a, t)) (fun v => (f v).map g) where
  sound {s t b} hread := by
    obtain ⟨⟨a, rest⟩, ha, hread⟩ := except_bind_eq_ok.mp hread
    cases hread
    obtain ⟨u, v, hgap, hv, hvalue⟩ := h.sound ha
    exact ⟨u, v, hgap, hv, by rw [hvalue, Option.map_some]⟩
  complete {s u t v} hgap hv := by
    rw [toOption_bind, h.complete hgap hv]
    cases f v <;> rfl

theorem reads_field {ρ : Type} (field : Field ρ) (x : Filling ρ) :
    Reads (readField field x) (x.put? field) := by
  obtain ⟨key, access⟩ := field
  cases access with
  | boolean get set => exact reads_boolean.map fun b => x.take key (set b x.record)
  | string get set => exact reads_string.map fun a => x.take key (set a x.record)
  | strings get set => exact reads_strings.map fun l => x.take key (set l x.record)

end ReadBarrier.Json
