import ReadBarrier.Proofs.Json.Grammar

/-!
Blanks between tokens do not matter: a JSON text says the same without them.
-/

namespace ReadBarrier.Json

instance : DecidablePred IsBlank := fun _ => inferInstanceAs (Decidable (_ ∨ _))

/-- The text without the blanks outside of strings. It may start inside a string. -/
def squeeze : Bool → List Char → List Char
  | _, [] => []
  | true, '"' :: s => '"' :: squeeze false s
  | true, '\\' :: c :: s => '\\' :: c :: squeeze true s
  | true, c :: s => c :: squeeze true s
  | false, '"' :: s => '"' :: squeeze true s
  | false, c :: s => if IsBlank c then squeeze false s else c :: squeeze false s

/-! ### Tokens -/

theorem squeeze_outside {c : Char} (hquote : c ≠ '"') (s : List Char) :
    squeeze false (c :: s) = if IsBlank c then squeeze false s else c :: squeeze false s := by
  rw [squeeze]
  exact hquote

theorem squeeze_inside {c : Char} (hquote : c ≠ '"') (hbackslash : c ≠ '\\') (s : List Char) :
    squeeze true (c :: s) = c :: squeeze true s := by
  rw [squeeze]
  · exact hquote
  · exact fun _ _ hc => absurd hc hbackslash

theorem Gap.squeeze_eq {s t : List Char} (h : Gap s t) : squeeze false s = squeeze false t := by
  obtain ⟨blanks, rfl, hblanks⟩ := h
  induction blanks with
  | nil => rfl
  | cons b blanks ih =>
    have hb := hblanks b List.mem_cons_self
    have hquote : b ≠ '"' := by
      rintro rfl
      simp [IsBlank] at hb
    rw [List.cons_append, squeeze_outside hquote, if_pos hb]
    exact ih fun c hc => hblanks c (List.mem_cons_of_mem _ hc)

theorem Gap.squeeze {s t : List Char} (h : Gap s t) : Gap (squeeze false s) (squeeze false t) :=
  h.squeeze_eq ▸ Gap.refl _

theorem squeeze_append_inside {s : List Char} (h : ∀ c ∈ s, c ≠ '"' ∧ c ≠ '\\') (t : List Char) :
    squeeze true (s ++ t) = s ++ squeeze true t := by
  induction s with
  | nil => rfl
  | cons c s ih =>
    obtain ⟨hquote, hbackslash⟩ := h c List.mem_cons_self
    rw [List.cons_append, squeeze_inside hquote hbackslash,
      ih fun d hd => h d (List.mem_cons_of_mem _ hd), List.cons_append]

theorem squeeze_append_outside {s : List Char} (h : ∀ c ∈ s, c ≠ '"' ∧ ¬ IsBlank c)
    (t : List Char) : squeeze false (s ++ t) = s ++ squeeze false t := by
  induction s with
  | nil => rfl
  | cons c s ih =>
    obtain ⟨hquote, hblank⟩ := h c List.mem_cons_self
    rw [List.cons_append, squeeze_outside hquote, if_neg hblank,
      ih fun d hd => h d (List.mem_cons_of_mem _ hd), List.cons_append]

theorem hexDigit?_isSome {digits : List Char} {m n : Nat}
    (h : digits.foldlM (fun n c => (Text.hexDigit? c).map (16 * n + ·)) m = some n) :
    ∀ c ∈ digits, (Text.hexDigit? c).isSome := by
  induction digits generalizing m with
  | nil => simp
  | cons d digits ih =>
    rw [List.foldlM_cons] at h
    obtain ⟨k, hk, h⟩ := Option.bind_eq_some_iff.mp h
    intro c hc
    rcases List.mem_cons.mp hc with rfl | hc
    · obtain ⟨x, hx, -⟩ := Option.map_eq_some_iff.mp hk
      rw [hx]
      rfl
    · exact ih h c hc

theorem squeeze_quad {quad : List Char} {n : Nat} (h : IsQuad quad n) (t : List Char) :
    squeeze true (quad ++ t) = quad ++ squeeze true t := by
  apply squeeze_append_inside
  intro c hc
  have hsome := hexDigit?_isSome h.2 c hc
  constructor
  · rintro rfl
    exact absurd hsome (by decide)
  · rintro rfl
    exact absurd hsome (by decide)

theorem squeeze_unit {quad : List Char} {n : Nat} (h : IsQuad quad n) (t : List Char) :
    squeeze true ('\\' :: 'u' :: (quad ++ t)) = '\\' :: 'u' :: (quad ++ squeeze true t) := by
  rw [← squeeze_quad h]
  rfl

theorem Spells.squeeze {s cs t : List Char} (h : Spells s cs t) :
    Spells (squeeze true s) cs (squeeze false t) := by
  induction h with
  | close => exact .close
  | plain hquote hbackslash hcontrol _ ih =>
    rw [squeeze_inside hquote hbackslash]
    exact .plain hquote hbackslash hcontrol ih
  | escape he _ ih => exact .escape he ih
  | unit hn hhigh hlow _ ih =>
    rw [squeeze_unit hn]
    exact .unit hn hhigh hlow ih
  | pair hquad hquad' hhigh hlow _ ih =>
    rw [squeeze_unit hquad, squeeze_unit hquad']
    exact .pair hquad hquad' hhigh hlow ih

/-- Whatever may stand in a numeral. -/
def IsNumeralChar (c : Char) : Prop := c.isDigit ∨ c ∈ ['-', '+', '.', 'e', 'E']

theorem IsNumeralChar.solid {c : Char} (h : IsNumeralChar c) : c ≠ '"' ∧ ¬ IsBlank c := by
  constructor
  · rintro rfl
    simp [IsNumeralChar] at h
  · rintro (rfl | rfl | rfl | rfl) <;> simp [IsNumeralChar] at h

theorem IsDigits.chars {s : List Char} (h : IsDigits s) : ∀ c ∈ s, IsNumeralChar c :=
  fun c hc => .inl (h.2 c hc)

theorem SpellsFraction.chars {s : List Char} {fraction : Option (List Char)}
    (h : SpellsFraction s fraction) : ∀ c ∈ s, IsNumeralChar c := by
  cases h with
  | absent => simp
  | given h => exact List.forall_mem_cons.mpr ⟨.inr (by simp), h.chars⟩

theorem SpellsExponent.chars {s : List Char} {exponent : Option (Bool × List Char)}
    (h : SpellsExponent s exponent) : ∀ c ∈ s, IsNumeralChar c := by
  cases h with
  | absent => simp
  | @given e sign digits negative he hsign h =>
    have hhead : IsNumeralChar e := by
      rcases he with rfl | rfl
      · exact .inr (by simp)
      · exact .inr (by simp)
    have hmiddle : ∀ c ∈ sign, IsNumeralChar c := by
      simp only [List.mem_cons, Prod.mk.injEq, List.not_mem_nil, or_false] at hsign
      rcases hsign with ⟨rfl, -⟩ | ⟨rfl, -⟩ | ⟨rfl, -⟩ <;> simp [IsNumeralChar]
    refine List.forall_mem_cons.mpr ⟨hhead, fun c hc => ?_⟩
    exact (List.mem_append.mp hc).elim (hmiddle c) (h.chars c)

theorem SpellsNumeral.chars {s : List Char} {n : Numeral} (h : SpellsNumeral s n) :
    ∀ c ∈ s, IsNumeralChar c := by
  cases h with
  | @mk negative whole f e fraction exponent hwhole hzero hf he =>
    have hsign : ∀ c ∈ if negative then ['-'] else [], IsNumeralChar c := by
      cases negative <;> simp [IsNumeralChar]
    intro c hc
    rcases List.mem_append.mp hc with hc | hc
    · rcases List.mem_append.mp hc with hc | hc
      · exact (List.mem_append.mp hc).elim (hsign c) (hwhole.chars c)
      · exact hf.chars c hc
    · exact he.chars c hc

/-! ### Values -/

mutual

theorem IsValue.squeeze {s t : List Char} {v : Value} (h : IsValue s v t) :
    IsValue (squeeze false s) v (squeeze false t) := by
  cases h with
  | null => exact .null
  | yes => exact .yes
  | no => exact .no
  | @number s t n h =>
    rw [squeeze_append_outside fun c hc => (h.chars c hc).solid]
    exact .number h
  | string h => exact .string h.squeeze
  | array h => exact .array h.squeeze_items
  | object h => exact .object h.squeeze_members

theorem Listing.squeeze_items {s t : List Char} {items : List Value}
    (h : Listing IsValue '[' ']' s items t) :
    Listing IsValue '[' ']' (squeeze false s) items (squeeze false t) := by
  cases h with
  | empty h => exact .empty h.squeeze
  | first hgap ha has => exact .first hgap.squeeze ha.squeeze has.squeeze_items

theorem More.squeeze_items {s t : List Char} {items : List Value} (h : More IsValue ']' s items t) :
    More IsValue ']' (squeeze false s) items (squeeze false t) := by
  cases h with
  | done h => exact .done h.squeeze
  | next hcomma hgap ha has =>
    exact .next hcomma.squeeze hgap.squeeze ha.squeeze
      has.squeeze_items

theorem Listing.squeeze_members {s t : List Char} {ms : List (String × Value)}
    (h : Listing (Member IsValue) '{' '}' s ms t) :
    Listing (Member IsValue) '{' '}' (squeeze false s) ms (squeeze false t) := by
  cases h with
  | empty h => exact .empty h.squeeze
  | first hgap hm hms => exact .first hgap.squeeze hm.squeeze hms.squeeze_members

theorem Member.squeeze {s t : List Char} {m : String × Value} (h : Member IsValue s m t) :
    Member IsValue (squeeze false s) m (squeeze false t) := by
  cases h with
  | mk hname hcolon hgap ha =>
    exact .mk hname.squeeze hcolon.squeeze hgap.squeeze ha.squeeze

theorem More.squeeze_members {s t : List Char} {ms : List (String × Value)}
    (h : More (Member IsValue) '}' s ms t) :
    More (Member IsValue) '}' (squeeze false s) ms (squeeze false t) := by
  cases h with
  | done h => exact .done h.squeeze
  | next hcomma hgap hm hms =>
    exact .next hcomma.squeeze hgap.squeeze hm.squeeze
      hms.squeeze_members

end

/-- A text says the same without the blanks between its tokens. -/
theorem IsText.squeeze {s : List Char} {v : Value} (h : IsText s v) :
    IsText (squeeze false s) v := by
  obtain ⟨t, u, hgap, hv, hend⟩ := h
  exact ⟨_, _, hgap.squeeze, hv.squeeze, hend.squeeze⟩

end ReadBarrier.Json
