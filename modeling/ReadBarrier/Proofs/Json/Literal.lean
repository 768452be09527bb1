import ReadBarrier.Proofs.Json.Grammar

/-!
String literals are read as the grammar has them.
-/

namespace ReadBarrier.Json

open Text (Read)

theorem except_bind_eq_ok {ε α β : Type} {x : Except ε α} {f : α → Except ε β} {b : β} :
    (x >>= f) = .ok b ↔ ∃ a, x = .ok a ∧ f a = .ok b := by
  cases x with
  | error e =>
    constructor
    · intro h
      cases h
    · rintro ⟨a, ha, -⟩
      cases ha
  | ok a =>
    constructor
    · intro h
      exact ⟨a, rfl, h⟩
    · rintro ⟨a', ha, h⟩
      cases ha
      exact h

@[simp] theorem except_ok_bind {ε α β : Type} (a : α) (f : α → Except ε β) :
    (Except.ok a >>= f) = f a := rfl

theorem except_map_eq_ok {ε α β : Type} {x : Except ε α} {f : α → β} {b : β} :
    x.map f = .ok b ↔ ∃ a, x = .ok a ∧ f a = b := by
  cases x <;> simp [Except.map]

theorem readQuad_sound {s : List Char} {r : Read s Nat} (h : readQuad s = .ok r) :
    ∃ quad, s = quad ++ r.rest ∧ IsQuad quad r.value := by
  unfold readQuad at h
  split at h
  · next a b c d rest =>
    split at h
    · next n hn =>
      cases h
      exact ⟨[a, b, c, d], rfl, rfl, hn⟩
    · cases h
  · cases h

theorem readQuad_complete {quad t : List Char} {n : Nat} (h : IsQuad quad n) :
    ∃ hlt, readQuad (quad ++ t) = .ok ⟨n, t, hlt⟩ := by
  obtain ⟨hlength, hnumber⟩ := h
  match quad, hlength with
  | [a, b, c, d], _ =>
    refine ⟨by simp only [List.length_append, List.length_cons]; omega, ?_⟩
    simp [readQuad, hnumber]

theorem readNumbered_sound {s : List Char} {r : Read s Char} (h : readNumbered s = .ok r)
    {cs t : List Char} (hrest : Spells r.rest cs t) :
    Spells ('\\' :: 'u' :: s) (r.value :: cs) t := by
  obtain ⟨high, hhigh, h⟩ := except_bind_eq_ok.mp h
  obtain ⟨quad, hs, hquad⟩ := readQuad_sound hhigh
  split at h
  · cases h
  · next hlow =>
    split at h
    · next hsurrogate =>
      split at h
      · next u hu =>
        obtain ⟨low, hlow', h⟩ := except_bind_eq_ok.mp h
        obtain ⟨quad', hu', hquad'⟩ := readQuad_sound hlow'
        split at h
        · next hrange =>
          obtain ⟨value, rest, hlt⟩ := r
          simp only [Except.ok.injEq, Read.mk.injEq] at h
          have hlater : Spells low.rest cs t := h.2 ▸ hrest
          have hpair := Spells.pair hquad hquad' hsurrogate hrange hlater
          rwa [← hu', ← hu, ← hs, h.1] at hpair
        · cases h
      · cases h
      · cases h
      · cases h
    · next hsurrogate =>
      obtain rfl := Except.ok.inj h
      have hunit := Spells.unit hquad hsurrogate hlow hrest
      rwa [Read.map, ← hs] at hunit

theorem readNumbered_unit {quad t : List Char} {n : Nat} (hn : IsQuad quad n)
    (hhigh : ¬ IsHighSurrogate n) (hlow : ¬ IsLowSurrogate n) :
    ∃ hlt, readNumbered (quad ++ t) = .ok ⟨Char.ofNat n, t, hlt⟩ := by
  obtain ⟨hlt, hquad⟩ := readQuad_complete (t := t) hn
  refine ⟨hlt, ?_⟩
  unfold IsHighSurrogate at hhigh
  unfold IsLowSurrogate at hlow
  simp only [readNumbered, hquad, except_ok_bind, if_neg hlow, if_neg hhigh]
  rfl

theorem readNumbered_pair {quad quad' t : List Char} {high low : Nat} (hquad : IsQuad quad high)
    (hquad' : IsQuad quad' low) (hhigh : IsHighSurrogate high) (hlow : IsLowSurrogate low) :
    ∃ hlt, readNumbered (quad ++ '\\' :: 'u' :: (quad' ++ t)) =
      .ok ⟨Char.ofNat (0x10000 + (high - 0xD800) * 0x400 + (low - 0xDC00)), t, hlt⟩ := by
  obtain ⟨hlt, hread⟩ := readQuad_complete (t := '\\' :: 'u' :: (quad' ++ t)) hquad
  obtain ⟨hlt', hread'⟩ := readQuad_complete (t := t) hquad'
  unfold IsHighSurrogate at hhigh
  unfold IsLowSurrogate at hlow
  have hnotLow : ¬ (0xDC00 ≤ high ∧ high ≤ 0xDFFF) := by omega
  refine ⟨by simp only [List.length_append, List.length_cons] at hlt hlt' ⊢; omega, ?_⟩
  simp only [readNumbered, hread, except_ok_bind, if_neg hnotLow, if_pos hhigh, hread', if_pos hlow]

theorem readEscape_sound {s : List Char} {r : Read s Char} (h : readEscape s = .ok r)
    {cs t : List Char} (hrest : Spells r.rest cs t) : Spells ('\\' :: s) (r.value :: cs) t := by
  unfold readEscape at h
  split at h
  case h_1 => cases h
  case h_10 =>
    obtain ⟨q, hq, rfl⟩ := except_map_eq_ok.mp h
    exact readNumbered_sound hq hrest
  case h_11 => cases h
  all_goals
    obtain rfl := Except.ok.inj h
    exact .escape (by simp [escapes, Read.before]) hrest

theorem readEscape_escape {e c : Char} (h : (e, c) ∈ escapes) (t : List Char) :
    readEscape (e :: t) = .ok (.before t c) := by
  simp only [escapes, List.mem_cons, Prod.mk.injEq, List.not_mem_nil, or_false] at h
  rcases h with ⟨rfl, rfl⟩ | ⟨rfl, rfl⟩ | ⟨rfl, rfl⟩ | ⟨rfl, rfl⟩ | ⟨rfl, rfl⟩ | ⟨rfl, rfl⟩ |
    ⟨rfl, rfl⟩ | ⟨rfl, rfl⟩ <;> rfl

theorem readEscape_unit {s t : List Char} {c : Char} {hlt : t.length < s.length}
    (h : readNumbered s = .ok ⟨c, t, hlt⟩) :
    readEscape ('u' :: s) = .ok ⟨c, t, Nat.lt_succ_of_lt hlt⟩ := by
  rw [readEscape, h]
  rfl

/-- What is read of a literal is what it spells. -/
theorem readLiteral_sound {s : List Char} {r : Read s (List Char)} (h : readLiteral s = .ok r) :
    Spells s r.value r.rest := by
  fun_induction readLiteral s with
  | case1 => cases h
  | case2 rest =>
    cases h
    exact .close
  | case3 t ih =>
    obtain ⟨c, hc, h⟩ := except_bind_eq_ok.mp h
    obtain ⟨tail, htail, h⟩ := except_bind_eq_ok.mp h
    have htail := ih c htail
    obtain rfl := Except.ok.inj h
    exact readEscape_sound hc htail
  | case4 => cases h
  | case5 c t hquote hbackslash hcontrol ih =>
    obtain ⟨tail, htail, h⟩ := except_bind_eq_ok.mp h
    have htail := ih htail
    obtain rfl := Except.ok.inj h
    exact .plain hquote hbackslash (Nat.not_lt.mp hcontrol) htail

theorem readLiteral_plain {c : Char} {s cs t : List Char} {hlt : t.length < s.length}
    (hquote : c ≠ '"') (hbackslash : c ≠ '\\') (hcontrol : 0x20 ≤ c.toNat)
    (h : readLiteral s = .ok ⟨cs, t, hlt⟩) :
    readLiteral (c :: s) = .ok ⟨c :: cs, t, Nat.lt_succ_of_lt hlt⟩ := by
  rw [readLiteral, if_neg (Nat.not_lt.mpr hcontrol), h]
  · rfl
  · exact hquote
  · exact hbackslash

theorem readLiteral_escape {s u cs t : List Char} {c : Char} {hlt : u.length < s.length}
    {hlt' : t.length < u.length} (hc : readEscape s = .ok ⟨c, u, hlt⟩)
    (h : readLiteral u = .ok ⟨cs, t, hlt'⟩) :
    readLiteral ('\\' :: s) = .ok ⟨c :: cs, t, Nat.lt_succ_of_lt (Nat.lt_trans hlt' hlt)⟩ := by
  rw [readLiteral, hc, except_ok_bind]
  simp only [h]
  rfl

theorem readLiteral_complete {s cs t : List Char} (h : Spells s cs t) :
    ∃ hlt, readLiteral s = .ok ⟨cs, t, hlt⟩ := by
  induction h with
  | close => exact ⟨Nat.lt_succ_self _, by rw [readLiteral]; rfl⟩
  | plain hquote hbackslash hcontrol h ih =>
    obtain ⟨hlt, ih⟩ := ih
    exact ⟨_, readLiteral_plain hquote hbackslash hcontrol ih⟩
  | escape he h ih =>
    obtain ⟨hlt, ih⟩ := ih
    exact ⟨_, readLiteral_escape (readEscape_escape he _) ih⟩
  | unit hn hhigh hlow h ih =>
    obtain ⟨hlt, ih⟩ := ih
    obtain ⟨hlt', hread⟩ := readNumbered_unit hn hhigh hlow
    have hescape := readEscape_unit hread
    exact ⟨_, readLiteral_escape hescape ih⟩
  | pair hquad hquad' hhigh hlow h ih =>
    obtain ⟨hlt, ih⟩ := ih
    obtain ⟨hlt', hread⟩ := readNumbered_pair hquad hquad' hhigh hlow
    have hescape := readEscape_unit hread
    exact ⟨_, readLiteral_escape hescape ih⟩

/-! ### Written literals -/

/-- How a character is written. -/
inductive Encoded (c : Char) : List Char → Prop
  | plain (hquote : c ≠ '"') (hbackslash : c ≠ '\\') (hcontrol : 0x20 ≤ c.toNat) : Encoded c [c]
  | escape {e : Char} (h : (e, c) ∈ escapes) (hslash : e ≠ '/') : Encoded c ['\\', e]
  | control {quad : List Char} (h : IsQuad quad c.toNat) (hcontrol : c.toNat < 0x20) :
      Encoded c ('\\' :: 'u' :: quad)

theorem isQuad_control {n : Nat} (h : n < 0x20) :
    IsQuad ['0', '0', Nat.digitChar (n / 16), Nat.digitChar (n % 16)] n := by
  have hall : ∀ n < 0x20,
      Text.hexNumber? ['0', '0', Nat.digitChar (n / 16), Nat.digitChar (n % 16)] = some n := by
    decide
  exact ⟨rfl, hall n h⟩

theorem encoded_encodeChar (c : Char) : Encoded c (encodeChar c) := by
  unfold encodeChar
  split
  case h_8 hquote hbackslash _ _ _ _ _ =>
    split
    · next hcontrol => exact .control (isQuad_control hcontrol) hcontrol
    · next hcontrol => exact .plain hquote hbackslash (Nat.not_lt.mp hcontrol)
  all_goals exact .escape (by decide) (by decide)

theorem Encoded.spells {c : Char} {written s cs t : List Char} (h : Encoded c written)
    (hrest : Spells s cs t) : Spells (written ++ s) (c :: cs) t := by
  cases h with
  | plain hquote hbackslash hcontrol => exact .plain hquote hbackslash hcontrol hrest
  | escape h => exact .escape h hrest
  | control h hcontrol =>
    have hhigh : ¬ IsHighSurrogate c.toNat := by
      unfold IsHighSurrogate
      omega
    have hlow : ¬ IsLowSurrogate c.toNat := by
      unfold IsLowSurrogate
      omega
    have hunit := Spells.unit h hhigh hlow hrest
    rwa [Char.ofNat_toNat] at hunit

theorem literal_append (cs t : List Char) :
    literal cs ++ t = '"' :: (cs.flatMap encodeChar ++ '"' :: t) := by
  simp [literal]

/-- A literal spells the text of which it is the literal. -/
theorem spells_encoded (cs t : List Char) : Spells (cs.flatMap encodeChar ++ '"' :: t) cs t := by
  induction cs with
  | nil => exact .close
  | cons c cs ih =>
    rw [List.flatMap_cons, List.append_assoc]
    exact (encoded_encodeChar c).spells ih

theorem intercalate_map_cons {α : Type} (sep : List Char) (text : α → List Char) (a : α)
    (as : List α) :
    sep.intercalate ((a :: as).map text) = text a ++ as.flatMap fun b => sep ++ text b := by
  induction as generalizing a with
  | nil => simp
  | cons b as ih =>
    have h := ih b
    simp only [List.map_cons, List.flatMap_cons] at h ⊢
    rw [List.intercalate_cons_cons, h]
    simp

end ReadBarrier.Json
