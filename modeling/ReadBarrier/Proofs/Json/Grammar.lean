import ReadBarrier.Json.Number

/-!
The grammar of JSON texts, as in RFC 8259.

Each rule says what the front of a text spells, and which text is left behind it.
-/

namespace ReadBarrier.Json

inductive Value where
  | null
  | boolean (b : Bool)
  | number (n : Numeral)
  | string (s : String)
  | array (items : List Value)
  | object (members : List (String × Value))

/-! ### Tokens -/

def IsBlank (c : Char) : Prop := c = ' ' ∨ c = '\t' ∨ c = '\n' ∨ c = '\r'

/-- Blanks may stand before and behind every token. -/
def Gap (s t : List Char) : Prop := ∃ blanks, s = blanks ++ t ∧ ∀ c ∈ blanks, IsBlank c

theorem Gap.refl (s : List Char) : Gap s s := ⟨[], rfl, by simp⟩

theorem Gap.trans {s t u : List Char} (h : Gap s t) (h' : Gap t u) : Gap s u := by
  obtain ⟨blanks, rfl, hblanks⟩ := h
  obtain ⟨blanks', rfl, hblanks'⟩ := h'
  refine ⟨blanks ++ blanks', by simp, fun c hc => ?_⟩
  rcases List.mem_append.mp hc with hc | hc
  · exact hblanks c hc
  · exact hblanks' c hc

/-- The escapes of two characters: what stands behind the backslash, and what it spells. -/
def escapes : List (Char × Char) :=
  [('"', '"'), ('\\', '\\'), ('/', '/'), ('b', '\x08'), ('f', '\x0c'), ('n', '\n'), ('r', '\r'),
    ('t', '\t')]

def IsQuad (digits : List Char) (n : Nat) : Prop :=
  digits.length = 4 ∧ Text.hexNumber? digits = some n

def IsHighSurrogate (n : Nat) : Prop := 0xD800 ≤ n ∧ n ≤ 0xDBFF

def IsLowSurrogate (n : Nat) : Prop := 0xDC00 ≤ n ∧ n ≤ 0xDFFF

/-- What a string spells, after its opening quote. -/
inductive Spells : List Char → List Char → List Char → Prop
  | close {t : List Char} : Spells ('"' :: t) [] t
  | plain {c : Char} {s cs t : List Char} (hquote : c ≠ '"') (hbackslash : c ≠ '\\')
      (hcontrol : 0x20 ≤ c.toNat) (h : Spells s cs t) : Spells (c :: s) (c :: cs) t
  | escape {e c : Char} {s cs t : List Char} (he : (e, c) ∈ escapes) (h : Spells s cs t) :
      Spells ('\\' :: e :: s) (c :: cs) t
  | unit {quad s cs t : List Char} {n : Nat} (hn : IsQuad quad n) (hhigh : ¬ IsHighSurrogate n)
      (hlow : ¬ IsLowSurrogate n) (h : Spells s cs t) :
      Spells ('\\' :: 'u' :: (quad ++ s)) (Char.ofNat n :: cs) t
  | pair {quad quad' s cs t : List Char} {high low : Nat} (hquad : IsQuad quad high)
      (hquad' : IsQuad quad' low) (hhigh : IsHighSurrogate high) (hlow : IsLowSurrogate low)
      (h : Spells s cs t) :
      Spells ('\\' :: 'u' :: (quad ++ '\\' :: 'u' :: (quad' ++ s)))
        (Char.ofNat (0x10000 + (high - 0xD800) * 0x400 + (low - 0xDC00)) :: cs) t

def IsDigits (digits : List Char) : Prop := digits ≠ [] ∧ ∀ c ∈ digits, c.isDigit

inductive SpellsFraction : List Char → Option (List Char) → Prop
  | absent : SpellsFraction [] none
  | given {digits : List Char} (h : IsDigits digits) : SpellsFraction ('.' :: digits) (some digits)

inductive SpellsExponent : List Char → Option (Bool × List Char) → Prop
  | absent : SpellsExponent [] none
  | given {e : Char} {sign digits : List Char} {negative : Bool} (he : e = 'e' ∨ e = 'E')
      (hsign : (sign, negative) ∈ [([], false), (['+'], false), (['-'], true)])
      (h : IsDigits digits) : SpellsExponent (e :: (sign ++ digits)) (some (negative, digits))

inductive SpellsNumeral : List Char → Numeral → Prop
  | mk {negative : Bool} {whole f e : List Char} {fraction : Option (List Char)}
      {exponent : Option (Bool × List Char)} (hwhole : IsDigits whole)
      (hzero : whole.head? = some '0' → whole = ['0']) (hf : SpellsFraction f fraction)
      (he : SpellsExponent e exponent) :
      SpellsNumeral ((if negative then ['-'] else []) ++ whole ++ f ++ e)
        ⟨negative, whole, fraction, exponent⟩

/-! ### Values -/

section Listing

variable {α : Type} (P : List Char → α → List Char → Prop) (opening close : Char)

/-- The further parts of an array or an object, and its end. -/
inductive More : List Char → List α → List Char → Prop
  | done {s t : List Char} (h : Gap s (close :: t)) : More s [] t
  | next {s u v w t : List Char} {a : α} {as : List α} (hcomma : Gap s (',' :: u)) (hgap : Gap u v)
      (ha : P v a w) (has : More w as t) : More s (a :: as) t

inductive Listing : List Char → List α → List Char → Prop
  | empty {s t : List Char} (h : Gap s (close :: t)) : Listing (opening :: s) [] t
  | first {s u v t : List Char} {a : α} {as : List α} (hgap : Gap s u) (ha : P u a v)
      (has : More P close v as t) : Listing (opening :: s) (a :: as) t

/-- A name and what stands for it. -/
inductive Member : List Char → String × α → List Char → Prop
  | mk {s cs u v w t : List Char} {a : α} (hname : Spells s cs u) (hcolon : Gap u (':' :: v))
      (hgap : Gap v w) (ha : P w a t) : Member ('"' :: s) (String.ofList cs, a) t

end Listing

theorem More.map {α β : Type} {P : List Char → α → List Char → Prop}
    {Q : List Char → β → List Char → Prop} {close : Char} {f : α → β}
    (hPQ : ∀ s a t, P s a t → Q s (f a) t) {s t : List Char} {as : List α}
    (h : More P close s as t) : More Q close s (as.map f) t := by
  induction h with
  | done h => exact .done h
  | next hcomma hgap ha _ ih => exact .next hcomma hgap (hPQ _ _ _ ha) ih

theorem Listing.map {α β : Type} {P : List Char → α → List Char → Prop}
    {Q : List Char → β → List Char → Prop} {opening close : Char} {f : α → β}
    (hPQ : ∀ s a t, P s a t → Q s (f a) t) {s t : List Char} {as : List α}
    (h : Listing P opening close s as t) : Listing Q opening close s (as.map f) t := by
  cases h with
  | empty h => exact .empty h
  | first hgap ha has => exact .first hgap (hPQ _ _ _ ha) (has.map hPQ)

inductive IsValue : List Char → Value → List Char → Prop
  | null {t : List Char} : IsValue ("null".toList ++ t) .null t
  | yes {t : List Char} : IsValue ("true".toList ++ t) (.boolean true) t
  | no {t : List Char} : IsValue ("false".toList ++ t) (.boolean false) t
  | number {s t : List Char} {n : Numeral} (h : SpellsNumeral s n) : IsValue (s ++ t) (.number n) t
  | string {s cs t : List Char} (h : Spells s cs t) :
      IsValue ('"' :: s) (.string (String.ofList cs)) t
  | array {s t : List Char} {items : List Value} (h : Listing IsValue '[' ']' s items t) :
      IsValue s (.array items) t
  | object {s t : List Char} {members : List (String × Value)}
      (h : Listing (Member IsValue) '{' '}' s members t) : IsValue s (.object members) t

theorem IsValue.listing_of_array {s t : List Char} {items : List Value}
    (h : IsValue s (.array items) t) : Listing IsValue '[' ']' s items t := by
  cases h with
  | array h => exact h

theorem IsValue.listing_of_object {s t : List Char} {members : List (String × Value)}
    (h : IsValue s (.object members) t) : Listing (Member IsValue) '{' '}' s members t := by
  cases h with
  | object h => exact h

/-- A JSON text is one value, with nothing but blanks around it. -/
def IsText (s : List Char) (v : Value) : Prop := ∃ t u, Gap s t ∧ IsValue t v u ∧ Gap u []

end ReadBarrier.Json
