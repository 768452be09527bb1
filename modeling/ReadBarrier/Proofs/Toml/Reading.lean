import Mathlib.Data.List.TakeDrop
import ReadBarrier.Proofs.Json.Document
import ReadBarrier.Proofs.Toml.Contract
import ReadBarrier.Toml.Record

/-!
Documents with a value on each line are read as what the lines assign.
-/

namespace ReadBarrier.Toml

open Json (IsQuad Value)
open Text (Read skip)

/-- The reader makes `a` of the front of a text and leaves `t`. -/
def Yields {α : Type} (read : (s : List Char) → Option (Read s α)) (s : List Char) (a : α)
    (t : List Char) : Prop :=
  ∃ hlt, read s = some ⟨a, t, hlt⟩

/-- `t` is what a text holds after blanks, comments and line ends. -/
def Leads (s t : List Char) : Prop := ∃ hle, afterSpace s = some ⟨t, hle⟩

/-! ### Blanks -/

theorem isBlank_iff {c : Char} : isBlank c = true ↔ c = ' ' ∨ c = '\t' := by
  simp [isBlank]

theorem skip_of_gap {s t : List Char} (h : Gap s t) (ht : ∀ c ∈ t.head?, isBlank c = false) :
    skip isBlank s = t := by
  obtain ⟨blanks, rfl, hblanks⟩ := h
  rw [skip, List.dropWhile_append_of_pos fun c hc => isBlank_iff.mpr (hblanks c hc)]
  cases t with
  | nil => rfl
  | cons c t => exact List.dropWhile_cons_of_neg (by simp [ht c rfl])

/-- What a text with blanks at its front starts with. -/
theorem Gap.head? {s t : List Char} (h : Gap s t) {c : Char} (hc : s.head? = some c) :
    c = ' ' ∨ c = '\t' ∨ t.head? = some c := by
  obtain ⟨_ | ⟨b, blanks⟩, rfl, hblanks⟩ := h
  · exact .inr (.inr hc)
  · obtain rfl := Option.some.inj hc
    rcases hblanks b List.mem_cons_self with rfl | rfl
    · exact .inl rfl
    · exact .inr (.inl rfl)

theorem Gap.head?_ne {s t : List Char} (h : Gap s t) {c : Char} (hblank : isBlank c = false)
    (hc : t.head? ≠ some c) : s.head? ≠ some c := by
  intro hs
  rcases h.head? hs with rfl | rfl | ht
  · cases hblank
  · cases hblank
  · exact hc ht

theorem leads_of_solid {c : Char} (hblank : isBlank c = false) (hline : c ≠ '\n')
    (hreturn : c ≠ '\r') (hcomment : c ≠ '#') (s : List Char) : Leads (c :: s) (c :: s) := by
  refine ⟨Nat.le_refl _, ?_⟩
  rw [afterSpace]
  · simp [hblank, hline]
  · exact fun _ hc => absurd hc hreturn
  · exact hcomment

theorem leads_of_blank {b : Char} {s t : List Char} (hb : b = ' ' ∨ b = '\t') (h : Leads s t) :
    Leads (b :: s) t := by
  obtain ⟨hle, h⟩ := h
  refine ⟨Nat.le_succ_of_le hle, ?_⟩
  rw [afterSpace]
  · simp [isBlank_iff.mpr hb, h]
  · rcases hb with rfl | rfl
    · exact fun _ hc => absurd hc (by decide)
    · exact fun _ hc => absurd hc (by decide)
  · rcases hb with rfl | rfl
    · decide
    · decide

theorem leads_of_gap {s t : List Char} {c : Char} (hc : c ∈ ['"', ',', ']'])
    (h : Gap s (c :: t)) : Leads s (c :: t) := by
  obtain ⟨blanks, rfl, hblanks⟩ := h
  induction blanks with
  | nil =>
    simp only [List.mem_cons, List.not_mem_nil, or_false] at hc
    rcases hc with rfl | rfl | rfl <;>
      exact leads_of_solid (by decide) (by decide) (by decide) (by decide) t
  | cons b blanks ih =>
    have hrest := ih fun d hd => hblanks d (List.mem_cons_of_mem _ hd)
    exact leads_of_blank (hblanks b List.mem_cons_self) hrest

/-! ### Strings -/

theorem readEscape_escape {e c : Char} (h : (e, c) ∈ escapes) (t : List Char) :
    readEscape (e :: t) = some (.before t c) := by
  simp only [escapes, List.mem_cons, Prod.mk.injEq, List.not_mem_nil, or_false] at h
  rcases h with ⟨rfl, rfl⟩ | ⟨rfl, rfl⟩ | ⟨rfl, rfl⟩ | ⟨rfl, rfl⟩ | ⟨rfl, rfl⟩ | ⟨rfl, rfl⟩ |
    ⟨rfl, rfl⟩ <;> rfl

theorem readEscape_quad {quad : List Char} {c : Char} (h : IsQuad quad c.toNat) (t : List Char) :
    ∃ hlt, readEscape ('u' :: (quad ++ t)) = some ⟨c, t, hlt⟩ := by
  obtain ⟨hlength, hnumber⟩ := h
  have hvalid : c.toNat.isValidChar := c.valid
  have hchar : scalar? c.toNat = some c := by
    rw [scalar?, if_pos hvalid, Char.ofNat_toNat]
  have htake : (quad ++ t).take 4 = quad := List.take_left' hlength
  have hdrop : (quad ++ t).drop 4 = t := List.drop_left' hlength
  have hle : 4 ≤ (quad ++ t).length ∧ 0 < 4 := by
    rw [List.length_append, hlength]
    omega
  refine ⟨by simp only [List.length_cons, List.length_append]; omega, ?_⟩
  simp only [readEscape, readNumbered, dif_pos hle, htake, hnumber]
  simp [hchar, hdrop, Read.behind, Read.widen]

theorem readBasic_plain {c : Char} {s cs t : List Char} {hlt : t.length < s.length}
    (hquote : c ≠ '"') (hbackslash : c ≠ '\\') (hallowed : isAllowed c = true)
    (h : readBasic s = some ⟨cs, t, hlt⟩) :
    readBasic (c :: s) = some ⟨c :: cs, t, Nat.lt_succ_of_lt hlt⟩ := by
  rw [readBasic, if_pos hallowed, h]
  · rfl
  · exact hquote
  · exact hbackslash

theorem readBasic_escape {s u cs t : List Char} {c : Char} {hlt : u.length < s.length}
    {hlt' : t.length < u.length} (hc : readEscape s = some ⟨c, u, hlt⟩)
    (h : readBasic u = some ⟨cs, t, hlt'⟩) :
    readBasic ('\\' :: s) = some ⟨c :: cs, t, Nat.lt_succ_of_lt (Nat.lt_trans hlt' hlt)⟩ := by
  rw [readBasic, hc]
  change (readBasic u >>= _) = _
  rw [h]
  rfl

theorem readBasic_complete {s cs t : List Char} (h : Spells s cs t) : Yields readBasic s cs t := by
  induction h with
  | close => exact ⟨Nat.lt_succ_self _, by rw [readBasic]; rfl⟩
  | @plain c s cs t hquote hbackslash hcontrol hdelete h ih =>
    obtain ⟨hlt, ih⟩ := ih
    have hallowed : isAllowed c = true := by
      rcases hcontrol with rfl | hcontrol
      · rfl
      · simp [isAllowed, hcontrol, hdelete]
    exact ⟨_, readBasic_plain hquote hbackslash hallowed ih⟩
  | escape he h ih =>
    obtain ⟨hlt, ih⟩ := ih
    exact ⟨_, readBasic_escape (readEscape_escape he _) ih⟩
  | unit hquad h ih =>
    obtain ⟨hlt, ih⟩ := ih
    obtain ⟨hlt', hescape⟩ := readEscape_quad hquad _
    exact ⟨_, readBasic_escape hescape ih⟩

/-- A string is read where no further quote follows it: three quotes open a block. -/
theorem readString_basic {s cs t : List Char} (h : Spells s cs t) (ht : t.head? ≠ some '"') :
    Yields readString ('"' :: s) (String.ofList cs) t := by
  have hblock : ∀ u, s = '"' :: '"' :: u → False := by
    rintro u rfl
    cases h with
    | close => exact ht rfl
    | plain hquote => exact hquote rfl
  obtain ⟨hlt, hread⟩ := readBasic_complete h
  refine ⟨Nat.lt_succ_of_lt hlt, ?_⟩
  rw [readString]
  · rw [hread]
    simp [Read.map, Read.behind, Read.widen]
  · exact hblock

/-! ### Items -/

/-- The item is what the value is in JSON. -/
inductive Means : Item → Value → Prop
  | boolean (b : Bool) : Means (.scalar (.boolean b)) (.boolean b)
  | string (s : String) : Means (.string s) (.string s)
  | strings (as : List String) : Means (.array (as.map .string)) (.array (as.map .string))

theorem readItem_string {s cs t : List Char} (h : Spells s cs t) (ht : t.head? ≠ some '"') :
    Yields readItem ('"' :: s) (.string (String.ofList cs)) t := by
  obtain ⟨hlt, hread⟩ := readString_basic h ht
  exact ⟨hlt, by simp [readItem, hread, Read.map]⟩

theorem readItem_items {s t : List Char} {items : List Item} (h : Yields readItems s items t) :
    Yields readItem ('[' :: s) (.array items) t := by
  obtain ⟨hlt, hread⟩ := h
  refine ⟨Nat.lt_succ_of_lt hlt, ?_⟩
  rw [readItem, hread]
  rfl

theorem readItems_nil {s t : List Char} (h : Leads s (']' :: t)) : Yields readItems s [] t := by
  obtain ⟨hle, h⟩ := h
  refine ⟨Nat.lt_of_succ_le hle, ?_⟩
  rw [readItems]
  simp [h]

section Items

variable {s u v : List Char} {c : Char} {a : Item}

theorem readItems_last (hs : Leads s (c :: u)) (hc : c ≠ ']') (ha : Yields readItem (c :: u) a v)
    {t : List Char} (hv : Leads v (']' :: t)) : Yields readItems s [a] t := by
  obtain ⟨hle, hs⟩ := hs
  obtain ⟨hlt, ha⟩ := ha
  obtain ⟨hle', hv⟩ := hv
  refine ⟨by simp only [List.length_cons] at hle hle' hlt; omega, ?_⟩
  rw [readItems]
  simp only [hs, Option.bind_eq_bind, Option.bind_some]
  split
  · next heq => exact absurd (List.cons.inj heq).1 hc
  · simp only [ha, hv, Option.bind_some]
    rfl

theorem readItems_next (hs : Leads s (c :: u)) (hc : c ≠ ']') (ha : Yields readItem (c :: u) a v)
    {w t : List Char} {as : List Item} (hv : Leads v (',' :: w)) (has : Yields readItems w as t) :
    Yields readItems s (a :: as) t := by
  obtain ⟨hle, hs⟩ := hs
  obtain ⟨hlt, ha⟩ := ha
  obtain ⟨hle', hv⟩ := hv
  obtain ⟨hlt', has⟩ := has
  refine ⟨by simp only [List.length_cons] at hle hle' hlt; omega, ?_⟩
  rw [readItems]
  simp only [hs, Option.bind_eq_bind, Option.bind_some]
  split
  · next heq => exact absurd (List.cons.inj heq).1 hc
  · simp only [ha, hv, has, Option.bind_some]
    rfl

end Items

theorem More.head? {s t : List Char} {as : List String} (h : More s as t) :
    s.head? ≠ some '"' := by
  cases h with
  | done h => exact h.head?_ne (by decide) (by simp)
  | next hcomma => exact hcomma.head?_ne (by decide) (by simp)

/-- A string and the further ones of its array. -/
theorem readItems_more {s v cs w t : List Char} {as : List String} (hs : Leads s ('"' :: v))
    (hspells : Spells v cs w) (h : More w as t) :
    Yields readItems s ((String.ofList cs :: as).map .string) t := by
  induction h generalizing s v cs with
  | done hclose =>
    have hread := readItem_string hspells (More.done hclose).head?
    exact readItems_last hs (by decide) hread (leads_of_gap (by decide) hclose)
  | next hcomma hgap hs' h ih =>
    have hread := readItem_string hspells (More.next hcomma hgap hs' h).head?
    have hmore := ih (leads_of_gap (by decide) hgap) hs'
    exact readItems_next hs (by decide) hread (leads_of_gap (by decide) hcomma) hmore

theorem readItems_strings {s t : List Char} {as : List String} (h : Strings s as t) :
    Yields readItems s (as.map .string) t := by
  cases h with
  | empty h => exact readItems_nil (leads_of_gap (by decide) h)
  | first hgap hs h => exact readItems_more (leads_of_gap (by decide) hgap) hs h

theorem scalarText_boolean (b : Bool) {t : List Char} (ht : ∀ c ∈ t.head?, isScalarPart c = false) :
    scalarText ((if b then "true" else "false").toList ++ t) =
      ((if b then "true" else "false").toList, t) := by
  have hword : ∀ c ∈ (if b then "true" else "false").toList, isScalarPart c = true :=
    List.all_eq_true.mp (by cases b <;> decide)
  have hdate : readDate (if b then "true" else "false").toList = none := by
    cases b <;> decide
  have hspan : ((if b then "true" else "false").toList ++ t).span isScalarPart =
      ((if b then "true" else "false").toList, t) := by
    rw [List.span_eq_takeWhile_dropWhile, List.takeWhile_append_of_pos hword,
      List.dropWhile_append_of_pos hword]
    cases t with
    | nil => simp
    | cons c t =>
      have hc := ht c rfl
      simp [hc]
  unfold scalarText
  rw [hspan]
  split
  · next heq =>
    obtain ⟨rfl, rfl⟩ := Prod.mk.inj heq
    simp [hdate]
  · rfl

theorem readItem_boolean (b : Bool) {t : List Char} (ht : ∀ c ∈ t.head?, isScalarPart c = false) :
    Yields readItem ((if b then "true" else "false").toList ++ t) (.scalar (.boolean b)) t := by
  have htext := scalarText_boolean b ht
  have hscalar : scalarOf? (if b then "true" else "false").toList = some (.boolean b) := by
    cases b <;> rfl
  have hlt : t.length < ((if b then "true" else "false").toList ++ t).length := by
    cases b <;> simp <;> omega
  have hread : readScalar ((if b then "true" else "false").toList ++ t) =
      some ⟨.scalar (.boolean b), t, hlt⟩ := by
    simp only [readScalar, htext, dif_pos hlt, hscalar]
    rfl
  refine ⟨hlt, ?_⟩
  cases b with
  | true => simpa [readItem] using hread
  | false => simpa [readItem] using hread

/-- What may follow an item: nothing that it could go on with. -/
def Stops (t : List Char) : Prop := ∀ c ∈ t.head?, isScalarPart c = false ∧ c ≠ '"'

theorem readItem_complete {s t : List Char} {v : Value} (h : IsItem s v t) (ht : Stops t) :
    ∃ item, Yields readItem s item t ∧ Means item v := by
  cases h with
  | boolean => exact ⟨_, readItem_boolean _ fun c hc => (ht c hc).1, .boolean _⟩
  | string h => exact ⟨_, readItem_string h fun hc => (ht _ hc).2 rfl, .string _⟩
  | strings h => exact ⟨_, readItem_items (readItems_strings h), .strings _⟩

theorem isItem_head? {s t : List Char} {v : Value} (h : IsItem s v t) :
    ∀ c ∈ s.head?, isBlank c = false := by
  cases h with
  | @boolean b =>
    cases b <;> rintro c ⟨⟩ <;> rfl
  | string =>
    rintro c ⟨⟩
    rfl
  | strings =>
    rintro c ⟨⟩
    rfl

/-! ### Lines -/

/-- A line ends where a text ends, or at a line feed. -/
def EndsLine (t : List Char) : Prop := t = [] ∨ ∃ u, t = '\n' :: u

theorem EndsLine.solid {t : List Char} (h : EndsLine t) : ∀ c ∈ t.head?, isBlank c = false := by
  rcases h with rfl | ⟨u, rfl⟩
  · simp
  · rintro c ⟨⟩
    rfl

theorem EndsLine.stops {s t : List Char} (ht : EndsLine t) (h : Gap s t) : Stops s := by
  intro c hc
  rcases h.head? hc with rfl | rfl | hhead
  · decide
  · decide
  · rcases ht with rfl | ⟨u, rfl⟩
    · cases hhead
    · obtain rfl := Option.some.inj hhead
      decide

theorem isBare_of_isKey {key : List Char} (h : IsKey key) : ∀ c ∈ key, isBare c = true := by
  intro c hc
  rcases h.2 c hc with h | rfl | rfl
  · simp [isBare, h]
  · rfl
  · rfl

theorem IsKey.opens {key : List Char} (h : IsKey key) :
    ∃ c rest, key = c :: rest ∧ isBare c = true := by
  cases key with
  | nil => exact absurd rfl h.1
  | cons c rest => exact ⟨c, rest, rfl, isBare_of_isKey h c List.mem_cons_self⟩

theorem readKey_bare {key s u : List Char} (hkey : IsKey key) (h : Gap s ('=' :: u)) :
    Yields readKey (key ++ s) [String.ofList key] ('=' :: u) := by
  have hbare := isBare_of_isKey hkey
  have hskip : skip isBlank s = '=' :: u := skip_of_gap h (by rintro c ⟨⟩; rfl)
  have hstop : ∀ c ∈ s.head?, isBare c = false := by
    intro c hc
    rcases h.head? hc with rfl | rfl | hhead
    · rfl
    · rfl
    · obtain rfl := Option.some.inj hhead
      rfl
  have hpart : Yields readKeyPart (key ++ s) (String.ofList key) s := by
    obtain ⟨hne, -⟩ := hkey
    cases key with
    | nil => exact absurd rfl hne
    | cons c key =>
      have hc := hbare c List.mem_cons_self
      have hrest : ∀ d ∈ key, isBare d = true := fun d hd => hbare d (List.mem_cons_of_mem _ hd)
      have htake : (key ++ s).takeWhile isBare = key := by
        rw [List.takeWhile_append_of_pos hrest]
        cases s with
        | nil => simp
        | cons d s => simp [hstop d rfl]
      have hdrop : (key ++ s).dropWhile isBare = s := by
        rw [List.dropWhile_append_of_pos hrest]
        cases s with
        | nil => rfl
        | cons d s => simp [hstop d rfl]
      rw [List.cons_append]
      refine ⟨by simp only [List.length_cons, List.length_append]; omega, ?_⟩
      rw [readKeyPart]
      · simp [hc, htake, hdrop]
      · rintro rfl
        exact absurd hc (by decide)
      · rintro rfl
        exact absurd hc (by decide)
  obtain ⟨hlt, hpart⟩ := hpart
  have hle := Text.length_skip_le isBlank s
  rw [hskip] at hle
  refine ⟨Nat.lt_of_le_of_lt hle hlt, ?_⟩
  rw [readKey, hpart]
  simp [hskip]

/-- The front of a line, up to the blanks at its end. -/
theorem readStatement_assigns {s t : List Char} {m : String × Value} (h : Assigns s m t)
    (ht : EndsLine t) :
    ∃ item w, Yields readStatement s (.assign [m.1] item) w ∧ Gap w t ∧ Means item m.2 := by
  cases h with
  | @mk key s u v w _ a hkey hequals hgap ha hend =>
    obtain ⟨item, ⟨hlt', hitem⟩, hmeans⟩ := readItem_complete ha (ht.stops hend)
    obtain ⟨hlt, hname⟩ := readKey_bare hkey hequals
    have hskip : skip isBlank u = v := skip_of_gap hgap (isItem_head? ha)
    have hle := Text.length_skip_le isBlank u
    rw [hskip] at hle
    have hlength : w.length < (key ++ s).length := by
      simp only [List.length_cons] at hlt
      omega
    have hassignment : readAssignment (key ++ s) =
        some ⟨.assign [String.ofList key] item, w, hlength⟩ := by
      subst hskip
      simp only [readAssignment, hname, hitem, Option.bind_eq_bind, Option.bind_some]
      rfl
    refine ⟨item, w, ⟨hlength, ?_⟩, hend, hmeans⟩
    rw [← hassignment]
    obtain ⟨c, rest, rfl, hc⟩ := hkey.opens
    have hbracket : c ≠ '[' := by
      rintro rfl
      cases hc
    simp [readStatement, hbracket]

theorem leads_of_assigns {s t : List Char} {m : String × Value} (h : Assigns s m t) :
    Leads s s := by
  cases h with
  | @mk key s u v w _ a hkey hequals hgap ha hend =>
    obtain ⟨c, rest, rfl, hc⟩ := hkey.opens
    have hother : ∀ d, isBare d = false → c ≠ d := by
      rintro d hd rfl
      rw [hc] at hd
      cases hd
    have hblank : isBlank c = false := by
      simp [isBlank, hother ' ' (by decide), hother '\t' (by decide)]
    exact leads_of_solid hblank (hother '\n' (by decide)) (hother '\r' (by decide))
      (hother '#' (by decide)) _

theorem afterLine_of_gap {s t : List Char} (h : Gap s t) (ht : EndsLine t) :
    ∃ hle, afterLine s = some ⟨t.drop 1, hle⟩ := by
  have hskip := skip_of_gap h ht.solid
  have hle := Text.length_skip_le isBlank s
  rw [hskip] at hle
  have hdrop : (t.drop 1).length ≤ s.length := by
    rw [List.length_drop]
    omega
  refine ⟨hdrop, ?_⟩
  unfold afterLine
  rcases ht with rfl | ⟨u, rfl⟩
  · split <;> simp_all
  · split <;> simp_all

theorem readStatements_line {s t : List Char} {m : String × Value} (h : Assigns s m t)
    (ht : EndsLine t) {more : List Statement} (hmore : readStatements (t.drop 1) = some more) :
    ∃ item, readStatements s = some (.assign [m.1] item :: more) ∧ Means item m.2 := by
  obtain ⟨hle, hleads⟩ := leads_of_assigns h
  obtain ⟨item, w, ⟨hlt, hstatement⟩, hgap, hmeans⟩ := readStatement_assigns h ht
  obtain ⟨hle', hline⟩ := afterLine_of_gap hgap ht
  have hne : s.isEmpty = false := by
    cases s with
    | nil => cases hlt
    | cons => rfl
  refine ⟨item, ?_, hmeans⟩
  rw [readStatements]
  simp only [hleads, hne, hstatement, hline, hmore, Option.bind_eq_bind, Option.bind_some,
    Bool.false_eq_true, ↓reduceIte]
  rfl

theorem readStatements_nil : readStatements [] = some [] := by
  have hspace : afterSpace [] = some ⟨[], Nat.zero_le _⟩ := by rw [afterSpace]
  rw [readStatements, hspace]
  rfl

theorem readStatements_newline (s : List Char) :
    readStatements ('\n' :: s) = readStatements s := by
  have hspace : afterSpace ('\n' :: s) =
      (afterSpace s).map fun r => ⟨r.1, Nat.le_succ_of_le r.2⟩ := by
    rw [afterSpace]
    · simp
    · exact fun _ hc => absurd hc (by decide)
    · decide
  rw [readStatements, readStatements, hspace]
  cases afterSpace s <;> rfl

/-! ### Documents -/

/-- Entries that say the members of an object, key by key. -/
structure Entry where
  key : String
  item : Item
  value : Value
  means : Means item value

def Entry.statement (e : Entry) : Statement := .assign [e.key] e.item

theorem readStatements_lines {s : List Char} {ms : List (String × Value)} (h : Lines s ms) :
    ∃ es : List Entry, readStatements s = some (es.map Entry.statement) ∧
      ms = es.map fun e => (e.key, e.value) := by
  induction h with
  | nil => exact ⟨[], readStatements_nil, rfl⟩
  | empty h ih =>
    rw [readStatements_newline]
    exact ih
  | @last s m h =>
    obtain ⟨item, hread, hmeans⟩ := readStatements_line h (.inl rfl) readStatements_nil
    exact ⟨[⟨m.1, item, m.2, hmeans⟩], hread, rfl⟩
  | @line s t m ms h hs ih =>
    obtain ⟨es, hmore, rfl⟩ := ih
    obtain ⟨item, hread, hmeans⟩ := readStatements_line h (.inr ⟨t, rfl⟩) hmore
    exact ⟨⟨m.1, item, m.2, hmeans⟩ :: es, hread, rfl⟩

theorem Entries.get?_eq_none {entries : Entries} {key : String}
    (h : key ∉ entries.map Prod.fst) : entries.get? key = none := by
  rw [get?, Option.map_eq_none_iff, List.find?_eq_none]
  intro p hp heq
  exact h (List.mem_map.mpr ⟨p, hp, beq_iff_eq.mp heq⟩)

theorem assemble_assignments {before entries : Entries}
    (h : ((before ++ entries).map Prod.fst).Nodup) :
    assemble [] before (entries.map fun p => .assign [p.1] p.2) = some (before ++ entries) := by
  induction entries generalizing before with
  | nil => rw [List.map_nil, assemble, List.append_nil]
  | cons p entries ih =>
    have hnew : p.1 ∉ before.map Prod.fst := by
      rw [List.map_append, List.map_cons] at h
      exact fun hp => (List.nodup_append.mp h).2.2 _ hp _ List.mem_cons_self rfl
    have hassign : before.inside (Entries.assign p.2 [p.1]) [] = some (before ++ [p]) := by
      simp [Entries.inside, Entries.assign, Entries.get?_eq_none hnew]
    have hrest : before ++ p :: entries = before ++ [p] ++ entries := by simp
    rw [hrest] at h ⊢
    rw [List.map_cons, assemble, hassign]
    exact ih h

theorem Lines.head? {s : List Char} {ms : List (String × Value)} (h : Lines s ms) :
    s.head? ≠ some '\uFEFF' := by
  have hassigns {s t : List Char} {m : String × Value} (h : Assigns s m t) :
      s.head? ≠ some '\uFEFF' := by
    cases h with
    | @mk key s u v w _ a hkey hequals hgap ha hend =>
      obtain ⟨c, rest, rfl, hc⟩ := hkey.opens
      intro heq
      obtain rfl := Option.some.inj heq
      exact absurd hc (by decide)
  cases h with
  | nil => simp
  | empty => simp
  | last h => exact hassigns h
  | line h => exact hassigns h

/-- A document is read as the entries that say what it assigns. -/
theorem readDocument_complete {s : List Char} {ms : List (String × Value)} (h : IsDocument s ms) :
    ∃ es : List Entry, readDocument s = some (es.map fun e => (e.key, e.item)) ∧
      ms = es.map fun e => (e.key, e.value) := by
  obtain ⟨es, hread, rfl⟩ := readStatements_lines h.lines
  refine ⟨es, ?_, rfl⟩
  have hkeys : (([] ++ es.map fun e => (e.key, e.item) : Entries).map Prod.fst).Nodup := by
    simpa [Function.comp_def] using h.keys
  have hassemble := assemble_assignments hkeys
  rw [List.map_map] at hassemble
  unfold readDocument
  split
  · exact absurd rfl h.lines.head?
  · change (readStatements s >>= assemble [] []) = _
    rw [hread]
    exact hassemble

/-! ### Records -/

section Records

variable {ρ : Type} {R : Record ρ} {item : Item} {v : Value}

theorem toOption_boolean (h : Means item v) : (boolean item).toOption = v.boolean? := by
  cases h <;> rfl

theorem toOption_string (h : Means item v) : (string item).toOption = v.string? := by
  cases h <;> rfl

theorem strings_array (as : List String) : strings (.array (as.map .string)) = .ok as := by
  rw [strings]
  induction as with
  | nil => rfl
  | cons a as ih =>
    rw [List.map_cons, List.mapM_cons, ih]
    rfl

theorem toOption_strings (h : Means item v) : (strings item).toOption = v.strings? := by
  cases h with
  | boolean => rfl
  | string => rfl
  | strings as => rw [Json.Value.strings?_eq_some.mpr rfl, strings_array, Json.toOption_ok]

theorem toOption_addField (h : Means item v) (field : Field ρ) (x : Filling ρ) :
    (addField field x item).toOption = x.put? field v := by
  obtain ⟨key, access⟩ := field
  cases access with
  | boolean get set =>
    simp only [addField, Filling.put?, ← toOption_boolean h]
    cases boolean item <;> rfl
  | string get set =>
    simp only [addField, Filling.put?, ← toOption_string h]
    cases string item <;> rfl
  | strings get set =>
    simp only [addField, Filling.put?, ← toOption_strings h]
    cases strings item <;> rfl

/-- An entry for a new key is taken as the member that it says. -/
theorem toOption_addEntry {x : Filling ρ} (e : Entry) (hnew : e.key ∉ x.given) :
    (addEntry R x (e.key, e.item)).toOption = R.add? x (e.key, e.value) := by
  unfold addEntry Record.add?
  cases hfield : R.field? e.key with
  | none => rfl
  | some field =>
    have hkey : field.key = e.key := (Record.mem_of_field? hfield).2
    simp only [hkey, if_neg hnew]
    exact toOption_addField e.means field x

theorem given_of_add? {x y : Filling ρ} {m : String × Value} (h : R.add? x m = some y) :
    y.given = m.1 :: x.given := by
  unfold Record.add? at h
  split at h
  · cases h
  · next field hfield =>
    split at h
    · cases h
    · rw [Filling.given_of_put? h, (Record.mem_of_field? hfield).2]

theorem toOption_foldlM_addEntry (es : List Entry) {x : Filling ρ}
    (hkeys : (es.map Entry.key).Nodup) (hnew : ∀ e ∈ es, e.key ∉ x.given) :
    ((es.map fun e => (e.key, e.item)).foldlM (addEntry R) x).toOption =
      (es.map fun e => (e.key, e.value)).foldlM R.add? x := by
  induction es generalizing x with
  | nil => rfl
  | cons e es ih =>
    obtain ⟨hfirst, hkeys⟩ := List.nodup_cons.mp hkeys
    rw [List.map_cons, List.foldlM_cons, Json.toOption_bind, List.map_cons, List.foldlM_cons,
      toOption_addEntry e (hnew e List.mem_cons_self)]
    cases hadd : R.add? x (e.key, e.value) with
    | none => rfl
    | some y =>
      refine ih hkeys fun d hd => ?_
      rw [given_of_add? hadd, List.mem_cons, not_or]
      refine ⟨fun heq => hfirst ?_, hnew d (List.mem_cons_of_mem _ hd)⟩
      have hkey : d.key = e.key := heq
      exact hkey ▸ List.mem_map_of_mem hd

theorem library_documented : library.Documented where
  reads R text ms h := by
    obtain ⟨es, hread, rfl⟩ := readDocument_complete h
    have hkeys : (es.map Entry.key).Nodup := by simpa [Function.comp_def] using h.keys
    have hfold := toOption_foldlM_addEntry (R := R) (x := R.blank) es hkeys (by simp [Record.blank])
    rw [Record.ofValue?, Record.filling?, ← hfold]
    simp only [library, hread, ofEntries]
    cases (es.map fun e => (e.key, e.item)).foldlM (addEntry R) R.blank <;> rfl

end Records

end ReadBarrier.Toml
