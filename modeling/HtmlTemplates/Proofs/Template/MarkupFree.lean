import HtmlTemplates.Template.Value
import HtmlTemplates.Proofs.Markup.Breaks
/-!
Rendered values cannot carry markup.

A value that holds no markup and no object, at any depth of lists, is written as *inert* text
(`Text.Inert`): text that holds none of `<`, `>`, `"` and `'`, and in which every `&` starts one
of the five entities escaping writes. Such text can neither open a tag nor end a quoted
attribute value. Text values are escaped (`Text.inert_escapeHtml`); numbers, booleans and null
are written with characters that escaping keeps as they are (`Number.needsEscape_format`); and
lists join inert texts, one after another in content and with commas in an attribute value
(`Value.rendered_inert`).
-/
namespace HtmlTemplates

namespace Text

/-- The entities escaping writes. -/
def entities : List String := ["&quot;", "&amp;", "&#x27;", "&lt;", "&gt;"]

/-- Text that can neither open a tag nor end a quoted value: it holds none of `<`, `>`, `"`
and `'`, and every `&` in it starts an entity. -/
structure Inert (cs : List Char) : Prop where
  no_markup : ∀ c ∈ cs, c ≠ '<' ∧ c ≠ '>' ∧ c ≠ '"' ∧ c ≠ '\''
  amp_entity : ∀ i, cs[i]? = some '&' → ∃ e ∈ entities, e.toList <+: cs.drop i

namespace Inert

theorem nil : Inert [] := ⟨by simp, by simp⟩

theorem append {a b : List Char} (ha : Inert a) (hb : Inert b) : Inert (a ++ b) := by
  refine ⟨fun c hc => ?_, fun i hi => ?_⟩
  · rcases List.mem_append.1 hc with h | h
    · exact ha.no_markup c h
    · exact hb.no_markup c h
  · rw [List.drop_append]
    by_cases hlt : i < a.length
    · rw [List.getElem?_append_left hlt] at hi
      obtain ⟨e, he, hp⟩ := ha.amp_entity i hi
      exact ⟨e, he, hp.trans (List.prefix_append _ _)⟩
    · -- past `a` the `&` is one of `b`, and the suffix from it lies in `b`
      rw [List.getElem?_append_right (by omega)] at hi
      obtain ⟨e, he, hp⟩ := hb.amp_entity _ hi
      rw [List.drop_eq_nil_of_le (by omega), List.nil_append]
      exact ⟨e, he, hp⟩

theorem flatMap {α : Type} {f : α → List Char} {l : List α} (h : ∀ x ∈ l, Inert (f x)) :
    Inert (l.flatMap f) := by
  induction l with
  | nil => exact nil
  | cons x l ih =>
    rw [List.flatMap_cons]
    exact (h x List.mem_cons_self).append (ih fun y hy => h y (List.mem_cons_of_mem _ hy))

/-- Lists joined by an inert separator. -/
theorem intercalate {sep : List Char} (hsep : Inert sep) :
    ∀ {ls : List (List Char)}, (∀ l ∈ ls, Inert l) → Inert (sep.intercalate ls)
  | [], _ => nil
  | [l], h => by simpa using h l List.mem_cons_self
  | l :: l' :: ls, h => by
    rw [List.intercalate_cons_cons]
    exact ((h l List.mem_cons_self).append hsep).append
      (intercalate hsep fun x hx => h x (List.mem_cons_of_mem _ hx))

/-- Text that escaping keeps as it is holds none of the five characters. -/
theorem of_plain {cs : List Char} (h : ∀ c ∈ cs, entity? c = none) : Inert cs := by
  refine ⟨fun c hc => ?_, fun i hi => ?_⟩
  · have hn := h c hc
    refine ⟨?_, ?_, ?_, ?_⟩ <;> (rintro rfl; simp [entity?] at hn)
  · have hn := h '&' (List.mem_of_getElem? hi)
    simp [entity?] at hn

theorem of_needsEscape {s : String} (h : needsEscape s = false) : Inert s.toList :=
  of_plain ((needsEscape_eq_false_iff s).1 h)

/-- An entity is `&` followed by characters that escaping keeps. -/
theorem exists_toList_of_mem_entities {e : String} (he : e ∈ entities) :
    ∃ rest, e.toList = '&' :: rest ∧ ∀ c ∈ rest, entity? c = none := by
  simp only [entities, List.mem_cons, List.not_mem_nil, or_false] at he
  have plain : ∀ rest : String, needsEscape rest = false → ∀ c ∈ rest.toList, entity? c = none :=
    fun rest => (needsEscape_eq_false_iff rest).1
  rcases he with rfl | rfl | rfl | rfl | rfl
  · exact ⟨"quot;".toList, rfl, plain _ (by decide)⟩
  · exact ⟨"amp;".toList, rfl, plain _ (by decide)⟩
  · exact ⟨"#x27;".toList, rfl, plain _ (by decide)⟩
  · exact ⟨"lt;".toList, rfl, plain _ (by decide)⟩
  · exact ⟨"gt;".toList, rfl, plain _ (by decide)⟩

theorem of_mem_entities {e : String} (he : e ∈ entities) : Inert e.toList := by
  obtain ⟨rest, hcs, hrest⟩ := exists_toList_of_mem_entities he
  have hplain := of_plain hrest
  refine ⟨fun c hc => ?_, fun i hi => ?_⟩
  · rw [hcs] at hc
    rcases List.mem_cons.1 hc with rfl | hc
    · decide
    · exact hplain.no_markup c hc
  · -- the only `&` of an entity is its first character
    cases i with
    | zero => exact ⟨e, he, by simp⟩
    | succ i =>
      rw [hcs, List.getElem?_cons_succ] at hi
      have hn := hrest '&' (List.mem_of_getElem? hi)
      simp [entity?] at hn

end Inert

theorem inert_escapedChars (c : Char) : Inert (escapedChars c) := by
  cases h : entity? c with
  | none =>
    rw [escapedChars, h]
    exact Inert.of_plain (by simpa [String.toList_singleton] using h)
  | some e =>
    rw [escapedChars, h]
    refine Inert.of_mem_entities ?_
    unfold entity? at h
    split at h <;> cases h <;> simp [entities]

/-- Escaped text cannot carry markup. -/
theorem inert_escapeHtml (s : String) : Inert (escapeHtml s).toList := by
  rw [toList_escapeHtml]
  exact Inert.flatMap fun c _ => inert_escapedChars c

@[simp] theorem needsEscape_append (a b : String) :
    needsEscape (a ++ b) = (needsEscape a || needsEscape b) := by
  simp [needsEscape, List.any_append]

theorem needsEscape_ofList {cs : List Char} :
    needsEscape (String.ofList cs) = false ↔ ∀ c ∈ cs, entity? c = none := by
  rw [needsEscape_eq_false_iff, String.toList_ofList]

theorem entity?_eq_none_of_isDigit {c : Char} (h : c.isDigit = true) : entity? c = none := by
  unfold entity?
  split <;> simp_all [Char.isDigit]

theorem entity?_of_mem_toDigits {n : Nat} {c : Char} (h : c ∈ Nat.toDigits 10 n) :
    entity? c = none :=
  entity?_eq_none_of_isDigit (Nat.isDigit_of_mem_toDigits (by decide) (by decide) h)

theorem needsEscape_repr (n : Nat) : needsEscape n.repr = false := by
  rw [needsEscape_eq_false_iff, Nat.toList_repr]
  exact fun c hc => entity?_of_mem_toDigits hc

theorem needsEscape_toString_int (n : Int) : needsEscape (toString n) = false := by
  show needsEscape n.repr = false
  cases n with
  | ofNat m => exact needsEscape_repr m
  | negSucc m =>
    rw [Int.repr, needsEscape_append, needsEscape_repr]
    rfl

end Text

namespace Number

open HtmlTemplates.Text

/-- The characters of a positional or scientific layout of decimal digits: the digits, zeros,
the point, `e` and the sign of the exponent. -/
theorem needsEscape_layout (nt : Notation) {ds : List Char} (hds : ∀ c ∈ ds, entity? c = none)
    (exp : Int) : needsEscape (nt.layout ds exp) = false := by
  have hzeros : ∀ n, ∀ c ∈ zeros n, entity? c = none := by
    intro n c hc
    simp only [zeros, List.mem_replicate] at hc
    rw [hc.2]
    rfl
  unfold Notation.layout
  dsimp only
  split
  · split
    · -- an integer: the digits, zeros, and `.0` if the notation writes it
      rw [needsEscape_ofList, List.forall_mem_append, List.forall_mem_append]
      refine ⟨⟨hds, hzeros _⟩, ?_⟩
      split <;> simp [entity?]
    · split
      · -- the point inside the digits
        rw [needsEscape_ofList, List.forall_mem_append, List.forall_mem_cons]
        exact ⟨fun c hc => hds c (List.mem_of_mem_take hc), rfl,
          fun c hc => hds c (List.mem_of_mem_drop hc)⟩
      · -- `0.`, zeros, then the digits
        simp only [needsEscape_ofList, List.forall_mem_append, List.forall_mem_cons]
        exact ⟨⟨rfl, rfl, hzeros _⟩, hds⟩
  · -- scientific form: the digits with a point after the first, `e`, a sign and the exponent
    simp only [needsEscape_append, Bool.or_eq_false_iff]
    refine ⟨⟨⟨?_, rfl⟩, ?_⟩, needsEscape_repr _⟩
    · rw [needsEscape_ofList]
      split
      · simp only [List.forall_mem_cons] at hds ⊢
        exact ⟨hds.1, rfl, hds.2⟩
      · exact hds
    · split
      · rfl
      · split <;> rfl

/-- A double is written with characters that escaping keeps, when the words for NaN and
infinity are. -/
theorem needsEscape_format (nt : Notation) (hnan : needsEscape nt.nan = false)
    (hinf : needsEscape nt.infinity = false) (x : Float) :
    needsEscape (nt.format x) = false := by
  have hsign : ∀ b : Bool, needsEscape (if b then "-" else "") = false := by
    intro b
    cases b <;> rfl
  unfold Notation.format
  dsimp only
  split
  · split
    · rw [needsEscape_append, hsign, hinf]
      rfl
    · exact hnan
  · split
    · rw [needsEscape_append, hsign]
      split <;> rfl
    · rw [needsEscape_append, hsign, needsEscape_layout _ fun c hc => entity?_of_mem_toDigits hc]
      rfl

end Number

namespace Value

open HtmlTemplates.Text

/-- Values that hold no markup and no object at any depth of lists: null, booleans, numbers,
text, and lists of such values. -/
inductive MarkupFree : Value → Prop
  | null : MarkupFree .null
  | bool (b : Bool) : MarkupFree (.bool b)
  | int (n : Int64) : MarkupFree (.int n)
  | float (x : Float) : MarkupFree (.float x)
  | str (s : String) : MarkupFree (.str s)
  | list {items : List Value} (h : ∀ v ∈ items, MarkupFree v) : MarkupFree (.list items)

theorem nodeTexts_inert {vs : List Value}
    (h : ∀ v ∈ vs, ∃ s, v.nodeText = .ok s ∧ Inert s.toList) :
    ∃ s, nodeTexts vs = .ok s ∧ Inert s.toList := by
  induction vs with
  | nil => exact ⟨"", rfl, Inert.nil⟩
  | cons v vs ih =>
    obtain ⟨a, ha, hia⟩ := h v List.mem_cons_self
    obtain ⟨b, hb, hib⟩ := ih fun w hw => h w (List.mem_cons_of_mem _ hw)
    refine ⟨a ++ b, ?_, ?_⟩
    · rw [nodeTexts, ha, hb]
      rfl
    · rw [String.toList_append]
      exact hia.append hib

/-- In content and in names, such a value is written, without failing, as inert text. -/
theorem nodeText_inert {v : Value} (hv : v.MarkupFree) :
    ∃ s, v.nodeText = .ok s ∧ Inert s.toList := by
  induction hv with
  | null => exact ⟨"", rfl, Inert.nil⟩
  | bool b => cases b <;> exact ⟨_, rfl, Inert.of_needsEscape (by decide)⟩
  | int n => exact ⟨_, rfl, Inert.of_needsEscape (needsEscape_toString_int _)⟩
  | float x =>
    exact ⟨_, rfl, Inert.of_needsEscape
      (Number.needsEscape_format _ (by decide) (by decide) x)⟩
  | str s => exact ⟨_, rfl, inert_escapeHtml s⟩
  | list _ ih =>
    rw [nodeText]
    exact nodeTexts_inert ih

theorem mapM_nodeText_inert {vs : List Value} (h : ∀ v ∈ vs, v.MarkupFree) :
    ∃ texts, vs.mapM nodeText = .ok texts ∧ ∀ s ∈ texts, Inert s.toList := by
  induction vs with
  | nil => exact ⟨[], rfl, by simp⟩
  | cons v vs ih =>
    obtain ⟨a, ha, hia⟩ := nodeText_inert (h v List.mem_cons_self)
    obtain ⟨texts, hts, hall⟩ := ih fun w hw => h w (List.mem_cons_of_mem _ hw)
    refine ⟨a :: texts, ?_, ?_⟩
    · rw [List.mapM_cons, ha, hts]
      rfl
    · intro s hs
      rcases List.mem_cons.1 hs with rfl | hs
      · exact hia
      · exact hall s hs

/-- In an attribute value, such a value is left out or written, without failing, as inert
text; the items of a list are joined by commas. -/
theorem attrValueText_inert {v : Value} (hv : v.MarkupFree) :
    ∃ o, v.attrValueText = .ok o ∧ ∀ s ∈ o, Inert s.toList := by
  cases hv with
  | null => exact ⟨none, rfl, by simp⟩
  | bool b =>
    cases b
    · exact ⟨none, rfl, by simp⟩
    · exact ⟨some "true", rfl, fun s hs => by cases hs; exact Inert.of_needsEscape (by decide)⟩
  | str s => exact ⟨some _, rfl, fun t ht => by cases ht; exact inert_escapeHtml s⟩
  | list h =>
    obtain ⟨texts, hts, hall⟩ := mapM_nodeText_inert h
    refine ⟨some (",".intercalate texts), ?_, fun s hs => ?_⟩
    · rw [attrValueText, hts]
      rfl
    · cases hs
      rw [String.toList_intercalate]
      refine Inert.intercalate (Inert.of_needsEscape (by decide)) fun l hl => ?_
      obtain ⟨t, ht, rfl⟩ := List.mem_map.1 hl
      exact hall t ht
  | int n =>
    obtain ⟨s, hs, hi⟩ := nodeText_inert (.int n)
    exact ⟨some s, by show (Value.int n).nodeText.map some = _; rw [hs]; rfl,
      fun t ht => by cases ht; exact hi⟩
  | float x =>
    obtain ⟨s, hs, hi⟩ := nodeText_inert (.float x)
    exact ⟨some s, by show (Value.float x).nodeText.map some = _; rw [hs]; rfl,
      fun t ht => by cases ht; exact hi⟩

end Value

end HtmlTemplates
