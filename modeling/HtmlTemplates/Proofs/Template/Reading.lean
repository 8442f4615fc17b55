import Mathlib
import HtmlTemplates.Proofs.Template.TagText
/-!
Reading a tag token by token, with its rebuilt text in step with its source.

`TagSpelled prev q t ts s` says that the tag `t`, read up to a token of state `prev` with the
scanner going on in `q`, has taken the texts `ts` and spells `s`: its source text with the texts
at its slots. Without slots its source text is `s`. Its rebuilt text is `s` followed by the
closing quote of the value being read, if any (`LexState.openQuote`). And it has the shape
the next token of state `q` needs (`TagShape`): the field that token extends is the last the
rebuilt text shows. Each token the tag takes, and each value put in one of its slots, keeps
this (`TagSpelled.tagName` to `TagSpelled.valueSlot`).
-/
namespace HtmlTemplates

open HtmlTemplates.Markup

namespace Markup.LexState

/-- The quote of the value a state reads. -/
def quote : LexState → Quote
  | attributeValueDoubleQuoted => .double
  | attributeValueSingleQuoted => .single
  | _ => .unquoted

/-- The quote left open after a token of state `prev`, the scanner going on in `q`: that of the
value being read, which after the blanks before a value is the one `q` reads. -/
def openQuote (prev q : LexState) : Quote :=
  if prev = beforeAttributeValue then q.quote else prev.quote

/-- The scanner reads on in `q` after a token of state `prev`: `q` follows `prev`, or a literal
ended in the live state `prev` and the next one resumes there. -/
def Follows (prev q : LexState) : Prop :=
  q ∈ prev.successors ∨ q = prev ∧ prev.isLive = true

theorem Follows.of_mem {l n : LexState} (h : n ∈ l.successors) : Follows l n := Or.inl h

theorem Follows.resume {q : LexState} (h : q.isLive = true) : Follows q q := Or.inr ⟨rfl, h⟩

theorem openQuote_eq_unquoted {prev q : LexState} (hf : Follows prev q) (hq : q.quote = .unquoted)
    (hclose : q ≠ afterAttributeValueQuoted) (hend : q ≠ atEnd) : openQuote prev q = .unquoted := by
  unfold openQuote
  split
  · exact hq
  · rcases hf with h | ⟨rfl, -⟩
    · cases prev <;> simp_all [successors, quote]
    · exact hq

theorem openQuote_of_quoted {prev q : LexState} (hf : Follows prev q)
    (hq : q = attributeValueDoubleQuoted ∨ q = attributeValueSingleQuoted) :
    openQuote prev q = q.quote := by
  unfold openQuote
  split
  · rfl
  · rcases hf with h | ⟨rfl, -⟩
    · rcases hq with rfl | rfl <;> cases prev <;> simp_all [successors]
    · rfl

theorem openQuote_of_after {prev q : LexState} (hf : Follows prev q)
    (hq : q = afterAttributeValueQuoted ∨ q = atEnd) : openQuote prev q = prev.quote := by
  unfold openQuote
  by_cases h : prev = beforeAttributeValue
  · subst h
    rcases hq with rfl | rfl <;> rcases hf with h | ⟨h, h'⟩ <;> simp_all [successors]
  · rw [if_neg h]

end Markup.LexState

namespace TagPart

/-- The last attribute exists and satisfies `p`. -/
def LastAttribute (t : TagPart) (p : Attribute → Prop) : Prop :=
  ∃ a, t.attributes.getLast? = some a ∧ p a

/-- The tag reads a value after `=`, quoted with `q`, and was not closed by `/`. -/
def ReadsValue (t : TagPart) (q : Quote) : Prop :=
  t.selfClosing = false ∧ t.LastAttribute fun a => a.afterName ≠ "" ∧ a.quote = q

end TagPart

open TagPart in
/-- What the tag being read must look like for the scanner to read on in `q` after a token of
state `prev`: the field the next token or value extends is the last the rebuilt text shows. -/
def TagShape : LexState → LexState → TagPart → Prop
  | _, .tagName, t => t.attributes = [] ∧ t.selfClosing = false
  | _, .attributeName, t | _, .afterAttributeName, t =>
    t.selfClosing = false ∧ t.LastAttribute (·.afterName = "")
  | _, .beforeAttributeValue, t =>
    t.selfClosing = false ∧
      t.LastAttribute fun a => a.afterName ≠ "" ∧ a.value = [] ∧ a.quote = .unquoted
  | _, .attributeValueDoubleQuoted, t => t.ReadsValue .double
  | _, .attributeValueSingleQuoted, t => t.ReadsValue .single
  | _, .attributeValueUnquoted, t => t.ReadsValue .unquoted
  | prev, .afterAttributeValueQuoted, t => t.ReadsValue prev.quote
  | _, .selfClosingStartTag, t => t.selfClosing = false
  | _, .beforeAttributeName, _ | _, .tagClose, _ => True
  | _, .illegal, t => t.slots = 0
  | .tagName, .atEnd, t => t.attributes = [] ∧ t.selfClosing = false
  | .beforeAttributeName, .atEnd, t | .attributeName, .atEnd, t =>
    t.selfClosing = false ∧ t.LastAttribute (·.afterName = "")
  | .attributeValueDoubleQuoted, .atEnd, t => t.ReadsValue .double
  | .attributeValueSingleQuoted, .atEnd, t => t.ReadsValue .single
  | .attributeValueUnquoted, .atEnd, t => t.ReadsValue .unquoted
  | _, _, _ => False

/-- The tag `t`, read up to a token of state `prev` with the scanner going on in `q`, has taken
the texts `ts` and spells `s`. -/
structure TagSpelled (prev q : LexState) (t : TagPart) (ts : List String) (s : String) : Prop where
  count : ts.length = t.slots
  raw : t.slots = 0 → t.raw = s
  rebuild : t.rebuild ts = s ++ (LexState.openQuote prev q).text
  unfinished : t.Unfinished
  shape : TagShape prev q t

theorem Attribute.quote_pushBeforeValue {a : Attribute} (ha : a.quote = .unquoted) {text : String}
    {n : LexState} (hn : n ∈ LexState.beforeAttributeValue.successors)
    (hfit : (n = .attributeValueDoubleQuoted ↔ text.toList.getLast? = some '"') ∧
      (n = .attributeValueSingleQuoted ↔ text.toList.getLast? = some '\'')) :
    (a.pushBeforeValue text).quote = n.quote := by
  simp only [LexState.successors, List.mem_cons, List.not_mem_nil, or_false] at hn
  unfold Attribute.pushBeforeValue
  split
  · rename_i h
    rw [hfit.1.2 h]
    rfl
  · rename_i h
    rw [hfit.2.2 h]
    rfl
  · rename_i h₁ h₂
    have h₁' : n ≠ .attributeValueDoubleQuoted := fun h => h₁ (hfit.1.1 h)
    have h₂' : n ≠ .attributeValueSingleQuoted := fun h => h₂ (hfit.2.1 h)
    rcases hn with rfl | rfl | rfl | rfl <;> simp_all [LexState.quote]

namespace TagSpelled

open LexState TagPart

variable {prev q : LexState} {t : TagPart} {ts : List String} {s : String}

theorem count_tagToken (h : TagSpelled prev q t ts s) (l : LexState) (text : String) :
    ts.length = (Template.Builder.tagToken l text t).slots := by
  rw [TagPart.slots_tagToken]
  exact h.count

theorem raw_tagToken (h : TagSpelled prev q t ts s) (l : LexState) (text : String) :
    (Template.Builder.tagToken l text t).slots = 0 →
      (Template.Builder.tagToken l text t).raw = s ++ text := by
  rw [TagPart.slots_tagToken, TagPart.raw_tagToken]
  intro h0
  rw [h.raw h0]

/-- The rebuilt text of the tag, when the next token changes its last attribute: the
attribute's closing quote is the one left open. -/
theorem rebuild_last (h : TagSpelled prev q t ts s) {a : Attribute}
    (ha : a.quote = openQuote prev q) : t.rebuild ts = s ++ a.quote.text := by
  rw [h.rebuild, ha]

theorem tagName (h : TagSpelled prev .tagName t ts s) (hf : Follows prev .tagName)
    {n : LexState} (hn : n ∈ LexState.tagName.successors) (text : String) :
    TagSpelled .tagName n (Template.Builder.tagToken .tagName text t) ts (s ++ text) := by
  obtain ⟨hattrs, hsc⟩ : t.attributes = [] ∧ t.selfClosing = false := h.shape
  have hq := openQuote_eq_unquoted hf rfl (by decide) (by decide)
  refine ⟨h.count_tagToken _ _, h.raw_tagToken _ _, ?_, (h.unfinished.pushRaw text).pushName text,
    ?_⟩
  · show ((t.pushRaw text).pushName text).rebuild ts = _
    rw [rebuild_pushName (t := t.pushRaw text) hattrs (h.unfinished.pushRaw text) hsc,
      rebuild_pushRaw, h.rebuild, hq]
    simp [openQuote, quote, Quote.text]
  · simp only [successors, List.mem_cons, List.not_mem_nil, or_false] at hn
    rcases hn with rfl | rfl | rfl | rfl <;>
      simp [TagShape, Template.Builder.tagToken, pushName, pushRaw, hattrs, hsc]

theorem beforeAttributeName (h : TagSpelled prev q t ts s) (hf : Follows prev q)
    (hq : q = .beforeAttributeName ∨ q = .afterAttributeName) {n : LexState}
    (hn : n ∈ LexState.beforeAttributeName.successors) (text : String) :
    TagSpelled .beforeAttributeName n (Template.Builder.tagToken .beforeAttributeName text t) ts
      (s ++ text) := by
  have hq' : openQuote prev q = .unquoted := by
    rcases hq with rfl | rfl <;> exact openQuote_eq_unquoted hf rfl (by decide) (by decide)
  obtain ⟨hsc, a, hlast, ha⟩ := startAttribute_last (t.pushRaw text) text
  refine ⟨h.count_tagToken _ _, h.raw_tagToken _ _, ?_,
    (h.unfinished.pushRaw text).startAttribute text, ?_⟩
  · show ((t.pushRaw text).startAttribute text).rebuild ts = _
    rw [rebuild_startAttribute (h.unfinished.pushRaw text), rebuild_pushRaw, h.rebuild, hq']
    simp [openQuote, quote, Quote.text]
  · simp only [successors, List.mem_cons, List.not_mem_nil, or_false] at hn
    rcases hn with rfl | rfl | rfl | rfl
    · exact hsc
    · trivial
    · exact ⟨hsc, a, hlast, ha⟩
    · exact ⟨hsc, a, hlast, ha⟩

theorem attributeName (h : TagSpelled prev .attributeName t ts s)
    (hf : Follows prev .attributeName) {n : LexState} (hn : n ∈ LexState.attributeName.successors)
    (text : String) :
    TagSpelled .attributeName n (Template.Builder.tagToken .attributeName text t) ts (s ++ text) := by
  obtain ⟨hsc, a, hlast, ha⟩ := h.shape
  have ho : a.Ordered := h.unfinished.ordered a (List.mem_of_getLast? hlast)
  have hquote : a.quote = openQuote prev .attributeName := by
    rw [(ho ha).2.2, openQuote_eq_unquoted hf rfl (by decide) (by decide)]
  have hrebuild := rebuild_updateCurrent_of (t := t.pushRaw text) (f := (·.pushName text)) []
    hlast (h.unfinished.pushRaw text) hsc h.count (by simp)
    (fun Y _ => by rw [List.append_nil]; exact Attribute.body_pushName ha ho text)
    (h.rebuild_last hquote)
  refine ⟨h.count_tagToken _ _, h.raw_tagToken _ _, ?_,
    (h.unfinished.pushRaw text).updateCurrent hlast ho, ?_⟩
  · rw [List.append_nil] at hrebuild
    rw [Template.Builder.tagToken, hrebuild]
    simp [Attribute.pushName, (ho ha).2.2, openQuote, quote]
  · have hsc' : ((t.pushRaw text).updateCurrent (·.pushName text)).selfClosing = false := by
      rw [selfClosing_updateCurrent]
      exact hsc
    have hlast' := lastAttribute_updateCurrent (t := t.pushRaw text) (f := (·.pushName text))
      (p := (·.afterName = "")) hlast ha
    simp only [successors, List.mem_cons, List.not_mem_nil, or_false] at hn
    rcases hn with rfl | rfl | rfl | rfl
    · exact hsc'
    · trivial
    · exact ⟨hsc', hlast'⟩
    · exact ⟨hsc', hlast'⟩

theorem afterAttributeName (h : TagSpelled prev .afterAttributeName t ts s)
    (hf : Follows prev .afterAttributeName) {text : String} (htext : text ≠ "") :
    TagSpelled .afterAttributeName .beforeAttributeValue
      (Template.Builder.tagToken .afterAttributeName text t) ts (s ++ text) := by
  obtain ⟨hsc, a, hlast, ha⟩ := h.shape
  have ho : a.Ordered := h.unfinished.ordered a (List.mem_of_getLast? hlast)
  have hquote : a.quote = openQuote prev .afterAttributeName := by
    rw [(ho ha).2.2, openQuote_eq_unquoted hf rfl (by decide) (by decide)]
  have hafter : (a.pushAfterName text).afterName ≠ "" := by
    simp [Attribute.pushAfterName, ha, htext]
  have hrebuild := rebuild_updateCurrent_of (t := t.pushRaw text) (f := (·.pushAfterName text)) []
    hlast (h.unfinished.pushRaw text) hsc h.count (by simp)
    (fun Y _ => by rw [List.append_nil]; exact Attribute.body_pushAfterName ha ho text)
    (h.rebuild_last hquote)
  refine ⟨h.count_tagToken _ _, h.raw_tagToken _ _, ?_,
    (h.unfinished.pushRaw text).updateCurrent hlast (Attribute.ordered_of_afterName_ne hafter), ?_⟩
  · rw [List.append_nil] at hrebuild
    rw [Template.Builder.tagToken, hrebuild]
    simp [Attribute.pushAfterName, (ho ha).2.2, openQuote, quote]
  · have hsc' : ((t.pushRaw text).updateCurrent (·.pushAfterName text)).selfClosing = false := by
      rw [selfClosing_updateCurrent]
      exact hsc
    exact ⟨hsc', lastAttribute_updateCurrent (t := t.pushRaw text) (f := (·.pushAfterName text))
      hlast ⟨hafter, (ho ha).2.1, (ho ha).2.2⟩⟩

theorem beforeAttributeValue (h : TagSpelled prev .beforeAttributeValue t ts s)
    (hf : Follows prev .beforeAttributeValue) {text : String} {n : LexState}
    (hn : n ∈ LexState.beforeAttributeValue.successors)
    (hfit : (n = .attributeValueDoubleQuoted ↔ text.toList.getLast? = some '"') ∧
      (n = .attributeValueSingleQuoted ↔ text.toList.getLast? = some '\'')) :
    TagSpelled .beforeAttributeValue n (Template.Builder.tagToken .beforeAttributeValue text t) ts
      (s ++ text) := by
  obtain ⟨hsc, a, hlast, hafter, hvalue, hunq⟩ := h.shape
  have hquote : a.quote = openQuote prev .beforeAttributeValue := by
    rw [hunq, openQuote_eq_unquoted hf rfl (by decide) (by decide)]
  have hquote' := Attribute.quote_pushBeforeValue hunq hn hfit
  have hrebuild := rebuild_updateCurrent_of (t := t.pushRaw text) (f := (·.pushBeforeValue text))
    [] hlast (h.unfinished.pushRaw text) hsc h.count (by simp)
    (fun Y _ => by rw [List.append_nil]; exact Attribute.body_pushBeforeValue hvalue text)
    (h.rebuild_last hquote)
  refine ⟨h.count_tagToken _ _, h.raw_tagToken _ _, ?_,
    (h.unfinished.pushRaw text).updateCurrent hlast (Attribute.ordered_of_afterName_ne hafter), ?_⟩
  · rw [List.append_nil] at hrebuild
    rw [Template.Builder.tagToken, hrebuild, hquote']
    simp [openQuote]
  · have hsc' : ((t.pushRaw text).updateCurrent (·.pushBeforeValue text)).selfClosing = false := by
      rw [selfClosing_updateCurrent]
      exact hsc
    have hlast' := lastAttribute_updateCurrent (t := t.pushRaw text) (f := (·.pushBeforeValue text))
      (p := fun b => b.afterName ≠ "" ∧ b.quote = n.quote) hlast ⟨hafter, hquote'⟩
    simp only [successors, List.mem_cons, List.not_mem_nil, or_false] at hn
    rcases hn with rfl | rfl | rfl | rfl
    · exact ⟨hsc', hlast'⟩
    · exact ⟨hsc', hlast'⟩
    · trivial
    · exact ⟨hsc', hlast'⟩

theorem tagToken_quoted {l : LexState}
    (hl : l = .attributeValueDoubleQuoted ∨ l = .attributeValueSingleQuoted) (text : String) :
    Template.Builder.tagToken l text t =
      (t.pushRaw text).updateCurrent fun a => (a.setQuote l.quote).pushValue text := by
  rcases hl with rfl | rfl <;> rfl

theorem shape_quoted {prev l : LexState}
    (hl : l = .attributeValueDoubleQuoted ∨ l = .attributeValueSingleQuoted) :
    TagShape prev l t ↔ t.ReadsValue l.quote := by
  rcases hl with rfl | rfl <;> rfl

theorem quotedValue {l : LexState} (h : TagSpelled prev l t ts s) (hf : Follows prev l)
    (hl : l = .attributeValueDoubleQuoted ∨ l = .attributeValueSingleQuoted) {n : LexState}
    (hn : n ∈ l.successors) (text : String) :
    TagSpelled l n (Template.Builder.tagToken l text t) ts (s ++ text) := by
  obtain ⟨hsc, a, hlast, hafter, hq⟩ := (shape_quoted hl).1 h.shape
  have hquote : a.quote = openQuote prev l := by rw [hq, openQuote_of_quoted hf hl]
  let f : Attribute → Attribute := fun a => (a.setQuote l.quote).pushValue text
  have hrebuild := rebuild_updateCurrent_of (t := t.pushRaw text) (f := f) [] hlast
    (h.unfinished.pushRaw text) hsc h.count (by simp [f])
    (fun Y _ => by rw [List.append_nil]; exact Attribute.body_pushValue text)
    (h.rebuild_last hquote)
  have hne : l ≠ .beforeAttributeValue := by rcases hl with rfl | rfl <;> decide
  have hcount := h.count_tagToken l text
  have hraw := h.raw_tagToken l text
  rw [tagToken_quoted hl] at hcount hraw ⊢
  refine ⟨hcount, hraw, ?_, (h.unfinished.pushRaw text).updateCurrent hlast
    (Attribute.ordered_of_afterName_ne (show (f a).afterName ≠ "" from hafter)), ?_⟩
  · rw [List.append_nil] at hrebuild
    rw [hrebuild]
    simp [f, Attribute.pushValue, Attribute.setQuote, openQuote, hne]
  · have hsc' : ((t.pushRaw text).updateCurrent f).selfClosing = false := by
      rw [selfClosing_updateCurrent]
      exact hsc
    have hlast' := lastAttribute_updateCurrent (t := t.pushRaw text) (f := f)
      (p := fun b => b.afterName ≠ "" ∧ b.quote = l.quote) hlast ⟨hafter, rfl⟩
    rcases hl with rfl | rfl <;>
      simp only [successors, List.mem_cons, List.not_mem_nil, or_false] at hn <;>
      rcases hn with rfl | rfl <;> exact ⟨hsc', hlast'⟩

theorem unquotedValue (h : TagSpelled prev .attributeValueUnquoted t ts s)
    (hf : Follows prev .attributeValueUnquoted) {n : LexState}
    (hn : n ∈ LexState.attributeValueUnquoted.successors) (text : String) :
    TagSpelled .attributeValueUnquoted n (Template.Builder.tagToken .attributeValueUnquoted text t)
      ts (s ++ text) := by
  obtain ⟨hsc, a, hlast, hafter, hq⟩ := h.shape
  have hquote : a.quote = openQuote prev .attributeValueUnquoted := by
    rw [hq, openQuote_eq_unquoted hf rfl (by decide) (by decide)]
  have hrebuild := rebuild_updateCurrent_of (t := t.pushRaw text) (f := (·.pushValue text)) []
    hlast (h.unfinished.pushRaw text) hsc h.count (by simp)
    (fun Y _ => by rw [List.append_nil]; exact Attribute.body_pushValue text)
    (h.rebuild_last hquote)
  refine ⟨h.count_tagToken _ _, h.raw_tagToken _ _, ?_,
    (h.unfinished.pushRaw text).updateCurrent hlast (Attribute.ordered_of_afterName_ne hafter), ?_⟩
  · rw [List.append_nil] at hrebuild
    rw [Template.Builder.tagToken, hrebuild]
    simp [Attribute.pushValue, hq, openQuote, quote]
  · have hsc' : ((t.pushRaw text).updateCurrent (·.pushValue text)).selfClosing = false := by
      rw [selfClosing_updateCurrent]
      exact hsc
    have hlast' := lastAttribute_updateCurrent (t := t.pushRaw text) (f := (·.pushValue text))
      (p := fun b => b.afterName ≠ "" ∧ b.quote = .unquoted) hlast ⟨hafter, hq⟩
    simp only [successors, List.mem_cons, List.not_mem_nil, or_false] at hn
    rcases hn with rfl | rfl | rfl
    · trivial
    · trivial
    · exact ⟨hsc', hlast'⟩

theorem afterQuotedValue (h : TagSpelled prev .afterAttributeValueQuoted t ts s)
    (hf : Follows prev .afterAttributeValueQuoted) {text : String}
    (htext : prev = .attributeValueDoubleQuoted ∧ text = "\"" ∨
      prev = .attributeValueSingleQuoted ∧ text = "'")
    {n : LexState} (hn : n ∈ LexState.afterAttributeValueQuoted.successors) :
    TagSpelled .afterAttributeValueQuoted n
      (Template.Builder.tagToken .afterAttributeValueQuoted text t) ts (s ++ text) := by
  obtain ⟨hsc, -⟩ := h.shape
  have hq := openQuote_of_after hf (Or.inl rfl)
  refine ⟨h.count_tagToken _ _, h.raw_tagToken _ _, ?_, h.unfinished.pushRaw text, ?_⟩
  · show (t.pushRaw text).rebuild ts = _
    rw [rebuild_pushRaw, h.rebuild, hq]
    rcases htext with ⟨rfl, rfl⟩ | ⟨rfl, rfl⟩ <;> simp [openQuote, quote, Quote.text]
  · simp only [successors, List.mem_cons, List.not_mem_nil, or_false] at hn
    rcases hn with rfl | rfl | rfl
    · exact hsc
    · trivial
    · trivial

theorem selfClosingStartTag (h : TagSpelled prev .selfClosingStartTag t ts s)
    (hf : Follows prev .selfClosingStartTag) {text : String} (htext : text = "/") {n : LexState}
    (hn : n ∈ LexState.selfClosingStartTag.successors) :
    TagSpelled .selfClosingStartTag n (Template.Builder.tagToken .selfClosingStartTag text t) ts
      (s ++ text) := by
  have hsc : t.selfClosing = false := h.shape
  have hq := openQuote_eq_unquoted hf rfl (by decide) (by decide)
  refine ⟨h.count_tagToken _ _, h.raw_tagToken _ _, ?_,
    (h.unfinished.pushRaw text).setSelfClosing true, ?_⟩
  · show ((t.pushRaw text).setSelfClosing true).rebuild ts = _
    rw [rebuild_setSelfClosing (h.unfinished.pushRaw text) hsc, rebuild_pushRaw, h.rebuild, hq, htext]
    simp [openQuote, quote, Quote.text]
  · simp only [successors, List.mem_cons, List.not_mem_nil, or_false] at hn
    rcases hn with rfl | rfl <;> trivial

theorem tagNameSlot (h : TagSpelled .tagName .atEnd t ts s) (v : String) :
    TagSpelled .tagName .tagName t.addNameSlot (ts ++ [v]) (s ++ v) := by
  obtain ⟨hattrs, hsc⟩ : t.attributes = [] ∧ t.selfClosing = false := h.shape
  refine ⟨by simp [h.count], fun h0 => by simp at h0, ?_, h.unfinished.addNameSlot, hattrs, hsc⟩
  rw [rebuild_addNameSlot hattrs h.unfinished hsc h.count, h.rebuild]
  simp [openQuote, quote, Quote.text]

theorem nameSlot {l : LexState} (hl : l = .beforeAttributeName ∨ l = .attributeName)
    (h : TagSpelled l .atEnd t ts s) (v : String) :
    TagSpelled l l (t.updateCurrent (·.addNameSlot)) (ts ++ [v]) (s ++ v) := by
  obtain ⟨hsc, a, hlast, ha⟩ : t.selfClosing = false ∧ t.LastAttribute (·.afterName = "") := by
    rcases hl with rfl | rfl <;> exact h.shape
  have ho : a.Ordered := h.unfinished.ordered a (List.mem_of_getLast? hlast)
  have hunq : openQuote l l = .unquoted := by rcases hl with rfl | rfl <;> rfl
  have hquote : a.quote = openQuote l .atEnd := by
    rw [(ho ha).2.2]
    rcases hl with rfl | rfl <;> rfl
  have hrebuild := rebuild_updateCurrent_of (f := (·.addNameSlot)) [v] hlast h.unfinished hsc
    h.count (by simp) (fun Y hY => Attribute.body_addNameSlot ha ho hY v) (h.rebuild_last hquote)
  have hslots : (t.updateCurrent (·.addNameSlot)).slots = t.slots + 1 :=
    t.slots_updateCurrent fun b => b.slots_addNameSlot
  refine ⟨by simp [hslots, h.count], fun h0 => by simp [hslots] at h0, ?_,
    h.unfinished.updateCurrent hlast ho, ?_⟩
  · rw [hrebuild, hunq]
    simp [Attribute.addNameSlot, (ho ha).2.2]
  · have hsc' : (t.updateCurrent (·.addNameSlot)).selfClosing = false := by
      rw [selfClosing_updateCurrent]
      exact hsc
    rcases hl with rfl | rfl
    · trivial
    · exact ⟨hsc', lastAttribute_updateCurrent hlast ha⟩

theorem shape_value (prev : LexState) {l : LexState} (hl : l = .attributeValueDoubleQuoted ∨
      l = .attributeValueSingleQuoted ∨ l = .attributeValueUnquoted) :
    (TagShape prev l t ↔ t.ReadsValue l.quote) ∧ (TagShape l .atEnd t ↔ t.ReadsValue l.quote) := by
  rcases hl with rfl | rfl | rfl <;> exact ⟨Iff.rfl, Iff.rfl⟩

theorem valueSlot {l : LexState} (hl : l = .attributeValueDoubleQuoted ∨
      l = .attributeValueSingleQuoted ∨ l = .attributeValueUnquoted)
    (h : TagSpelled l .atEnd t ts s) (v : String) :
    TagSpelled l l (t.updateCurrent (·.addValueSlot)) (ts ++ [v]) (s ++ v) := by
  obtain ⟨hsc, a, hlast, hafter, hq⟩ := ((shape_value l hl).2).1 h.shape
  have hne : l ≠ .beforeAttributeValue := by rcases hl with rfl | rfl | rfl <;> decide
  have hquote : a.quote = openQuote l .atEnd := by simp [hq, openQuote, hne]
  have hrebuild := rebuild_updateCurrent_of (f := (·.addValueSlot)) [v] hlast h.unfinished hsc
    h.count (by simp) (fun Y hY => Attribute.body_addValueSlot hY v) (h.rebuild_last hquote)
  have hslots : (t.updateCurrent (·.addValueSlot)).slots = t.slots + 1 :=
    t.slots_updateCurrent fun b => b.slots_addValueSlot
  refine ⟨by simp [hslots, h.count], fun h0 => by simp [hslots] at h0, ?_,
    h.unfinished.updateCurrent hlast (Attribute.ordered_of_afterName_ne (a := a.addValueSlot) hafter),
    ((shape_value l hl).1).2 ⟨?_, lastAttribute_updateCurrent hlast ⟨hafter, hq⟩⟩⟩
  · rw [hrebuild]
    simp [Attribute.addValueSlot, hq, openQuote, hne]
  · rw [selfClosing_updateCurrent]
    exact hsc

end TagSpelled

end HtmlTemplates
