import HtmlTemplates.Proofs.Template.Slots
import HtmlTemplates.Proofs.Markup.Calls
import HtmlTemplates.Template.Render
/-!
Fragment lists in normal form.

The parser builds tag names, attribute names and attribute values as lists of fragments: the
text of a token goes in with `pushText`, and a value with a slot appended. `pushText` drops
empty text and joins text onto a text before it, so every list the parser builds is in normal
form (`Fragment.Normal`): no empty text and no two texts side by side
(`Template.partsOfEvents_normal`). The text of a list, its slots left out, is all the text
pushed onto it (`Fragment.texts_pushText`), so a list in normal form is a lone slot exactly
when one value and only empty text went into it (`Fragment.Normal.eq_slot_iff`). That is
the condition under which an attribute is skipped for a null or false value
(`Attribute.isSkipped_iff_of_normal`). A name has no static text exactly when a value goes
into it (`Fragment.staticText_eq_none_iff`).
-/
namespace HtmlTemplates

open HtmlTemplates.Markup

namespace Fragment

/-- Fragments in normal form: no empty text, and no two texts side by side. -/
structure Normal (fs : List Fragment) : Prop where
  no_empty : Fragment.text "" ∉ fs
  apart : fs.IsChain fun a b => a = .slot ∨ b = .slot

/-- The text of fragments, their slots left out. -/
def texts : List Fragment → String
  | [] => ""
  | .text s :: fs => s ++ texts fs
  | .slot :: fs => texts fs

@[simp] theorem texts_append (fs gs : List Fragment) :
    texts (fs ++ gs) = texts fs ++ texts gs := by
  induction fs with
  | nil => simp [texts]
  | cons f fs ih => cases f <;> simp [texts, ih, String.append_assoc]

/-- The text of fragments is all the text pushed onto them. -/
@[simp] theorem texts_pushText (fs : List Fragment) (s : String) :
    texts (pushText fs s) = texts fs ++ s := by
  unfold pushText
  split
  · rename_i hs
    simp [show s = "" by simpa using hs]
  · split
    · rename_i t h
      obtain ⟨ys, rfl⟩ := List.getLast?_eq_some_iff.1 h
      simp [texts, String.append_assoc]
    · simp [texts]

@[simp] theorem texts_append_slot (fs : List Fragment) : texts (fs ++ [.slot]) = texts fs := by
  simp [texts]

theorem texts_eq_empty_iff {fs : List Fragment} :
    texts fs = "" ↔ ∀ s, Fragment.text s ∈ fs → s = "" := by
  induction fs with
  | nil => simp [texts]
  | cons f fs ih => cases f <;> simp [texts, ih, String.append_eq_empty_iff]

theorem staticText_eq_none_iff (fs : List Fragment) :
    staticText fs = none ↔ Fragment.slot ∈ fs := by
  induction fs with
  | nil => simp [staticText]
  | cons f fs ih => cases f <;> simp [staticText, ih]

theorem normal_nil : Normal [] := ⟨by simp, .nil⟩

theorem Normal.append_slot {fs : List Fragment} (h : Normal fs) : Normal (fs ++ [.slot]) := by
  refine ⟨by simpa using h.no_empty, h.apart.append (.singleton _) fun x _ y hy => ?_⟩
  simp only [List.head?_cons, Option.mem_def, Option.some.injEq] at hy
  exact Or.inr hy.symm

/-- A last text may be replaced by another that is not empty. -/
theorem Normal.concat_text {ys : List Fragment} {t u : String} (h : Normal (ys ++ [.text t]))
    (hu : u ≠ "") : Normal (ys ++ [.text u]) := by
  have hch := List.isChain_append.1 h.apart
  refine ⟨?_, List.isChain_append.2 ⟨hch.1, .singleton _, fun x hx y hy => ?_⟩⟩
  · simp only [List.mem_append, List.mem_singleton, Fragment.text.injEq, not_or]
    exact ⟨fun hm => h.no_empty (List.mem_append_left _ hm), Ne.symm hu⟩
  · simp only [List.head?_cons, Option.mem_def, Option.some.injEq] at hy
    subst hy
    rcases hch.2.2 x hx (.text t) rfl with h' | h'
    · exact Or.inl h'
    · cases h'

theorem Normal.pushText {fs : List Fragment} (h : Normal fs) (s : String) :
    Normal (pushText fs s) := by
  unfold Fragment.pushText
  split
  · exact h
  · rename_i hs
    have hs' : s ≠ "" := fun he => hs (by simp [he])
    split
    · -- the text joins the text before it
      rename_i t hlast
      obtain ⟨ys, rfl⟩ := List.getLast?_eq_some_iff.1 hlast
      rw [List.dropLast_concat]
      exact h.concat_text (by simp [hs'])
    · -- a new text after a slot, or in an empty list
      rename_i hlast
      refine ⟨?_, h.apart.append (.singleton _) fun x hx y hy => ?_⟩
      · simp only [List.mem_append, List.mem_singleton, Fragment.text.injEq, not_or]
        exact ⟨h.no_empty, Ne.symm hs'⟩
      · simp only [List.head?_cons, Option.mem_def, Option.some.injEq] at hy
        subst hy
        cases x with
        | slot => exact Or.inl rfl
        | text u => exact absurd hx (hlast u)

/-- A list in normal form is a lone slot exactly when one value and only empty text went into
it. -/
theorem Normal.eq_slot_iff {fs : List Fragment} (h : Normal fs) :
    fs = [.slot] ↔ countSlots fs = 1 ∧ texts fs = "" := by
  constructor
  · rintro rfl
    exact ⟨rfl, rfl⟩
  · rintro ⟨hcount, htexts⟩
    -- with no empty text, the list holds no text at all
    have hall : ∀ f ∈ fs, f = .slot := by
      intro f hf
      cases f with
      | slot => rfl
      | text s =>
        have hs := texts_eq_empty_iff.1 htexts s hf
        subst hs
        exact absurd hf h.no_empty
    have hlen : fs.length = 1 := by
      rw [← hcount, countSlots, List.countP_eq_length.2 fun f hf => by simp [hall f hf, isSlot]]
    exact List.eq_replicate_iff.2 ⟨hlen, hall⟩

end Fragment

namespace Attribute

/-- The name and the value of an attribute are in normal form. -/
def Normal (a : Attribute) : Prop := Fragment.Normal a.name ∧ Fragment.Normal a.value

theorem normal_ofBeforeName (s : String) : ({ beforeName := s } : Attribute).Normal :=
  ⟨Fragment.normal_nil, Fragment.normal_nil⟩

section Ops
variable {a : Attribute} (h : a.Normal) (s : String)
include h

theorem Normal.pushBeforeName : (a.pushBeforeName s).Normal := h
theorem Normal.pushAfterName : (a.pushAfterName s).Normal := h
theorem Normal.pushBeforeValue : (a.pushBeforeValue s).Normal := h
theorem Normal.setQuote (q : Quote) : (a.setQuote q).Normal := h
theorem Normal.pushName : (a.pushName s).Normal := ⟨h.1.pushText s, h.2⟩
theorem Normal.pushValue : (a.pushValue s).Normal := ⟨h.1, h.2.pushText s⟩
theorem Normal.addNameSlot : a.addNameSlot.Normal := ⟨h.1.append_slot, h.2⟩
theorem Normal.addValueSlot : a.addValueSlot.Normal := ⟨h.1, h.2.append_slot⟩

end Ops

theorem normal_concat {as : List Attribute} (h : ∀ a ∈ as, a.Normal) {a' : Attribute}
    (ha' : a'.Normal) : ∀ a ∈ as ++ [a'], a.Normal := by
  intro a ha
  rcases List.mem_append.1 ha with ha | ha
  · exact h a ha
  · rw [List.mem_singleton.1 ha]
    exact ha'

/-- The last attribute may be replaced by one in normal form. -/
theorem normal_dropLast_concat {as : List Attribute} (h : ∀ a ∈ as, a.Normal) {a' : Attribute}
    (ha' : a'.Normal) : ∀ a ∈ as.dropLast ++ [a'], a.Normal :=
  normal_concat (fun a ha => h a (List.mem_of_mem_dropLast ha)) ha'

/-- With its lists in normal form, an attribute is skipped exactly when its name or its value
took one value and only empty text, and that value is omitted. -/
theorem isSkipped_iff_of_normal {a : Attribute} (h : a.Normal) (vs : List Rendering) :
    a.isSkipped vs = true ↔
      (Fragment.countSlots a.name = 1 ∧ Fragment.texts a.name = "" ∧ omittedAt vs.head? = true) ∨
        (Fragment.countSlots a.value = 1 ∧ Fragment.texts a.value = "" ∧
          omittedAt vs[a.nameSlots]? = true) := by
  simp only [isSkipped, Bool.or_eq_true, Bool.and_eq_true, beq_iff_eq, h.1.eq_slot_iff,
    h.2.eq_slot_iff, and_assoc]

end Attribute

namespace TagPart

/-- The name of a tag and the lists of its attributes are in normal form. -/
def Normal (t : TagPart) : Prop := Fragment.Normal t.name ∧ ∀ a ∈ t.attributes, a.Normal

theorem normal_opened (s : String) : (opened s).Normal :=
  ⟨Fragment.normal_nil, fun a ha => by simp [opened] at ha⟩

theorem normal_default : ({} : TagPart).Normal :=
  ⟨Fragment.normal_nil, fun a ha => by simp at ha⟩

section Ops
variable {t : TagPart} (h : t.Normal) (s : String)
include h

theorem Normal.pushRaw : (t.pushRaw s).Normal := h
theorem Normal.setSelfClosing (b : Bool) : (t.setSelfClosing b).Normal := h
theorem Normal.pushName : (t.pushName s).Normal := ⟨h.1.pushText s, h.2⟩
theorem Normal.addNameSlot : t.addNameSlot.Normal := ⟨h.1.append_slot, h.2⟩

theorem Normal.updateCurrent {f : Attribute → Attribute} (hf : ∀ a, a.Normal → (f a).Normal) :
    (t.updateCurrent f).Normal := by
  unfold TagPart.updateCurrent
  split
  · rename_i a hlast
    exact ⟨h.1, Attribute.normal_dropLast_concat h.2
      (hf a (h.2 a (List.mem_of_getLast? hlast)))⟩
  · refine ⟨h.1, fun a ha => ?_⟩
    rw [List.mem_singleton.1 ha]
    exact hf {} (Attribute.normal_ofBeforeName "")

theorem Normal.startAttribute : (t.startAttribute s).Normal := by
  unfold TagPart.startAttribute
  cases hlast : t.attributes.getLast? with
  | none =>
    refine ⟨h.1, fun a ha => ?_⟩
    rw [List.mem_singleton.1 ha]
    exact Attribute.normal_ofBeforeName _
  | some a =>
    have ha : a.Normal := h.2 a (List.mem_of_getLast? hlast)
    dsimp only
    split
    · exact h
    · split
      · -- the blanks join a blank last attribute
        exact ⟨h.1, Attribute.normal_dropLast_concat h.2 ((ha.pushBeforeName _).pushBeforeName _)⟩
      · exact ⟨h.1, Attribute.normal_concat h.2 (Attribute.normal_ofBeforeName _)⟩

theorem Normal.finish : t.finish.Normal := by
  unfold TagPart.finish
  split
  · split
    · exact ⟨h.1, fun a ha => h.2 a (List.mem_of_mem_dropLast ha)⟩
    · exact h
  · exact h

theorem Normal.close : (t.close s).Normal :=
  (show ({ t.pushRaw s with closed := true } : TagPart).Normal from h).finish

theorem Normal.tagToken (q : LexState) : (Template.Builder.tagToken q s t).Normal := by
  have hraw := h.pushRaw s
  unfold Template.Builder.tagToken
  cases q
  case tagName => exact hraw.pushName s
  case beforeAttributeName => exact hraw.startAttribute s
  case attributeName => exact hraw.updateCurrent fun a ha => ha.pushName s
  case afterAttributeName => exact hraw.updateCurrent fun a ha => ha.pushAfterName s
  case beforeAttributeValue => exact hraw.updateCurrent fun a ha => ha.pushBeforeValue s
  case attributeValueDoubleQuoted | attributeValueSingleQuoted =>
    exact hraw.updateCurrent fun a ha => (ha.setQuote _).pushValue s
  case attributeValueUnquoted => exact hraw.updateCurrent fun a ha => ha.pushValue s
  case selfClosingStartTag => exact hraw.setSelfClosing true
  all_goals exact hraw

end Ops

end TagPart

namespace Template

/-- The tags in a part list are in normal form. -/
def TagsNormal (ps : List Part) : Prop := ∀ t, Part.tag t ∈ ps → t.Normal

namespace Builder

/-- Every tag a builder holds, finished or pending, is in normal form. -/
structure Normal (b : Builder) : Prop where
  parts : TagsNormal b.parts.toList
  pending : ∀ t, b.pending = .tag t → t.Normal

theorem normal_empty : ({} : Builder).Normal where
  parts := fun t ht => by cases ht
  pending := fun t ht => by cases ht

section Ops
variable {b : Builder}

theorem tagsNormal_push {ps : Array Part} (hps : TagsNormal ps.toList) {p : Part}
    (hp : ∀ t, p = .tag t → t.Normal) : TagsNormal (ps.push p).toList := by
  intro t ht
  simp only [Array.toList_push, List.mem_append, List.mem_singleton] at ht
  rcases ht with ht | ht
  · exact hps t ht
  · exact hp t ht.symm

theorem tagsNormal_keepContent {ps : Array Part} (hps : TagsNormal ps.toList) (c : ContentPart) :
    TagsNormal (keepContent ps c).toList := by
  unfold keepContent
  split
  · exact hps
  · exact tagsNormal_push hps fun t ht => by cases ht

theorem Normal.onContent (h : b.Normal) (f : ContentPart → ContentPart) :
    (b.onContent f).Normal := by
  unfold Builder.onContent
  split
  · exact ⟨h.parts, fun t ht => by cases ht⟩
  · rename_i t hp
    exact ⟨tagsNormal_push h.parts fun t' ht' => by cases ht'; exact h.pending t hp,
      fun t ht => by cases ht⟩
  · exact ⟨h.parts, fun t ht => by cases ht⟩

theorem Normal.onTag (h : b.Normal) {f : TagPart → TagPart}
    (hf : ∀ t, t.Normal → (f t).Normal) : (b.onTag f).Normal := by
  unfold Builder.onTag
  split
  · rename_i t hp
    exact ⟨h.parts, fun t' ht' => by cases ht'; exact hf t (h.pending t hp)⟩
  · exact ⟨tagsNormal_keepContent h.parts _,
      fun t' ht' => by cases ht'; exact hf {} TagPart.normal_default⟩
  · exact ⟨h.parts, fun t' ht' => by cases ht'; exact hf {} TagPart.normal_default⟩

theorem Normal.flush (h : b.Normal) : b.flush.Normal := by
  unfold Builder.flush
  split
  · exact ⟨tagsNormal_keepContent h.parts _, fun t ht => by cases ht⟩
  · rename_i t hp
    exact ⟨tagsNormal_push h.parts fun t' ht' => by cases ht'; exact h.pending t hp,
      fun t ht => by cases ht⟩
  · exact h

theorem Normal.flush_with (h : b.Normal) {p : Pending} (hp : ∀ t, p = .tag t → t.Normal) :
    ({ b.flush with pending := p } : Builder).Normal :=
  ⟨h.flush.parts, hp⟩

theorem Normal.fold (h : b.Normal) : b.fold.1.Normal := by
  have hdrop : b.dropTag.2.Normal := by
    unfold dropTag
    split
    · exact ⟨h.parts, fun t ht => by cases ht⟩
    · exact h
  have hreopen : (reopen b.dropTag.2).Normal := by
    unfold reopen
    split
    · rename_i c hp hback
      obtain ⟨ys, hys⟩ := Array.back?_eq_some_iff.1 hback
      refine ⟨fun t ht => hdrop.parts t ?_, fun t ht => by cases ht⟩
      simpa [hys] using ht
    · exact hdrop
  rw [fold_eq]
  exact hreopen.onContent _

theorem Normal.token (h : b.Normal) (q : LexState) (text : String) :
    (b.token q text).1.Normal := by
  cases q
  case content => exact h.onContent _
  case illegal => exact h.fold
  case atEnd => exact h
  case tagOpen =>
    exact h.flush_with fun t ht => by cases ht; exact TagPart.normal_opened text
  case tagClose =>
    exact (h.onTag fun t ht => ht.close text).flush_with fun t ht => by cases ht
  all_goals exact h.onTag fun t ht => ht.tagToken text _

theorem Normal.slot (h : b.Normal) (live : LexState) : (b.slot live).1.Normal := by
  cases live
  case tagOpen | tagName => exact h.onTag fun t ht => ht.addNameSlot
  case beforeAttributeName | attributeName | afterAttributeValueQuoted | selfClosingStartTag =>
    exact h.onTag fun t ht => ht.updateCurrent fun a ha => ha.addNameSlot
  case afterAttributeName | beforeAttributeValue | attributeValueDoubleQuoted
    | attributeValueSingleQuoted | attributeValueUnquoted =>
    exact h.onTag fun t ht => ht.updateCurrent fun a ha => ha.addValueSlot
  all_goals exact h.onContent _

end Ops

/-- Whatever events a builder takes, its tags stay in normal form. -/
theorem normal_foldl_feed (events : List LexEvent) {b : Builder} (h : b.Normal) :
    (events.foldl (fun b e => (b.feed e).1) b).Normal := by
  induction events generalizing b with
  | nil => exact h
  | cons e es ih =>
    apply ih
    cases e with
    | token i q text => exact h.token q text
    | slot i live => exact h.slot live

theorem tagsNormal_finish {b : Builder} (h : b.Normal) : TagsNormal b.finish := by
  rw [finish_eq]
  have htag : b.finishTag.Normal := by
    unfold finishTag
    split
    · rename_i t hp
      exact ⟨h.parts, fun t' ht' => by cases ht'; exact (h.pending t hp).finish⟩
    · exact h
  exact htag.flush.parts

end Builder

/-- The tags built from any events have their fragment lists in normal form. -/
theorem partsOfEvents_normal (events : List LexEvent) : TagsNormal (partsOfEvents events) :=
  Builder.tagsNormal_finish (Builder.normal_foldl_feed events Builder.normal_empty)

/-- The fragment lists of a parsed template, in tag names, attribute names and attribute
values, hold no empty text and no two texts side by side. A name or a value is a lone slot
exactly when one value and only empty text went into it, which is when the attribute is
skipped for an omitted value; and a name has no static text exactly when a value goes in. -/
theorem parsed_fragments_normal (lits : List String) :
    ∃ parts, parseLiterals lits = .ok parts ∧ ∀ t, Part.tag t ∈ parts →
      Fragment.Normal t.name ∧ (t.tagName = none ↔ Fragment.slot ∈ t.name) ∧
      ∀ a ∈ t.attributes, Fragment.Normal a.name ∧ Fragment.Normal a.value ∧
        (a.name = [.slot] ↔ Fragment.countSlots a.name = 1 ∧ Fragment.texts a.name = "") ∧
        (a.value = [.slot] ↔ Fragment.countSlots a.value = 1 ∧ Fragment.texts a.value = "") ∧
        (∀ vs, a.isSkipped vs = true ↔
          (Fragment.countSlots a.name = 1 ∧ Fragment.texts a.name = "" ∧
              omittedAt vs.head? = true) ∨
            (Fragment.countSlots a.value = 1 ∧ Fragment.texts a.value = "" ∧
              omittedAt vs[a.nameSlots]? = true)) ∧
        (a.staticName = none ↔ Fragment.slot ∈ a.name) := by
  obtain ⟨events, hev⟩ := tokenizeLiterals_ok lits
  refine ⟨partsOfEvents events, by rw [parseLiterals, hev]; rfl, fun t ht => ?_⟩
  have htn : t.Normal := partsOfEvents_normal events t ht
  refine ⟨htn.1, ?_, fun a ha => ?_⟩
  · rw [TagPart.tagName, Option.map_eq_none_iff, Fragment.staticText_eq_none_iff]
  · have han : a.Normal := htn.2 a ha
    refine ⟨han.1, han.2, han.1.eq_slot_iff, han.2.eq_slot_iff,
      Attribute.isSkipped_iff_of_normal han, ?_⟩
    rw [Attribute.staticName, Option.map_eq_none_iff, Fragment.staticText_eq_none_iff]

end Template

end HtmlTemplates
