import Mathlib
import HtmlTemplates.Proofs.Template.Slots
import HtmlTemplates.Template.Value
/-!
Rendering with values that read as one text everywhere.

A value that is neither null, false, a list nor an object is written the same way in content,
in names and in attribute values, and never drops an attribute (`Value.rendering_of_isPlain`).
With such values, rendering is a plain function of their texts. Content is its strings with the
texts between them. A tag without slots is its source text. A tag with slots is rebuilt field by
field (`TagPart.rebuild`). Each part takes its slice of the texts as `splitAmong` cuts it, and
rendering never fails (`Template.renderWith_text`).
-/
namespace HtmlTemplates

open HtmlTemplates.Markup

/-- A rendering that reads as one text everywhere and is never omitted. -/
def Rendering.text (s : String) : Rendering := ⟨.ok s, .ok (some s), false⟩

namespace Value

/-- Values written as one text in content, names and attribute values: not null, not false,
not a list and not an object. -/
def isPlain : Value → Bool
  | .null | .bool false | .list _ | .object _ => false
  | _ => true

theorem rendering_of_isPlain {v : Value} {s : String} (hv : v.isPlain = true)
    (hs : v.nodeText = .ok s) : v.rendering = .text s := by
  cases v with
  | bool b =>
    cases b <;> simp_all [isPlain, rendering, Rendering.text, attrValueText, isOmitted, Except.map]
  | null | list _ | object _ => simp [isPlain] at hv
  | _ => simp_all [rendering, Rendering.text, attrValueText, isOmitted, nodeText, Except.map]

theorem map_rendering_of_mapM {vs : List Value} {texts : List String}
    (hv : ∀ v ∈ vs, v.isPlain = true) (hs : vs.mapM nodeText = .ok texts) :
    vs.map rendering = texts.map Rendering.text := by
  induction vs generalizing texts with
  | nil =>
    cases hs
    rfl
  | cons v vs ih =>
    rw [List.mapM_cons] at hs
    cases hv' : v.nodeText with
    | error e => simp [hv'] at hs; cases hs
    | ok s =>
      cases hrest : vs.mapM nodeText with
      | error e => simp [hv', hrest] at hs; cases hs
      | ok rest =>
        simp only [hv', hrest] at hs
        cases hs
        rw [List.map_cons, List.map_cons, rendering_of_isPlain (hv v (by simp)) hv',
          ih (fun w hw => hv w (by simp [hw])) hrest]

end Value

theorem omittedAt_text (ts : List String) (i : Nat) :
    omittedAt (ts.map Rendering.text)[i]? = decide (ts.length ≤ i) := by
  rw [List.getElem?_map]
  by_cases h : i < ts.length
  · simp [List.getElem?_eq_getElem h, omittedAt, Rendering.text, Nat.not_le.2 h]
  · simp [omittedAt, Nat.le_of_not_lt h]

namespace Fragment

/-- Fragments with their slots filled by texts, in order; a missing text is empty. -/
def fillText : List Fragment → List String → String
  | [], _ => ""
  | .text s :: fs, ts => s ++ fillText fs ts
  | .slot :: fs, ts => ts.headD "" ++ fillText fs ts.tail

theorem fillName_text (fs : List Fragment) (ts : List String) :
    fillName fs (ts.map Rendering.text) = .ok (fillText fs ts) := by
  induction fs generalizing ts with
  | nil => rfl
  | cons f fs ih =>
    cases f with
    | text s => simp [fillName, fillText, ih, Except.map]
    | slot =>
      cases ts with
      | nil =>
        have h₀ : fillName fs [] = .ok (fillText fs []) := ih []
        simp [fillName, fillText, slotValue, Rendering.null, h₀, bind, Except.bind, pure, Except.pure]
      | cons t ts =>
        simp [fillName, fillText, slotValue, Rendering.text, ih ts, bind, Except.bind, pure,
          Except.pure]

theorem fillValue_text (fs : List Fragment) (ts : List String) :
    fillValue fs (ts.map Rendering.text) = .ok (fillText fs ts) := by
  induction fs generalizing ts with
  | nil => rfl
  | cons f fs ih =>
    cases f with
    | text s => simp [fillValue, fillText, ih, Except.map]
    | slot =>
      cases ts with
      | nil =>
        have h₀ : fillValue fs [] = .ok (fillText fs []) := ih []
        simp [fillValue, fillText, slotValue, Rendering.null, h₀, bind, Except.bind, pure, Except.pure]
      | cons t ts =>
        simp [fillValue, fillText, slotValue, Rendering.text, ih ts, bind, Except.bind, pure,
          Except.pure]

end Fragment

/-- Rendering the slices `splitAmong` cuts for each item, with text renderings, gives each
item's text of its slice, when there are texts for every slot. -/
theorem mapM_splitAmong_text {α : Type} {slots : α → Nat}
    {render : α → List Rendering → Except TemplateError String} {text : α → List String → String}
    (hr : ∀ x ts, slots x ≤ ts.length → render x (ts.map Rendering.text) = .ok (text x ts)) :
    ∀ (xs : List α) (ts : List String), (xs.map slots).sum ≤ ts.length →
      (xs.zip (splitAmong (xs.map slots) (ts.map Rendering.text))).mapM
          (fun p => render p.1 p.2) =
        .ok ((xs.zip (splitAmong (xs.map slots) ts)).map fun p => text p.1 p.2)
  | [], _, _ => rfl
  | x :: xs, ts, h => by
    simp only [List.map_cons, List.sum_cons] at h
    have hx : slots x ≤ (ts.take (slots x)).length := by simp; omega
    have hrest : (xs.map slots).sum ≤ (ts.drop (slots x)).length := by simp; omega
    simp only [List.map_cons, splitAmong, List.zip_cons_cons, List.mapM_cons, ← List.map_take,
      ← List.map_drop, hr x _ hx, mapM_splitAmong_text hr xs _ hrest]
    rfl

namespace Attribute

/-- The attribute as written up to its closing quote, with its slots filled by texts. -/
def body (a : Attribute) (ts : List String) : String :=
  a.beforeName ++ Fragment.fillText a.name ts ++ a.afterName ++ a.beforeValue ++
    Fragment.fillText a.value (ts.drop a.nameSlots)

/-- The attribute as written, with its slots filled by texts. -/
def text (a : Attribute) (ts : List String) : String := a.body ts ++ a.quote.text

/-- Attributes one after another, each with its slice of the texts. -/
def listText (as : List Attribute) (ts : List String) : String :=
  String.join ((as.zip (splitAmong (as.map slots) ts)).map fun p => p.1.text p.2)

theorem isSkipped_text {a : Attribute} {ts : List String} (h : a.slots ≤ ts.length) :
    a.isSkipped (ts.map Rendering.text) = false := by
  -- a whole name or value that is one slot has its text, since the texts cover the slots
  have hname : a.name = [.slot] → 0 < ts.length := by
    intro hn
    have : a.nameSlots = 1 := by simp [nameSlots, hn, Fragment.countSlots, Fragment.isSlot]
    unfold slots at h
    omega
  have hvalue : a.value = [.slot] → a.nameSlots < ts.length := by
    intro hv
    have : Fragment.countSlots a.value = 1 := by simp [hv, Fragment.countSlots, Fragment.isSlot]
    unfold slots at h
    omega
  have hhead : (ts.map Rendering.text).head? = (ts.map Rendering.text)[0]? := by
    cases ts <;> rfl
  unfold isSkipped
  rw [hhead, omittedAt_text, omittedAt_text]
  refine Bool.or_eq_false_iff.2 ⟨?_, ?_⟩
  · cases hn : a.name == [.slot]
    · rfl
    · have := hname (by simpa using hn)
      simp only [Bool.true_and, decide_eq_false_iff_not]
      omega
  · cases hv : a.value == [.slot]
    · rfl
    · have := hvalue (by simpa using hv)
      simp only [Bool.true_and, decide_eq_false_iff_not]
      omega

theorem render_text {a : Attribute} {ts : List String} (h : a.slots ≤ ts.length) :
    a.render (ts.map Rendering.text) = .ok (a.text ts) := by
  rw [render, isSkipped_text h]
  simp [renderAll, resolveName, resolveValue, Fragment.fillName_text, ← List.map_drop,
    Fragment.fillValue_text, text, body, bind, Except.bind, pure, Except.pure]

end Attribute

namespace TagPart

/-- The tag rebuilt from its fields, with its slots filled by texts: `<` or `</`, the name,
the attributes with their slices of the texts, the trailing blanks, `/` and `>`. -/
def rebuild (t : TagPart) (ts : List String) : String :=
  (if t.endTag then "</" else "<") ++ Fragment.fillText t.name ts ++
    Attribute.listText t.attributes (ts.drop (Fragment.countSlots t.name)) ++ t.trailing ++
    (if t.selfClosing then "/" else "") ++ (if t.closed then ">" else "")

theorem render_text {t : TagPart} {ts : List String} (h : t.slots ≤ ts.length) :
    t.render (ts.map Rendering.text) = .ok (if t.slots = 0 then t.raw else t.rebuild ts) := by
  unfold render
  split
  · rfl
  · have hattrs : (t.attributes.map Attribute.slots).sum ≤
        (ts.drop (Fragment.countSlots t.name)).length := by
      rw [slots_eq] at h
      simp
      omega
    have hm := mapM_splitAmong_text (fun a ts h => Attribute.render_text h)
      t.attributes _ hattrs
    simp only [attributeSlices, ← List.map_drop] at hm ⊢
    simp only [Fragment.fillName_text, bind, Except.bind, hm, rebuild, Attribute.listText,
      pure, Except.pure]

end TagPart

/-- A part with its slots filled by texts. -/
def Part.text : Part → List String → String
  | .content c, ts => interleave c.strings ts
  | .tag t, ts => if t.slots = 0 then t.raw else t.rebuild ts

/-- Parts one after another, each with its slice of the texts. -/
def Part.listText (ps : List Part) (ts : List String) : String :=
  String.join ((ps.zip (splitAmong (ps.map Part.slots) ts)).map fun p => p.1.text p.2)

theorem renderContent_text (ss ts : List String) :
    renderContent ss (ts.map Rendering.text) = .ok (interleave ss ts) := by
  induction ss generalizing ts with
  | nil => simp [renderContent, interleave]
  | cons s ss ih =>
    cases ss with
    | nil => simp [renderContent, interleave]
    | cons s' ss =>
      cases ts with
      | nil =>
        have h₀ : renderContent (s' :: ss) [] = .ok (interleave (s' :: ss) []) := ih []
        simp [renderContent, interleave, slotValue, Rendering.null, h₀, bind, Except.bind, pure,
          Except.pure]
      | cons t ts =>
        simp [renderContent, interleave, slotValue, Rendering.text, ih ts, bind, Except.bind,
          pure, Except.pure, String.append_assoc]

theorem Part.render_text {p : Part} {ts : List String} (h : p.slots ≤ ts.length) :
    p.render (ts.map Rendering.text) = .ok (p.text ts) := by
  cases p with
  | content c => exact renderContent_text c.strings ts
  | tag t => exact TagPart.render_text h

namespace Template

/-- With as many texts as the template has slots, rendering strictly gives its parts with
their slices of the texts. -/
theorem renderWith_text {t : Template} {ts : List String}
    (hsum : t.valueCount = (t.parts.map Part.slots).sum) (hcount : ts.length = t.valueCount) :
    t.renderWith true (ts.map Rendering.text) = .ok (Part.listText t.parts ts) := by
  have hm := @mapM_splitAmong_text Part Part.slots Part.render Part.text
    (fun _ _ h => Part.render_text h) t.parts ts (by omega)
  simp only [renderWith, checkValueCount, List.length_map, hcount, if_true, partSlices]
  simp only [bind, Except.bind, pure, Except.pure, hm, Part.listText]

end Template

end HtmlTemplates
