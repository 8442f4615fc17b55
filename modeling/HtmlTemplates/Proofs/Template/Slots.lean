import Mathlib
import HtmlTemplates.Proofs.Markup.Grammar
import HtmlTemplates.Template.Basic
/-!
The number of values a template takes.

A template counts its values as the slots of its parts: the value places in tag names,
attribute names and values, and the breaks between the strings of content. Each slot event
of the parser adds one such place, and no other event takes one away (`Builder.slots_foldl_feed`):
text goes into existing strings and fragments, blank content and blank attributes carry no
slots when they are dropped, and the fold of a `<` that starts no tag only ever drops the tag
`<` itself opened, which has none yet. Scanning literals yields one slot between each two, so
a template of `n` literals takes `n - 1` values (`Template.valueCount_make`).
-/
namespace HtmlTemplates
open HtmlTemplates.Markup

namespace Fragment

@[simp] theorem countSlots_pushText (fs : List Fragment) (s : String) :
    countSlots (pushText fs s) = countSlots fs := by
  unfold pushText
  split
  · rfl
  · split
    · rename_i t h
      rw [List.getLast?_eq_some_iff] at h
      obtain ⟨ys, rfl⟩ := h
      simp [countSlots, isSlot]
    · simp [countSlots, isSlot]

@[simp] theorem countSlots_append_slot (fs : List Fragment) :
    countSlots (fs ++ [.slot]) = countSlots fs + 1 := by
  simp [countSlots, isSlot]

end Fragment

namespace ContentPart

@[simp] theorem slots_pushText (c : ContentPart) (s : String) : (c.pushText s).slots = c.slots := by
  unfold pushText slots
  split
  · simp
  · rfl

theorem strings_pushText_ne_nil {c : ContentPart} (h : c.strings ≠ []) (s : String) :
    (c.pushText s).strings ≠ [] := by
  unfold pushText
  split <;> simp_all

theorem slots_of_isBlank {c : ContentPart} (h : c.isBlank = true) : c.slots = 0 := by
  simp only [isBlank, beq_iff_eq] at h
  simp [slots, h]

@[simp] theorem slots_default : ({} : ContentPart).slots = 0 := rfl

theorem slots_addSlot {c : ContentPart} (h : c.strings ≠ []) : c.addSlot.slots = c.slots + 1 := by
  have := List.length_pos_iff.2 h
  simp only [addSlot, slots, List.length_append, List.length_singleton]
  omega

end ContentPart

namespace Attribute

@[simp] theorem slots_pushBeforeName (a : Attribute) (s : String) :
    (a.pushBeforeName s).slots = a.slots := rfl
@[simp] theorem slots_pushAfterName (a : Attribute) (s : String) :
    (a.pushAfterName s).slots = a.slots := rfl
@[simp] theorem slots_pushBeforeValue (a : Attribute) (s : String) :
    (a.pushBeforeValue s).slots = a.slots := rfl
@[simp] theorem slots_setQuote (a : Attribute) (q : Quote) : (a.setQuote q).slots = a.slots := rfl

@[simp] theorem slots_pushName (a : Attribute) (s : String) : (a.pushName s).slots = a.slots := by
  simp [slots, nameSlots, pushName]

@[simp] theorem slots_pushValue (a : Attribute) (s : String) : (a.pushValue s).slots = a.slots := by
  simp [slots, nameSlots, pushValue]

@[simp] theorem slots_addNameSlot (a : Attribute) : a.addNameSlot.slots = a.slots + 1 := by
  simp only [slots, nameSlots, addNameSlot, Fragment.countSlots_append_slot]
  omega

@[simp] theorem slots_addValueSlot (a : Attribute) : a.addValueSlot.slots = a.slots + 1 := by
  simp only [slots, nameSlots, addValueSlot, Fragment.countSlots_append_slot]
  omega

@[simp] theorem slots_default : ({} : Attribute).slots = 0 := rfl

@[simp] theorem slots_of_beforeName (s : String) : ({ beforeName := s } : Attribute).slots = 0 := rfl

theorem slots_of_isBlank {a : Attribute} (h : a.isBlank = true) : a.slots = 0 := by
  simp only [isBlank, Bool.and_eq_true, List.isEmpty_iff] at h
  simp [slots, nameSlots, h.1.1, h.2, Fragment.countSlots]

end Attribute

namespace TagPart

theorem slots_eq (t : TagPart) :
    t.slots = Fragment.countSlots t.name + (t.attributes.map Attribute.slots).sum := rfl

@[simp] theorem slots_pushRaw (t : TagPart) (s : String) : (t.pushRaw s).slots = t.slots := rfl
@[simp] theorem slots_setSelfClosing (t : TagPart) (b : Bool) :
    (t.setSelfClosing b).slots = t.slots := rfl
@[simp] theorem slots_opened (s : String) : (opened s).slots = 0 := rfl

@[simp] theorem slots_pushName (t : TagPart) (s : String) : (t.pushName s).slots = t.slots := by
  simp [slots_eq, pushName]

@[simp] theorem slots_addNameSlot (t : TagPart) : t.addNameSlot.slots = t.slots + 1 := by
  simp only [slots_eq, addNameSlot, Fragment.countSlots_append_slot]
  omega

theorem slots_updateCurrent (t : TagPart) {f : Attribute → Attribute} {k : Nat}
    (hf : ∀ a, (f a).slots = a.slots + k) : (t.updateCurrent f).slots = t.slots + k := by
  unfold updateCurrent
  split
  · rename_i a h
    obtain ⟨ys, hys⟩ := List.getLast?_eq_some_iff.1 h
    simp only [slots_eq, hys, List.dropLast_concat, List.map_append, List.sum_append,
      List.map_cons, List.map_nil, List.sum_cons, List.sum_nil, hf]
    omega
  · rename_i h
    simp only [List.getLast?_eq_none_iff] at h
    simp [slots_eq, h, hf]

@[simp] theorem slots_startAttribute (t : TagPart) (s : String) :
    (t.startAttribute s).slots = t.slots := by
  unfold startAttribute
  cases h : t.attributes.getLast? with
  | none =>
    simp only [List.getLast?_eq_none_iff] at h
    simp [slots_eq, h]
  | some a =>
    obtain ⟨ys, hys⟩ := List.getLast?_eq_some_iff.1 h
    dsimp only
    by_cases hc : (s.isEmpty && !t.selfClosing && a.endsWithNameSlot) = true
    · rw [if_pos hc]
    · rw [if_neg hc]
      by_cases hb : a.isBlank = true
      · rw [if_pos hb]
        simp [slots_eq, hys, Attribute.slots_of_isBlank hb]
      · rw [if_neg hb]
        simp [slots_eq, hys]

@[simp] theorem slots_finish (t : TagPart) : t.finish.slots = t.slots := by
  unfold finish
  split
  · rename_i a h
    obtain ⟨ys, hys⟩ := List.getLast?_eq_some_iff.1 h
    split
    · rename_i hb
      simp [slots_eq, hys, Attribute.slots_of_isBlank hb]
    · rfl
  · rfl

@[simp] theorem slots_close (t : TagPart) (s : String) : (t.close s).slots = t.slots := by
  simp only [close, slots_finish]
  rfl

@[simp] theorem slots_default : ({} : TagPart).slots = 0 := rfl

@[simp] theorem slots_tagToken (q : LexState) (text : String) (t : TagPart) :
    (Template.Builder.tagToken q text t).slots = t.slots := by
  unfold Template.Builder.tagToken
  split <;> simp [slots_updateCurrent]

end TagPart

namespace Template

/-- The slots of the part being built. -/
def Pending.slots : Pending → Nat
  | .idle => 0
  | .content c => c.slots
  | .tag t => t.slots

namespace Builder

/-- The slots a builder holds, in its finished parts and in the part it builds. -/
def slots (b : Builder) : Nat := (b.parts.toList.map Part.slots).sum + b.pending.slots

/-- The content a builder holds has a string to append to. -/
structure WellFormed (b : Builder) : Prop where
  parts : ∀ c, Part.content c ∈ b.parts.toList → c.strings ≠ []
  pending : ∀ c, b.pending = .content c → c.strings ≠ []

theorem sum_keepContent (parts : Array Part) (c : ContentPart) :
    ((keepContent parts c).toList.map Part.slots).sum = (parts.toList.map Part.slots).sum + c.slots := by
  unfold keepContent
  split
  · rename_i h
    simp [ContentPart.slots_of_isBlank h]
  · simp [Part.slots]

/-- A fold takes the pending tag away, with its text. -/
def dropTag (b : Builder) : String × Builder :=
  match b.pending with
  | .tag t => (t.raw, { b with pending := .idle })
  | _ => ("", b)

/-- With nothing pending, a finished content part at the end is opened again. -/
def reopen (b : Builder) : Builder :=
  match b.pending, b.parts.back? with
  | .idle, some (.content c) => { parts := b.parts.pop, pending := .content c }
  | _, _ => b

theorem fold_eq (b : Builder) :
    b.fold = ((reopen b.dropTag.2).onContent (·.pushText b.dropTag.1), [.folded b.dropTag.1]) :=
  rfl

theorem wellFormed_empty : ({} : Builder).WellFormed where
  parts := fun c hc => by cases hc
  pending := fun c hc => by cases hc

section Ops
variable {b : Builder}

theorem slots_onContent {f : ContentPart → ContentPart} {k : Nat}
    (hf : ∀ c, c.strings ≠ [] → (f c).slots = c.slots + k) (hwf : b.WellFormed) :
    (b.onContent f).slots = b.slots + k := by
  unfold onContent slots
  split
  · rename_i c h
    simp [h, Pending.slots, hf c (hwf.pending c h)]
    omega
  · rename_i t h
    simp [h, Pending.slots, Part.slots, hf {} (by simp)]
  · rename_i h
    simp [h, Pending.slots, hf {} (by simp)]

theorem wellFormed_onContent {f : ContentPart → ContentPart}
    (hf : ∀ c, c.strings ≠ [] → (f c).strings ≠ []) (hwf : b.WellFormed) :
    (b.onContent f).WellFormed := by
  unfold onContent
  split
  · rename_i c h
    exact ⟨hwf.parts, fun c' hc' => by cases hc'; exact hf c (hwf.pending c h)⟩
  · rename_i t h
    refine ⟨fun c hc => ?_, fun c' hc' => by cases hc'; exact hf {} (by simp)⟩
    simp only [Array.toList_push, List.mem_append, List.mem_singleton, reduceCtorEq, or_false] at hc
    exact hwf.parts c hc
  · exact ⟨hwf.parts, fun c' hc' => by cases hc'; exact hf {} (by simp)⟩

theorem slots_onTag {f : TagPart → TagPart} {k : Nat} (hf : ∀ t, (f t).slots = t.slots + k) :
    (b.onTag f).slots = b.slots + k := by
  unfold onTag slots
  split
  · rename_i t h
    simp [h, Pending.slots, hf t]
    omega
  · rename_i c h
    simp [h, Pending.slots, sum_keepContent, hf {}]
  · rename_i h
    simp [h, Pending.slots, hf {}]

theorem wellFormed_keepContent {parts : Array Part} {c : ContentPart}
    (hparts : ∀ c, Part.content c ∈ parts.toList → c.strings ≠ []) (hc : c.strings ≠ []) :
    ∀ c', Part.content c' ∈ (keepContent parts c).toList → c'.strings ≠ [] := by
  intro c' hc'
  unfold keepContent at hc'
  split at hc'
  · exact hparts c' hc'
  · simp only [Array.toList_push, List.mem_append, List.mem_singleton, Part.content.injEq] at hc'
    rcases hc' with hc' | rfl
    · exact hparts c' hc'
    · exact hc

theorem wellFormed_onTag {f : TagPart → TagPart} (hwf : b.WellFormed) : (b.onTag f).WellFormed := by
  unfold onTag
  split
  · exact ⟨hwf.parts, fun c h => by simp_all⟩
  · rename_i c h
    exact ⟨wellFormed_keepContent hwf.parts (hwf.pending c h), fun c h => by cases h⟩
  · exact ⟨hwf.parts, fun c h => by cases h⟩

theorem slots_flush : b.flush.slots = b.slots := by
  unfold flush slots
  split
  · rename_i c h
    simp [h, Pending.slots, sum_keepContent]
  · rename_i t h
    simp [h, Pending.slots, Part.slots]
  · rfl

theorem wellFormed_flush (hwf : b.WellFormed) : b.flush.WellFormed := by
  unfold flush
  split
  · rename_i c h
    exact ⟨wellFormed_keepContent hwf.parts (hwf.pending c h), fun c h => by cases h⟩
  · rename_i t h
    refine ⟨fun c hc => ?_, fun c h => by cases h⟩
    simp only [Array.toList_push, List.mem_append, List.mem_singleton, reduceCtorEq, or_false] at hc
    exact hwf.parts c hc
  · exact hwf

theorem slots_reopen (hwf : b.WellFormed) : b.reopen.slots = b.slots ∧ b.reopen.WellFormed := by
  unfold reopen
  split
  · rename_i c hp hback
    obtain ⟨ys, hys⟩ := Array.back?_eq_some_iff.1 hback
    have hc : c.strings ≠ [] := hwf.parts c (by simp [hys])
    refine ⟨?_, ⟨fun c' hc' => hwf.parts c' (by simp [hys] at hc' ⊢; exact Or.inl hc'), ?_⟩⟩
    · simp [slots, hp, hys, Pending.slots, Part.slots]
    · intro c' hc'
      cases hc'
      exact hc
  · exact ⟨rfl, hwf⟩

theorem slots_dropTag (h : ∀ t, b.pending = .tag t → t.slots = 0) (hwf : b.WellFormed) :
    b.dropTag.2.slots = b.slots ∧ b.dropTag.2.WellFormed := by
  unfold dropTag
  split
  · rename_i t hp
    refine ⟨?_, hwf.parts, fun c hc => by cases hc⟩
    simp [slots, hp, Pending.slots, h t hp]
  · exact ⟨rfl, hwf⟩

/-- A fold keeps the slots when the tag it drops has none. -/
theorem slots_fold (h : ∀ t, b.pending = .tag t → t.slots = 0) (hwf : b.WellFormed) :
    b.fold.1.slots = b.slots ∧ b.fold.1.WellFormed := by
  obtain ⟨h₁, hwf₁⟩ := slots_dropTag h hwf
  obtain ⟨h₂, hwf₂⟩ := slots_reopen hwf₁
  rw [fold_eq]
  refine ⟨?_, wellFormed_onContent (fun c hc => ContentPart.strings_pushText_ne_nil hc _) hwf₂⟩
  rw [slots_onContent (k := 0) (fun c _ => by simp) hwf₂, h₂, h₁]
  rfl

@[simp] theorem flush_pending : b.flush.pending = .idle := by
  unfold flush
  split <;> first | rfl | assumption

theorem slots_flush_with (p : Pending) :
    ({ b.flush with pending := p } : Builder).slots = b.slots + p.slots := by
  have h := slots_flush (b := b)
  simp only [slots, flush_pending, Pending.slots] at h ⊢
  omega

theorem wellFormed_flush_with {p : Pending} (hwf : b.WellFormed)
    (hp : ∀ c, p = .content c → c.strings ≠ []) : ({ b.flush with pending := p } : Builder).WellFormed :=
  ⟨(wellFormed_flush hwf).parts, hp⟩

theorem slots_token (q : LexState) (text : String)
    (hq : q = .illegal → ∀ t, b.pending = .tag t → t.slots = 0) (hwf : b.WellFormed) :
    (b.token q text).1.slots = b.slots ∧ (b.token q text).1.WellFormed := by
  cases q
  case content =>
    exact ⟨slots_onContent (k := 0) (fun c _ => by simp) hwf,
      wellFormed_onContent (fun c hc => ContentPart.strings_pushText_ne_nil hc _) hwf⟩
  case illegal => exact slots_fold (hq rfl) hwf
  case atEnd => exact ⟨rfl, hwf⟩
  case tagOpen =>
    refine ⟨by simp [token, slots_flush_with, Pending.slots], ?_⟩
    exact wellFormed_flush_with hwf (fun c h => by cases h)
  case tagClose =>
    refine ⟨?_, wellFormed_flush_with (wellFormed_onTag hwf) (fun c h => by cases h; simp)⟩
    simp only [token, slots_flush_with]
    rw [slots_onTag (f := (·.close text)) (k := 0) (fun t => by simp)]
    simp [Pending.slots]
  all_goals exact ⟨slots_onTag (k := 0) (fun t => by simp), wellFormed_onTag hwf⟩

theorem slots_slot (live : LexState) (hwf : b.WellFormed) :
    (b.slot live).1.slots = b.slots + 1 ∧ (b.slot live).1.WellFormed := by
  have hname : ∀ t : TagPart, (t.updateCurrent (·.addNameSlot)).slots = t.slots + 1 :=
    fun t => t.slots_updateCurrent (fun a => a.slots_addNameSlot)
  have hvalue : ∀ t : TagPart, (t.updateCurrent (·.addValueSlot)).slots = t.slots + 1 :=
    fun t => t.slots_updateCurrent (fun a => a.slots_addValueSlot)
  cases live
  case tagOpen | tagName =>
    exact ⟨slots_onTag (fun t => t.slots_addNameSlot), wellFormed_onTag hwf⟩
  case beforeAttributeName | attributeName | afterAttributeValueQuoted | selfClosingStartTag =>
    exact ⟨slots_onTag hname, wellFormed_onTag hwf⟩
  case afterAttributeName | beforeAttributeValue | attributeValueDoubleQuoted
    | attributeValueSingleQuoted | attributeValueUnquoted =>
    exact ⟨slots_onTag hvalue, wellFormed_onTag hwf⟩
  all_goals
    exact ⟨slots_onContent (fun c hc => ContentPart.slots_addSlot hc) hwf,
      wellFormed_onContent (fun c _ => by simp [ContentPart.addSlot]) hwf⟩

end Ops

/-- The builder once the events are in: a pending tag is finished. -/
def finishTag (b : Builder) : Builder :=
  match b.pending with
  | .tag t => { b with pending := .tag t.finish }
  | _ => b

theorem finish_eq (b : Builder) : b.finish = b.finishTag.flush.parts.toList := rfl

/-- Every slot of the builder is in the finished parts. -/
theorem sum_finish (b : Builder) : (b.finish.map Part.slots).sum = b.slots := by
  have htag : b.finishTag.slots = b.slots := by
    unfold finishTag
    split <;> simp_all [slots, Pending.slots]
  calc (b.finish.map Part.slots).sum = b.finishTag.flush.slots := by
        simp [finish_eq, slots, Pending.slots]
    _ = b.slots := slots_flush.trans htag

/-- Along a walk, the builder gains one slot per slot event: a fold after `<` drops a tag
that has none yet. -/
theorem slots_foldl_feed {last prev q : LexState} {events : List LexEvent}
    (hw : Walk last prev q events)
    {b : Builder} (hwf : b.WellFormed) (hq : q = .illegal → ∀ t, b.pending = .tag t → t.slots = 0) :
    (events.foldl (fun b e => (b.feed e).1) b).slots = b.slots + events.countP LexEvent.isSlot ∧
      (events.foldl (fun b e => (b.feed e).1) b).WellFormed := by
  induction events generalizing prev q b with
  | nil => exact ⟨rfl, hwf⟩
  | cons e es ih =>
    cases e with
    | token i l text =>
      obtain ⟨-, hl, n, hfits, hw'⟩ := hw
      have hil : l = .illegal → ∀ t, b.pending = .tag t → t.slots = 0 := by
        rintro rfl
        rcases hl with rfl | ⟨-, h⟩
        · exact hq rfl
        · cases h
      obtain ⟨hs, hwf'⟩ := slots_token l text hil hwf
      have hn : n = .illegal → ∀ t, (b.token l text).1.pending = .tag t → t.slots = 0 := by
        intro hn t ht
        have hmem : n ∈ l.successors := hfits.next_mem
        have hopen : l = .tagOpen := by
          rw [hn] at hmem
          cases l <;> simp [LexState.successors] at hmem ⊢
        subst hopen
        simp only [token, Pending.tag.injEq] at ht
        rw [← ht]
        rfl
      obtain ⟨ihs, ihw⟩ := ih hw' hwf' hn
      refine ⟨?_, ihw⟩
      simp only [List.foldl_cons, feed, List.countP_cons, LexEvent.isSlot, Bool.false_eq_true,
        ↓reduceIte] at ihs ⊢
      omega
    | slot i live =>
      obtain ⟨-, rfl, hlive, hw'⟩ := hw
      obtain ⟨hs, hwf'⟩ := slots_slot live hwf
      have hn : live = .illegal → ∀ t, (b.slot live).1.pending = .tag t → t.slots = 0 := by
        rintro rfl
        cases hlive
      obtain ⟨ihs, ihw⟩ := ih hw' hwf' hn
      refine ⟨?_, ihw⟩
      simp only [List.foldl_cons, feed, List.countP_cons, LexEvent.isSlot,
        ↓reduceIte] at ihs ⊢
      omega

end Builder

/-- The parts of a walk take one value per slot event. -/
theorem sum_slots_partsOfEvents {last prev q : LexState} {events : List LexEvent}
    (hw : Walk last prev q events) (hq : q ≠ .illegal) :
    ((partsOfEvents events).map Part.slots).sum = events.countP LexEvent.isSlot := by
  have h := (Builder.slots_foldl_feed hw Builder.wellFormed_empty (fun h => absurd h hq)).1
  rw [partsOfEvents, Builder.sum_finish, h]
  exact Nat.zero_add _

/-- A template of `n` literals takes `n - 1` values, and making it never fails. -/
theorem valueCount_make (literals : List String) (settings : MemorySettings) :
    ∃ t, make literals settings = .ok t ∧ t.valueCount = literals.length - 1 := by
  by_cases hl : literals = []
  · subst hl
    -- `eventsOf` recurses on a list pattern, so the empty case is unfolded rather than computed
    refine ⟨_, by simp [make, parseLiterals, tokenizeLiterals, scanLiterals, scanFrom, eventsOf]; rfl, ?_⟩
    rfl
  obtain ⟨events, htok, hw, hcount, -⟩ := walk_tokenizeLiterals hl
  refine ⟨_, by simp [make, parseLiterals, htok]; rfl, ?_⟩
  show ((partsOfEvents events).map Part.slots).sum = _
  rw [sum_slots_partsOfEvents hw (by decide), hcount]

end Template

end HtmlTemplates
