import HtmlTemplates.Proofs.Template.Slots
/-!
The shape of a parsed part list.

Parsing leaves its parts tidy (`Template.PartsShaped`): no content part is blank, no two content
parts stand side by side, every tag but possibly the last part is closed by `>`, and no tag keeps
a blank attribute. The builder's finished parts are tidier still (`Template.Settled`): every tag
among them is closed. While the scanner reads text the builder never holds a tag, so content is
finished only when a tag starts, and a tag is finished only by its `>` or at the very end. A `<`
that starts no tag reopens the content it interrupted, so contents never meet. Inside a tag, only
its last attribute can be blank (`TagPart.BlankOnlyLast`), and closing or finishing the tag drops
that one. Each token and slot of a walk keeps this (`Builder.Shaped.token`, `Builder.Shaped.slot`),
and so the parts of any literals are tidy (`Template.parsed_parts_shaped`).
-/
namespace HtmlTemplates

open HtmlTemplates.Markup

namespace Markup.LexState

/-- After a token of state `prev`, the scanner reads on in `q` in text: in content, at a `<`, or
where a literal ended in content. -/
def ReadsContent (prev q : LexState) : Prop :=
  q = content ∨ q = tagOpen ∨ q = atEnd ∧ prev = content

/-- After a token of a tag, the scanner reads on in the tag or at its end, never in text. -/
theorem not_readsContent_of_tag {l n : LexState} (hn : n ∈ l.successors)
    (hl : l ≠ content ∧ l ≠ tagClose ∧ l ≠ illegal) : ¬ReadsContent l n := by
  obtain ⟨hc, hcl, hil⟩ := hl
  cases l <;> simp only [successors, List.mem_cons, List.not_mem_nil, or_false] at hn <;>
    rcases hn with rfl | rfl | rfl | rfl <;> simp_all [ReadsContent]

end Markup.LexState

open Markup.LexState (ReadsContent)

namespace TagPart

/-- Every attribute of the tag but the last holds more than blanks. -/
def BlankOnlyLast (t : TagPart) : Prop := ∀ a ∈ t.attributes.dropLast, a.isBlank = false

theorem blankOnlyLast_opened (s : String) : (opened s).BlankOnlyLast := by
  simp [BlankOnlyLast, opened]

theorem blankOnlyLast_default : ({} : TagPart).BlankOnlyLast := by
  simp [BlankOnlyLast]

@[simp] theorem closed_finish (t : TagPart) : t.finish.closed = t.closed := by
  unfold TagPart.finish
  split
  · split <;> rfl
  · rfl

theorem closed_close (t : TagPart) (s : String) : (t.close s).closed = true := by
  simp [TagPart.close, pushRaw]

section Ops
variable {t : TagPart} (h : t.BlankOnlyLast) (s : String)
include h

theorem BlankOnlyLast.pushRaw : (t.pushRaw s).BlankOnlyLast := h
theorem BlankOnlyLast.pushName : (t.pushName s).BlankOnlyLast := h
theorem BlankOnlyLast.addNameSlot : t.addNameSlot.BlankOnlyLast := h
theorem BlankOnlyLast.setSelfClosing (b : Bool) : (t.setSelfClosing b).BlankOnlyLast := h

theorem BlankOnlyLast.updateCurrent (f : Attribute → Attribute) :
    (t.updateCurrent f).BlankOnlyLast := by
  unfold TagPart.updateCurrent
  split
  · simpa [BlankOnlyLast] using h
  · simp [BlankOnlyLast]

/-- A tag whose last attribute holds more than blanks has no blank attribute. -/
theorem BlankOnlyLast.of_getLast? {a : Attribute} (hlast : t.attributes.getLast? = some a)
    (ha : a.isBlank = false) : ∀ a' ∈ t.attributes, a'.isBlank = false := by
  obtain ⟨ys, hys⟩ := List.getLast?_eq_some_iff.1 hlast
  intro a' ha'
  rw [hys, List.mem_append, List.mem_singleton] at ha'
  rcases ha' with ha' | rfl
  · exact h a' (by rw [hys, List.dropLast_concat]; exact ha')
  · exact ha

theorem BlankOnlyLast.startAttribute : (t.startAttribute s).BlankOnlyLast := by
  unfold TagPart.startAttribute
  cases hlast : t.attributes.getLast? with
  | none => simp [BlankOnlyLast]
  | some a =>
    dsimp only
    split
    · exact h
    · split
      · -- the blanks join the blank last attribute
        simpa [BlankOnlyLast] using h
      · -- a new blank attribute follows one that holds more than blanks
        rename_i hblank
        simpa [BlankOnlyLast] using h.of_getLast? hlast (by simpa using hblank)

/-- Finishing drops a blank last attribute, so no attribute is blank. -/
theorem BlankOnlyLast.finish : ∀ a ∈ t.finish.attributes, a.isBlank = false := by
  unfold TagPart.finish
  cases hlast : t.attributes.getLast? with
  | none =>
    intro a ha
    simp [List.getLast?_eq_none_iff.1 hlast] at ha
  | some a =>
    dsimp only
    split
    · exact h
    · rename_i hblank
      exact h.of_getLast? hlast (by simpa using hblank)

theorem BlankOnlyLast.close : ∀ a ∈ (t.close s).attributes, a.isBlank = false :=
  (show ({ t.pushRaw s with closed := true } : TagPart).BlankOnlyLast from h).finish

theorem BlankOnlyLast.tagToken (q : LexState) :
    (Template.Builder.tagToken q s t).BlankOnlyLast := by
  have hraw := h.pushRaw s
  unfold Template.Builder.tagToken
  cases q
  case tagName => exact hraw.pushName s
  case beforeAttributeName => exact hraw.startAttribute s
  case attributeName | afterAttributeName | beforeAttributeValue | attributeValueDoubleQuoted
    | attributeValueSingleQuoted | attributeValueUnquoted => exact hraw.updateCurrent _
  case selfClosingStartTag => exact hraw.setSelfClosing true
  all_goals exact hraw

end Ops

end TagPart

namespace Template

/-- A list of parts in the shape parsing leaves it. -/
structure PartsShaped (ps : List Part) : Prop where
  /-- No content part is a single empty string with no slot. -/
  no_blank_content : ∀ c, Part.content c ∈ ps → c.isBlank = false
  /-- No two content parts stand side by side. -/
  contents_apart : ps.IsChain fun p p' => p.isContent = false ∨ p'.isContent = false
  /-- Every tag but possibly the last part is closed by `>`. -/
  closed : ∀ t, Part.tag t ∈ ps.dropLast → t.closed = true
  /-- No tag has an attribute with no name, no `=` and no value. -/
  no_blank_attribute : ∀ t, Part.tag t ∈ ps → ∀ a ∈ t.attributes, a.isBlank = false

/-- Finished parts of a builder: no blank content, no two contents side by side, and every tag
closed and without a blank attribute. -/
structure Settled (ps : List Part) : Prop where
  content : ∀ c, Part.content c ∈ ps → c.isBlank = false
  apart : ps.IsChain fun p p' => p.isContent = false ∨ p'.isContent = false
  tag : ∀ t, Part.tag t ∈ ps → t.closed = true ∧ ∀ a ∈ t.attributes, a.isBlank = false

/-- Content may follow the parts: the last of them is no content. -/
def ContentMayFollow (ps : List Part) : Prop := ∀ p ∈ ps.getLast?, p.isContent = false

theorem settled_nil : Settled [] := ⟨by simp, .nil, by simp⟩

theorem contentMayFollow_nil : ContentMayFollow [] := by simp [ContentMayFollow]

theorem contentMayFollow_concat_tag (ps : List Part) (t : TagPart) :
    ContentMayFollow (ps ++ [.tag t]) := by
  simp [ContentMayFollow, Part.isContent]

section Settled
variable {ps : List Part} (h : Settled ps)
include h

theorem Settled.concat {p : Part}
    (hc : ∀ c, p = .content c → c.isBlank = false ∧ ContentMayFollow ps)
    (ht : ∀ t, p = .tag t → t.closed = true ∧ ∀ a ∈ t.attributes, a.isBlank = false) :
    Settled (ps ++ [p]) := by
  refine ⟨fun c hm => ?_, h.apart.append (.singleton _) fun x hx y hy => ?_, fun t hm => ?_⟩
  · rcases List.mem_append.1 hm with hm | hm
    · exact h.content c hm
    · exact (hc c (List.mem_singleton.1 hm).symm).1
  · obtain rfl : y = p := by simpa using hy.symm
    cases y with
    | content c => exact Or.inl ((hc c rfl).2 x hx)
    | tag t => exact Or.inr rfl
  · rcases List.mem_append.1 hm with hm | hm
    · exact h.tag t hm
    · exact ht t (List.mem_singleton.1 hm).symm

theorem Settled.concat_tag {t : TagPart} (hc : t.closed = true)
    (ha : ∀ a ∈ t.attributes, a.isBlank = false) : Settled (ps ++ [.tag t]) :=
  h.concat (fun c hc' => by cases hc') (fun t' ht' => by cases ht'; exact ⟨hc, ha⟩)

/-- Taking the last content part off leaves parts that end in no content. -/
theorem Settled.of_concat_content {ys : List Part} {c : ContentPart}
    (hps : ps = ys ++ [.content c]) : Settled ys ∧ ContentMayFollow ys := by
  subst hps
  have hch := List.isChain_append.1 h.apart
  refine ⟨⟨fun c' hc' => h.content c' (List.mem_append_left _ hc'), hch.1,
    fun t ht => h.tag t (List.mem_append_left _ ht)⟩, fun x hx => ?_⟩
  rcases hch.2.2 x hx (.content c) rfl with hx' | hx'
  · exact hx'
  · cases hx'

theorem Settled.partsShaped : PartsShaped ps :=
  ⟨h.content, h.apart, fun t ht => (h.tag t (List.mem_of_mem_dropLast ht)).1,
    fun t ht => (h.tag t ht).2⟩

/-- A last tag need not be closed. -/
theorem Settled.partsShaped_concat_tag {t : TagPart}
    (ha : ∀ a ∈ t.attributes, a.isBlank = false) : PartsShaped (ps ++ [.tag t]) := by
  refine ⟨fun c hc => ?_, h.apart.append (.singleton _) fun x _ y hy => ?_,
    fun t' ht' => ?_, fun t' ht' => ?_⟩
  · rcases List.mem_append.1 hc with hc | hc
    · exact h.content c hc
    · cases List.mem_singleton.1 hc
  · obtain rfl : y = .tag t := by simpa using hy.symm
    exact Or.inr rfl
  · rw [List.dropLast_concat] at ht'
    exact (h.tag t' ht').1
  · rcases List.mem_append.1 ht' with ht' | ht'
    · exact (h.tag t' ht').2
    · cases List.mem_singleton.1 ht'
      exact ha

end Settled

/-- Content that is not blank is kept after parts that end in no content. -/
theorem Settled.keepContent {parts : Array Part} (h : Settled parts.toList)
    (hf : ContentMayFollow parts.toList) (c : ContentPart) :
    Settled (Builder.keepContent parts c).toList := by
  unfold Builder.keepContent
  split
  · exact h
  · rename_i hblank
    rw [Array.toList_push]
    exact h.concat (fun c' hc' => by cases hc'; exact ⟨by simpa using hblank, hf⟩)
      (fun t ht => by cases ht)

namespace Builder

/-- What the part being built needs, after a token of state `prev` with the scanner going on in
`q`, with the finished parts `ps` before it: content, or nothing yet, follows parts that end in
no content; a tag is built only while the scanner reads no text, and only its last attribute
can be blank. -/
def PendingShaped (prev q : LexState) (ps : List Part) : Pending → Prop
  | .idle => ContentMayFollow ps
  | .content _ => ContentMayFollow ps
  | .tag t => ¬ReadsContent prev q ∧ t.BlankOnlyLast

/-- A builder after a token of state `prev`, with the scanner going on in `q`: its finished
parts are settled, and the part it builds can join them as `PendingShaped` says. -/
structure Shaped (prev q : LexState) (b : Builder) : Prop where
  parts : Settled b.parts.toList
  pending : PendingShaped prev q b.parts.toList b.pending

theorem shaped_empty : ({} : Builder).Shaped .content .content :=
  ⟨settled_nil, contentMayFollow_nil⟩

section Ops
variable {prev q : LexState} {b : Builder}

/-- Where the scanner reads text, the builder holds no tag. -/
theorem Shaped.not_tag (h : b.Shaped prev q) (hq : ReadsContent prev q) (t : TagPart) :
    b.pending ≠ .tag t := by
  intro hp
  have hpend := h.pending
  rw [hp] at hpend
  exact hpend.1 hq

theorem Shaped.contentMayFollow (h : b.Shaped prev q) (hp : ∀ t, b.pending ≠ .tag t) :
    ContentMayFollow b.parts.toList := by
  have hpend := h.pending
  cases hb : b.pending with
  | idle => rw [hb] at hpend; exact hpend
  | content c => rw [hb] at hpend; exact hpend
  | tag t => exact absurd hb (hp t)

theorem Shaped.onContent (h : b.Shaped prev q) (hp : ∀ t, b.pending ≠ .tag t)
    (f : ContentPart → ContentPart) (l n : LexState) : (b.onContent f).Shaped l n := by
  have hf := h.contentMayFollow hp
  unfold Builder.onContent
  split
  · exact ⟨h.parts, hf⟩
  · rename_i t hb
    exact absurd hb (hp t)
  · exact ⟨h.parts, hf⟩

/-- Working on the tag leaves the finished parts settled and builds a tag whose only blank
attribute can be the last. -/
theorem Shaped.onTag_eq (h : b.Shaped prev q) (f : TagPart → TagPart) :
    ∃ t, t.BlankOnlyLast ∧ Settled (b.onTag f).parts.toList ∧
      (b.onTag f).pending = .tag (f t) := by
  have hpend := h.pending
  unfold Builder.onTag
  split
  · rename_i t hb
    rw [hb] at hpend
    exact ⟨t, hpend.2, h.parts, rfl⟩
  · rename_i c hb
    rw [hb] at hpend
    exact ⟨{}, TagPart.blankOnlyLast_default, h.parts.keepContent hpend c, rfl⟩
  · exact ⟨{}, TagPart.blankOnlyLast_default, h.parts, rfl⟩

theorem Shaped.onTag (h : b.Shaped prev q) {f : TagPart → TagPart}
    (hf : ∀ t, t.BlankOnlyLast → (f t).BlankOnlyLast) {l n : LexState}
    (hn : ¬ReadsContent l n) : (b.onTag f).Shaped l n := by
  obtain ⟨t, ht, hparts, hp⟩ := h.onTag_eq f
  refine ⟨hparts, ?_⟩
  rw [hp]
  exact ⟨hn, hf t ht⟩

/-- A `<` finishes the content before it and opens a tag. -/
theorem Shaped.tagOpen (h : b.Shaped prev q) (hp : ∀ t, b.pending ≠ .tag t) (text : String)
    {n : LexState} (hn : n ∈ LexState.tagOpen.successors) :
    ({ b.flush with pending := .tag (TagPart.opened text) } : Builder).Shaped .tagOpen n := by
  have hf := h.contentMayFollow hp
  refine ⟨?_, LexState.not_readsContent_of_tag hn (by decide),
    TagPart.blankOnlyLast_opened text⟩
  unfold Builder.flush
  split
  · rename_i c hb
    exact h.parts.keepContent hf c
  · rename_i t hb
    exact absurd hb (hp t)
  · exact h.parts

/-- `>` finishes the tag, closed and with no blank attribute, and starts blank content after
it. -/
theorem Shaped.close (h : b.Shaped prev q) (text : String) (l n : LexState) :
    ({ (b.onTag (·.close text)).flush with pending := .content {} } : Builder).Shaped l n := by
  obtain ⟨t, ht, hparts, hp⟩ := h.onTag_eq (·.close text)
  have hflush : (b.onTag (·.close text)).flush.parts =
      (b.onTag (·.close text)).parts.push (.tag (t.close text)) := by
    simp [flush, hp]
  refine ⟨?_, ?_⟩
  · rw [hflush, Array.toList_push]
    exact hparts.concat_tag (TagPart.closed_close t text) (ht.close text)
  · show ContentMayFollow _
    rw [hflush, Array.toList_push]
    exact contentMayFollow_concat_tag _ _

/-- With nothing pending, the content at the end of the finished parts is opened again; either
way, content may follow what stays finished. -/
theorem shaped_reopen {b : Builder} (hparts : Settled b.parts.toList) (hp : b.pending = .idle)
    (l n : LexState) : (reopen b).Shaped l n := by
  cases hback : b.parts.back? with
  | none =>
    have he : b.parts.toList = [] := by simpa [Array.back?_eq_none_iff] using hback
    have heq : reopen b = b := by simp [reopen, hp, hback]
    rw [heq]
    refine ⟨hparts, ?_⟩
    rw [hp, he]
    exact contentMayFollow_nil
  | some p =>
    obtain ⟨ys, hys⟩ := Array.back?_eq_some_iff.1 hback
    cases p with
    | content c =>
      have heq : reopen b = { parts := ys, pending := .content c } := by simp [reopen, hp, hys]
      rw [heq]
      obtain ⟨hys', hf⟩ := hparts.of_concat_content (by rw [hys, Array.toList_push])
      exact ⟨hys', hf⟩
    | tag t =>
      have heq : reopen b = b := by simp [reopen, hp, hback]
      rw [heq]
      refine ⟨hparts, ?_⟩
      rw [hp, hys, Array.toList_push]
      exact contentMayFollow_concat_tag _ _

/-- A `<` that starts no tag goes back into the content it interrupted. -/
theorem Shaped.fold (h : b.Shaped prev q) (l n : LexState) : b.fold.1.Shaped l n := by
  -- the tag is dropped, so the reopened builder holds no tag and may as well be read in text
  have hreopen : (reopen b.dropTag.2).Shaped .content .content := by
    unfold dropTag
    split
    · exact shaped_reopen (show Settled ({ b with pending := .idle } : Builder).parts.toList
        from h.parts) rfl _ _
    · rename_i hb
      cases hp : b.pending with
      | idle => exact shaped_reopen h.parts hp _ _
      | content c =>
        have heq : reopen b = b := by simp [reopen, hp]
        rw [heq]
        exact ⟨h.parts, by simpa [hp, PendingShaped] using h.pending⟩
      | tag t => exact absurd hp (hb t)
  rw [fold_eq]
  exact hreopen.onContent (hreopen.not_tag (Or.inl rfl)) _ l n

theorem Shaped.token (h : b.Shaped prev q) (hq : q ≠ .atEnd) {l n : LexState}
    (hl : l = q ∨ q = .afterAttributeName ∧ l = .beforeAttributeName) (text : String)
    (hn : n ∈ l.successors) : (b.token l text).1.Shaped l n := by
  have hlq : l ≠ .beforeAttributeName → q = l := by
    rintro hne
    rcases hl with hl | ⟨-, hl⟩
    · exact hl.symm
    · exact absurd hl hne
  cases l
  case content =>
    obtain rfl := hlq (by decide)
    exact h.onContent (h.not_tag (Or.inl rfl)) _ _ _
  case tagOpen =>
    obtain rfl := hlq (by decide)
    exact h.tagOpen (h.not_tag (Or.inr (Or.inl rfl))) text hn
  case illegal => exact h.fold _ _
  case tagClose => exact h.close text _ _
  case atEnd => exact absurd (hlq (by decide)) hq
  -- every other token extends the tag being built, and the scanner reads on in the tag
  all_goals
    exact h.onTag (fun t ht => ht.tagToken text _)
      (LexState.not_readsContent_of_tag hn (by decide))

/-- A value at the end of a literal goes where the live state stood, and keeps the builder
shaped. -/
theorem Shaped.slot (h : b.Shaped prev .atEnd) (hlive : prev.isLive = true) :
    (b.slot prev).1.Shaped prev prev := by
  cases prev
  case content => exact h.onContent (h.not_tag (Or.inr (Or.inr ⟨rfl, rfl⟩))) _ _ _
  case tagName => exact h.onTag (fun t ht => ht.addNameSlot) (by simp [ReadsContent])
  case beforeAttributeName | attributeName | attributeValueDoubleQuoted
    | attributeValueSingleQuoted | attributeValueUnquoted =>
    exact h.onTag (fun t ht => ht.updateCurrent _) (by simp [ReadsContent])
  all_goals cases hlive

/-- Along a walk of events, the builder stays shaped. -/
theorem Shaped.foldl_feed {last : LexState} {es : List LexEvent} (hw : Walk last prev q es)
    (h : b.Shaped prev q) : (es.foldl (fun b e => (b.feed e).1) b).Shaped last .atEnd := by
  induction es generalizing prev q b with
  | nil =>
    obtain ⟨rfl, rfl⟩ := hw
    exact h
  | cons e es ih =>
    cases e with
    | token i l text =>
      obtain ⟨hq, hl, n, hfit, hw'⟩ := hw
      exact ih hw' (h.token hq hl text hfit.next_mem)
    | slot i live =>
      obtain ⟨rfl, rfl, hlive, hw'⟩ := hw
      exact ih hw' (h.slot hlive)

/-- Once the events are in, a pending tag drops a blank last attribute and ends the parts, and
pending content joins them unless it is blank. -/
theorem Shaped.finish (h : b.Shaped prev q) : PartsShaped b.finish := by
  have hpend := h.pending
  rw [finish_eq]
  cases hb : b.pending with
  | idle =>
    have heq : b.finishTag.flush.parts = b.parts := by simp [finishTag, flush, hb]
    rw [heq]
    exact h.parts.partsShaped
  | content c =>
    rw [hb] at hpend
    have heq : b.finishTag.flush.parts = keepContent b.parts c := by simp [finishTag, flush, hb]
    rw [heq]
    exact (h.parts.keepContent hpend c).partsShaped
  | tag t =>
    rw [hb] at hpend
    have heq : b.finishTag.flush.parts = b.parts.push (.tag t.finish) := by
      simp [finishTag, flush, hb]
    rw [heq, Array.toList_push]
    exact h.parts.partsShaped_concat_tag hpend.2.finish

end Ops

end Builder

/-- The parts of any literals are in shape: no content part is blank (a single empty string
and no slot); no two content parts stand side by side, since a `<` that starts no tag goes back
into the content around it; every tag but possibly the last part is closed by `>`; and no tag
keeps a blank attribute, one with no name, no `=` and no value. -/
theorem parsed_parts_shaped (lits : List String) :
    ∃ parts, parseLiterals lits = .ok parts ∧ PartsShaped parts := by
  cases lits with
  | nil =>
    refine ⟨[], ?_, settled_nil.partsShaped⟩
    rw [parseLiterals, tokenizeLiterals, scanLiterals, scanFrom, eventsOf]
    rfl
  | cons lit rest =>
    obtain ⟨events, hev, hwalk, -⟩ := walk_tokenizeLiterals (List.cons_ne_nil lit rest)
    refine ⟨partsOfEvents events, by rw [parseLiterals, hev]; rfl, ?_⟩
    exact (Builder.shaped_empty.foldl_feed hwalk).finish

/-- A `<` that starts no tag joins the content after the tag before it, across a slot. -/
example : parseLiterals ["<p>x", "<1"] = .ok
    [.tag { raw := "<p>", name := [.text "p"], closed := true }, .content ⟨["x", "<1"]⟩] := by
  cbv

end Template

end HtmlTemplates
