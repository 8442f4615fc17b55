import Mathlib
import HtmlTemplates.Proofs.EscapePieces
import HtmlTemplates.Proofs.Template.Reading
/-!
Compiling a template with plain values puts their texts between its literals.

Parsing takes the events of the literals one by one. `Builder.Spelled prev q b ts s` says that
the builder `b`, after a token of state `prev` with the scanner going on in `q`, has taken the
texts `ts` and spells `s`: its finished parts spell a first piece of `s` with their slices of the
texts, and the part it builds spells the rest (`Builder.PendingSpelled`). Each token and each
slot keeps this (`Spelled.token`, `Spelled.slot`), and so does a whole walk of events
(`Spelled.foldl_feed`). At the end, a pending tag that takes values is rebuilt. Its rebuilt text
closes a quoted value the literals left open, and that quote is all the rendering adds
(`Template.compile_make_interleave`). So a value whose text needs no escaping renders as if
that text were joined into the literal around it (`Template.compile_insert_value`).
-/
namespace HtmlTemplates

open HtmlTemplates.Markup

namespace Markup

theorem interleave_cons {l : String} {ls : List String} (h : ls ≠ []) (vs : List String) :
    interleave (l :: ls) vs = l ++ vs.headD "" ++ interleave ls vs.tail := by
  cases ls with
  | nil => exact absurd rfl h
  | cons _ _ => rfl

theorem interleave_concat_append (init : List String) (last x : String) (vs : List String) :
    interleave (init ++ [last ++ x]) vs = interleave (init ++ [last]) vs ++ x := by
  induction init generalizing vs with
  | nil => rfl
  | cons l init ih =>
    rw [List.cons_append, List.cons_append, interleave_cons (by simp), interleave_cons (by simp),
      ih]
    simp only [String.append_assoc]

theorem interleave_concat_slot {ss : List String} (hss : ss ≠ []) {vs : List String}
    (hvs : vs.length = ss.length - 1) (v : String) :
    interleave (ss ++ [""]) (vs ++ [v]) = interleave ss vs ++ v := by
  induction ss generalizing vs with
  | nil => exact absurd rfl hss
  | cons l ls ih =>
    cases ls with
    | nil =>
      have hv : vs = [] := List.length_eq_zero_iff.1 (by simpa using hvs)
      subst hv
      simp [interleave]
    | cons l' ls =>
      obtain ⟨w, ws, rfl⟩ := List.exists_cons_of_length_pos (by simp at hvs; omega : 0 < vs.length)
      have ih' := ih (by simp) (by simpa using hvs : ws.length = (l' :: ls).length - 1)
      show interleave (l :: (l' :: ls ++ [""])) (w :: (ws ++ [v])) = _
      rw [interleave_cons (by simp), interleave_cons (l := l) (by simp)]
      simp only [List.headD_cons, List.tail_cons, ih', String.append_assoc]

theorem interleave_cons_append (x y : String) (ls vs : List String) :
    interleave ((x ++ y) :: ls) vs = x ++ interleave (y :: ls) vs := by
  cases ls with
  | nil => rfl
  | cons l ls => simp only [interleave_cons (List.cons_ne_nil l ls), String.append_assoc]

/-- A text between two literals reads the same as that text joined into one literal. -/
theorem interleave_join {ls₁ ts₁ : List String} (h : ts₁.length = ls₁.length)
    (a w b : String) (ls₂ ts₂ : List String) :
    interleave (ls₁ ++ a :: b :: ls₂) (ts₁ ++ w :: ts₂) =
      interleave (ls₁ ++ (a ++ w ++ b) :: ls₂) (ts₁ ++ ts₂) := by
  induction ls₁ generalizing ts₁ with
  | nil =>
    obtain rfl : ts₁ = [] := List.length_eq_zero_iff.1 h
    simp only [List.nil_append]
    rw [interleave_cons (List.cons_ne_nil b ls₂), interleave_cons_append]
    simp only [List.headD_cons, List.tail_cons]
  | cons l ls₁ ih =>
    obtain ⟨t, ts₁, rfl⟩ := List.exists_cons_of_length_pos (by simp [h] : 0 < ts₁.length)
    simp only [List.cons_append]
    rw [interleave_cons (by simp), interleave_cons (by simp), List.headD_cons, List.headD_cons,
      List.tail_cons, List.tail_cons, ih (by simpa using h)]

end Markup

namespace ContentPart

theorem interleave_pushText {c : ContentPart} (hc : c.strings ≠ []) (vs : List String)
    (x : String) : interleave (c.pushText x).strings vs = interleave c.strings vs ++ x := by
  obtain ⟨last, hlast⟩ := Option.ne_none_iff_exists'.1 (mt List.getLast?_eq_none_iff.1 hc)
  obtain ⟨init, hinit⟩ := List.getLast?_eq_some_iff.1 hlast
  unfold pushText
  rw [hlast]
  dsimp only
  rw [hinit, List.dropLast_concat, interleave_concat_append]

theorem interleave_addSlot {c : ContentPart} (hc : c.strings ≠ []) {vs : List String}
    (hvs : vs.length = c.slots) (v : String) :
    interleave c.addSlot.strings (vs ++ [v]) = interleave c.strings vs ++ v :=
  interleave_concat_slot hc hvs v

end ContentPart

namespace Part

theorem listText_concat {ps : List Part} {p : Part} {ts : List String}
    (hlen : ts.length ≤ (ps.map slots).sum + p.slots) :
    listText (ps ++ [p]) ts = listText ps ts ++ p.text (ts.drop (ps.map slots).sum) := by
  rw [listText, listText, zip_splitAmong_append, List.take_of_length_le (by simp; omega)]
  simp

theorem listText_append_right (ps : List Part) {ts : List String} (extra : List String)
    (h : (ps.map slots).sum ≤ ts.length) : listText ps (ts ++ extra) = listText ps ts := by
  rw [listText, listText, zip_splitAmong_append_right _ _ _ _ h]

/-- The quote that follows the text of parts read up to the state `last`: a last tag that takes
values is rebuilt, and its text closes the value it was reading. -/
def addedQuote (ps : List Part) (last : LexState) : String :=
  match ps.getLast? with
  | some (.tag t) => if t.slots = 0 then "" else last.quote.text
  | _ => ""

theorem addedQuote_content (ps : List Part) : addedQuote ps .content = "" := by
  unfold addedQuote
  split
  · split <;> rfl
  · rfl

theorem addedQuote_concat_tag (ps : List Part) (t : TagPart) (last : LexState) :
    addedQuote (ps ++ [.tag t]) last = if t.slots = 0 then "" else last.quote.text := by
  simp [addedQuote]

end Part

namespace TagPart

@[simp] theorem raw_finish (t : TagPart) : t.finish.raw = t.raw := by
  unfold finish
  split
  · split <;> rfl
  · rfl

@[simp] theorem raw_close (t : TagPart) (s : String) : (t.close s).raw = t.raw ++ s := by
  simp [close, pushRaw]

end TagPart

open LexState in
theorem TagSpelled.opened {text : String} (htext : text = "<" ∨ text = "</") {n : LexState}
    (hn : n ∈ tagOpen.successors) : TagSpelled .tagOpen n (TagPart.opened text) [] text := by
  have hq : openQuote .tagOpen n = .unquoted := by simp [openQuote, quote]
  refine ⟨rfl, fun _ => rfl, ?_, ⟨rfl, rfl, fun a ha => by cases ha⟩, ?_⟩
  · rcases htext with rfl | rfl <;>
      simp [TagPart.rebuild, TagPart.opened, hq, Fragment.fillText, Attribute.listText,
        splitAmong, Quote.text]
  · simp only [successors, List.mem_cons, List.not_mem_nil, or_false] at hn
    rcases hn with rfl | rfl
    · exact ⟨rfl, rfl⟩
    · rfl

namespace Template.Builder

/-- What the part being built spells with the texts `ts`, after a token of state `prev` with
the scanner going on in `q`: nothing before the first token, content its strings with the texts
between them, and a tag as `TagSpelled` says. -/
def PendingSpelled (prev q : LexState) : Pending → List String → String → Prop
  | .idle, ts, s => prev = .content ∧ q = .content ∧ ts = [] ∧ s = ""
  | .content c, ts, s =>
    (q = .content ∨ q = .tagOpen ∨ q = .atEnd ∧ prev = .content) ∧ ts.length = c.slots ∧
      interleave c.strings ts = s
  | .tag t, ts, s => TagSpelled prev q t ts s

/-- The builder `b`, after a token of state `prev` with the scanner going on in `q`, has taken
the texts `ts` and spells `s`: its finished parts spell the start of `s` with the first texts,
and the part being built the rest with the texts after them. -/
structure Spelled (prev q : LexState) (b : Builder) (ts : List String) (s : String) : Prop where
  follows : LexState.Follows prev q
  wellFormed : b.WellFormed
  taken : (b.parts.toList.map Part.slots).sum ≤ ts.length
  spelled : ∃ rest, s = Part.listText b.parts.toList ts ++ rest ∧
    PendingSpelled prev q b.pending (ts.drop (b.parts.toList.map Part.slots).sum) rest

theorem spelled_empty : Spelled .content .content {} [] "" where
  follows := .resume rfl
  wellFormed := wellFormed_empty
  taken := le_refl _
  spelled := ⟨"", rfl, rfl, rfl, rfl, rfl⟩

theorem listText_keepContent (parts : Array Part) (c : ContentPart) {ts : List String}
    (hlen : ts.length ≤ (parts.toList.map Part.slots).sum + c.slots) :
    Part.listText (keepContent parts c).toList ts =
      Part.listText parts.toList ts ++ interleave c.strings (ts.drop (parts.toList.map Part.slots).sum) := by
  unfold keepContent
  split
  · rename_i hb
    have hs : c.strings = [""] := by simpa [ContentPart.isBlank] using hb
    simp [hs, interleave]
  · rw [Array.toList_push, Part.listText_concat hlen]
    rfl

theorem onTag_of_tag {b : Builder} {t : TagPart} (hb : b.pending = .tag t) (f : TagPart → TagPart) :
    b.onTag f = { b with pending := .tag (f t) } := by
  simp [onTag, hb]

theorem onContent_of_content {b : Builder} {c : ContentPart} (hb : b.pending = .content c)
    (f : ContentPart → ContentPart) : b.onContent f = { b with pending := .content (f c) } := by
  simp [onContent, hb]

namespace Spelled

variable {prev q : LexState} {b : Builder} {ts : List String} {s : String}

/-- Where the scanner reads on inside a tag, the builder builds a tag. -/
theorem pending_tag (h : Spelled prev q b ts s)
    (hq : ¬(q = .content ∨ q = .tagOpen ∨ q = .atEnd ∧ prev = .content)) :
    ∃ t rest, b.pending = .tag t ∧ s = Part.listText b.parts.toList ts ++ rest ∧
      TagSpelled prev q t (ts.drop (b.parts.toList.map Part.slots).sum) rest := by
  obtain ⟨rest, hs, hp⟩ := h.spelled
  cases hb : b.pending with
  | idle =>
    rw [hb] at hp
    exact absurd (Or.inl hp.2.1) hq
  | content c =>
    rw [hb] at hp
    exact absurd hp.1 hq
  | tag t =>
    rw [hb] at hp
    exact ⟨t, rest, rfl, hs, hp⟩

theorem not_tag (h : Spelled prev .content b ts s) (t : TagPart) : b.pending ≠ .tag t := by
  intro hb
  obtain ⟨rest, -, hp⟩ := h.spelled
  rw [hb] at hp
  have hshape := hp.shape
  cases prev <;> exact hshape

/-- After `<` is found, and where a literal ends in content, the builder builds content. -/
theorem pending_content (h : Spelled prev q b ts s)
    (hq : q = .tagOpen ∨ q = .atEnd ∧ prev = .content) :
    ∃ c, b.pending = .content c ∧
      s = Part.listText b.parts.toList ts ++
        interleave c.strings (ts.drop (b.parts.toList.map Part.slots).sum) ∧
      (ts.drop (b.parts.toList.map Part.slots).sum).length = c.slots := by
  obtain ⟨rest, hs, hp⟩ := h.spelled
  cases hb : b.pending with
  | idle =>
    rw [hb] at hp
    rcases hq with rfl | ⟨rfl, -⟩ <;> exact absurd hp.2.1 (by decide)
  | content c =>
    rw [hb] at hp
    obtain ⟨-, hlen, rfl⟩ := hp
    exact ⟨c, rfl, hs, hlen⟩
  | tag t =>
    rw [hb] at hp
    have hshape := hp.shape
    rcases hq with rfl | ⟨rfl, rfl⟩
    · cases prev <;> exact hshape.elim
    · exact hshape.elim

theorem content (h : Spelled prev .content b ts s) {n : LexState}
    (hn : n ∈ LexState.content.successors) (text : String) :
    Spelled .content n (b.onContent (·.pushText text)) ts (s ++ text) := by
  have hwf := wellFormed_onContent (f := (·.pushText text))
    (fun c hc => ContentPart.strings_pushText_ne_nil hc _) h.wellFormed
  have hq : n = .content ∨ n = .tagOpen ∨ n = .atEnd ∧ LexState.content = .content := by
    simp only [LexState.successors, List.mem_cons, List.not_mem_nil, or_false] at hn
    rcases hn with rfl | rfl <;> simp
  obtain ⟨rest, hs, hp⟩ := h.spelled
  cases hb : b.pending with
  | idle =>
    rw [hb] at hp
    obtain ⟨-, -, hts, rfl⟩ := hp
    have hb' : b.onContent (·.pushText text) = { b with pending := .content (({} : ContentPart).pushText text) } := by
      simp [onContent, hb]
    rw [hb'] at hwf ⊢
    refine ⟨.of_mem hn, hwf, h.taken, text, by simp [hs], hq, by simp [hts], ?_⟩
    rw [hts, ContentPart.interleave_pushText (by simp)]
    rfl
  | content c =>
    rw [hb] at hp
    obtain ⟨-, hlen, rfl⟩ := hp
    rw [onContent_of_content hb] at hwf ⊢
    refine ⟨.of_mem hn, hwf, h.taken, _, by rw [hs, String.append_assoc], hq, by simpa using hlen,
      ContentPart.interleave_pushText (h.wellFormed.pending c hb) _ _⟩
  | tag t => exact absurd hb (h.not_tag t)

theorem tagOpen (h : Spelled prev .tagOpen b ts s) {n : LexState}
    (hn : n ∈ LexState.tagOpen.successors) {text : String} (htext : text = "<" ∨ text = "</") :
    Spelled .tagOpen n { b.flush with pending := .tag (TagPart.opened text) } ts (s ++ text) := by
  obtain ⟨c, hb, hs, hlen⟩ := h.pending_content (Or.inl rfl)
  have hwf := wellFormed_flush_with (p := .tag (TagPart.opened text)) h.wellFormed
    (fun c h => by cases h)
  have hflush : ({ b.flush with pending := .tag (TagPart.opened text) } : Builder) =
      { parts := keepContent b.parts c, pending := .tag (TagPart.opened text) } := by
    simp [flush, hb]
  have hlen' : ts.length = (b.parts.toList.map Part.slots).sum + c.slots := by
    have := h.taken
    simp only [List.length_drop] at hlen
    omega
  have hsum : ((keepContent b.parts c).toList.map Part.slots).sum = ts.length := by
    rw [sum_keepContent, hlen']
  rw [hflush] at hwf ⊢
  refine ⟨.of_mem hn, hwf, hsum.le, text, ?_, ?_⟩
  · simp only [listText_keepContent b.parts c hlen'.le, hs, String.append_assoc]
  · simp only [hsum, List.drop_length]
    exact TagSpelled.opened htext hn

/-- A `<` that starts no tag goes back into the content before it, and the builder still
spells the same text. -/
theorem fold (h : Spelled prev .illegal b ts s) : Spelled .illegal .content b.fold.1 ts s := by
  obtain ⟨t, rest, hb, hs, ht⟩ := h.pending_tag (by simp)
  have h0 : t.slots = 0 := ht.shape
  have hraw : t.raw = rest := ht.raw h0
  have hwf := (slots_fold (fun t' ht' => by rw [hb] at ht'; cases ht'; exact h0) h.wellFormed).2
  have hlen : ts.length = (b.parts.toList.map Part.slots).sum := by
    have hc := ht.count
    have := h.taken
    simp only [List.length_drop, h0] at hc
    omega
  -- no content before the `<`: the text starts new content
  have hfresh : b.fold.1 = { parts := b.parts, pending := .content (({} : ContentPart).pushText t.raw) } →
      Spelled .illegal .content b.fold.1 ts s := by
    intro heq
    rw [heq] at hwf ⊢
    refine ⟨.of_mem (by simp [LexState.successors]), hwf, h.taken, rest, hs, Or.inl rfl, ?_, ?_⟩
    · simp [hlen]
    · rw [ContentPart.interleave_pushText (by simp), hraw]
      simp [interleave]
  cases hback : b.parts.back? with
  | none => exact hfresh (by simp [fold_eq, dropTag, hb, reopen, hback, onContent])
  | some p =>
    cases p with
    | tag t' => exact hfresh (by simp [fold_eq, dropTag, hb, reopen, hback, onContent])
    | content c =>
      obtain ⟨ys, hys⟩ := Array.back?_eq_some_iff.1 hback
      have heq : b.fold.1 = { parts := ys, pending := .content (c.pushText t.raw) } := by
        simp [fold_eq, dropTag, hb, reopen, hys, onContent]
      have hc : c.strings ≠ [] := h.wellFormed.parts c (by simp [hys])
      have hlen' : ts.length = (ys.toList.map Part.slots).sum + c.slots := by
        simp [hlen, hys, Part.slots]
      rw [heq] at hwf ⊢
      refine ⟨.of_mem (by simp [LexState.successors]), hwf, show (ys.toList.map Part.slots).sum ≤ ts.length by omega, _, ?_,
        Or.inl rfl, ?_, rfl⟩
      · rw [hs, hys, Array.toList_push, Part.listText_concat hlen'.le, Part.text,
          ContentPart.interleave_pushText hc, hraw, String.append_assoc]
      · simp [hlen']

/-- `>` ends the tag, which joins the finished parts, and starts blank content. -/
theorem close (h : Spelled prev .tagClose b ts s) {text : String} (htext : text = ">") :
    Spelled .tagClose .content { (b.onTag (·.close text)).flush with pending := .content {} } ts
      (s ++ text) := by
  obtain ⟨t, rest, hb, hs, ht⟩ := h.pending_tag (by simp)
  have hwf := wellFormed_flush_with (p := .content {})
    (wellFormed_onTag (f := (·.close text)) h.wellFormed) (fun c hc => by cases hc; simp)
  have heq : ({ (b.onTag (·.close text)).flush with pending := .content {} } : Builder) =
      { parts := b.parts.push (.tag (t.close text)), pending := .content {} } := by
    simp [onTag, hb, flush]
  have hlen : ts.length = (b.parts.toList.map Part.slots).sum + t.slots := by
    have hc := ht.count
    have := h.taken
    simp only [List.length_drop] at hc
    omega
  have hsum : ((b.parts.push (.tag (t.close text))).toList.map Part.slots).sum = ts.length := by
    simp [Part.slots, hlen]
  have hq := LexState.openQuote_eq_unquoted h.follows rfl (by decide) (by decide)
  -- the closed tag is the text read so far and `>`, rebuilt or not
  have htag : Part.text (.tag (t.close text)) (ts.drop (b.parts.toList.map Part.slots).sum) =
      rest ++ text := by
    simp only [Part.text, TagPart.slots_close]
    split
    · rename_i h0
      rw [TagPart.raw_close, ht.raw h0]
    · rw [TagPart.rebuild_close ht.unfinished, ht.rebuild, hq, htext]
      simp [Quote.text]
  rw [heq] at hwf ⊢
  refine ⟨.of_mem (by simp [LexState.successors]), hwf, hsum.le, "", ?_, ?_⟩
  · rw [Array.toList_push, Part.listText_concat (by simp [Part.slots, hlen]), htag, hs,
      String.append_empty, String.append_assoc]
  · simp only [hsum, List.drop_length]
    exact ⟨Or.inl rfl, rfl, rfl⟩

/-- A step that grows the tag being built, taking the texts `extra` and spelling `s'`, keeps
the builder spelled when it keeps the tag spelled. -/
theorem growTag (h : Spelled prev q b ts s)
    (hq : ¬(q = .content ∨ q = .tagOpen ∨ q = .atEnd ∧ prev = .content))
    {f : TagPart → TagPart} {l n : LexState} (extra : List String) {s' : String}
    (step : ∀ {t tsP rest}, TagSpelled prev q t tsP rest →
      TagSpelled l n (f t) (tsP ++ extra) (rest ++ s'))
    (hf : LexState.Follows l n) : Spelled l n (b.onTag f) (ts ++ extra) (s ++ s') := by
  obtain ⟨t, rest, hb, hs, ht⟩ := h.pending_tag hq
  rw [onTag_of_tag hb]
  refine ⟨hf, ⟨h.wellFormed.parts, fun c hc => by cases hc⟩, ?_, rest ++ s', ?_, ?_⟩
  · simp only [List.length_append]
    exact le_add_right h.taken
  · rw [Part.listText_append_right _ _ h.taken, hs, String.append_assoc]
  · rw [List.drop_append_of_le_length h.taken]
    exact step ht

theorem readTag (h : Spelled prev q b ts s)
    (hq : ¬(q = .content ∨ q = .tagOpen ∨ q = .atEnd ∧ prev = .content))
    {f : TagPart → TagPart} {l n : LexState} {text : String}
    (step : ∀ {t tsP rest}, TagSpelled prev q t tsP rest → TagSpelled l n (f t) tsP (rest ++ text))
    (hf : LexState.Follows l n) : Spelled l n (b.onTag f) ts (s ++ text) := by
  have h' := h.growTag hq [] (fun ht => by rw [List.append_nil]; exact step ht) hf
  rwa [List.append_nil] at h'

/-- A token keeps the builder spelled, its text appended. -/
theorem token (h : Spelled prev q b ts s) (hq : q ≠ .atEnd) {l n : LexState}
    (hl : l = q ∨ q = .afterAttributeName ∧ l = .beforeAttributeName) {text : String}
    (hfit : ReadToken.Fits prev ⟨l, text, n⟩) : Spelled l n (b.token l text).1 ts (s ++ text) := by
  have hn : n ∈ l.successors := hfit.next_mem
  have hlq : l ≠ .beforeAttributeName → q = l := by
    rintro hne
    rcases hl with hl | ⟨-, hl⟩
    · exact hl.symm
    · exact absurd hl hne
  cases l
  case content =>
    obtain rfl := hlq (by decide)
    exact h.content hn text
  case tagOpen =>
    obtain rfl := hlq (by decide)
    exact h.tagOpen hn (hfit.tagOpen rfl)
  case illegal =>
    obtain rfl := hlq (by decide)
    obtain rfl : text = "" := hfit.illegal rfl
    obtain rfl : n = .content := by simpa [LexState.successors] using hn
    rw [String.append_empty]
    exact h.fold
  case tagClose =>
    obtain rfl := hlq (by decide)
    obtain rfl : n = .content := by simpa [LexState.successors] using hn
    exact h.close (hfit.tagClose rfl)
  case atEnd => exact absurd (hlq (by decide)) hq
  -- every other token extends the tag being built
  case tagName =>
    obtain rfl := hlq (by decide)
    exact h.readTag (by simp) (fun ht => ht.tagName h.follows hn text) (.of_mem hn)
  case beforeAttributeName =>
    have hq' : q = .beforeAttributeName ∨ q = .afterAttributeName := by
      rcases hl with hl | ⟨hl, -⟩
      · exact Or.inl hl.symm
      · exact Or.inr hl
    exact h.readTag (by rcases hq' with rfl | rfl <;> simp)
      (fun ht => ht.beforeAttributeName h.follows hq' hn text) (.of_mem hn)
  case attributeName =>
    obtain rfl := hlq (by decide)
    exact h.readTag (by simp) (fun ht => ht.attributeName h.follows hn text) (.of_mem hn)
  case afterAttributeName =>
    obtain rfl := hlq (by decide)
    obtain rfl : n = .beforeAttributeValue := by simpa [LexState.successors] using hn
    exact h.readTag (by simp) (fun ht => ht.afterAttributeName h.follows (hfit.equals rfl))
      (.of_mem hn)
  case beforeAttributeValue =>
    obtain rfl := hlq (by decide)
    exact h.readTag (by simp)
      (fun ht => ht.beforeAttributeValue h.follows hn (hfit.openingQuote rfl)) (.of_mem hn)
  case attributeValueDoubleQuoted =>
    obtain rfl := hlq (by decide)
    exact h.readTag (by simp) (fun ht => ht.quotedValue h.follows (Or.inl rfl) hn text)
      (.of_mem hn)
  case attributeValueSingleQuoted =>
    obtain rfl := hlq (by decide)
    exact h.readTag (by simp) (fun ht => ht.quotedValue h.follows (Or.inr rfl) hn text)
      (.of_mem hn)
  case attributeValueUnquoted =>
    obtain rfl := hlq (by decide)
    exact h.readTag (by simp) (fun ht => ht.unquotedValue h.follows hn text) (.of_mem hn)
  case afterAttributeValueQuoted =>
    obtain rfl := hlq (by decide)
    exact h.readTag (by simp) (fun ht => ht.afterQuotedValue h.follows (hfit.closingQuote rfl) hn)
      (.of_mem hn)
  case selfClosingStartTag =>
    obtain rfl := hlq (by decide)
    exact h.readTag (by simp)
      (fun ht => ht.selfClosingStartTag h.follows (hfit.selfClosing rfl) hn) (.of_mem hn)

theorem contentSlot (h : Spelled .content .atEnd b ts s) (v : String) :
    Spelled .content .content (b.onContent (·.addSlot)) (ts ++ [v]) (s ++ v) := by
  obtain ⟨c, hb, hs, hlen⟩ := h.pending_content (Or.inr ⟨rfl, rfl⟩)
  have hc := h.wellFormed.pending c hb
  have hdrop : (ts ++ [v]).drop (b.parts.toList.map Part.slots).sum =
      ts.drop (b.parts.toList.map Part.slots).sum ++ [v] :=
    List.drop_append_of_le_length h.taken
  rw [onContent_of_content hb]
  refine ⟨.resume rfl, ⟨h.wellFormed.parts, fun c' hc' => by cases hc'; simp [ContentPart.addSlot]⟩,
    ?_, interleave c.strings (ts.drop (b.parts.toList.map Part.slots).sum) ++ v, ?_, Or.inl rfl, ?_,
    ?_⟩
  · simp only [List.length_append]
    exact le_add_right h.taken
  · rw [Part.listText_append_right _ _ h.taken, hs, String.append_assoc]
  · rw [hdrop, List.length_append, hlen, ContentPart.slots_addSlot hc]
    rfl
  · rw [hdrop, ContentPart.interleave_addSlot hc hlen]

/-- A value at the end of a literal goes where the live state stood, and the builder spells it
there. -/
theorem slot (h : Spelled prev .atEnd b ts s) (hlive : prev.isLive = true) (v : String) :
    Spelled prev prev (b.slot prev).1 (ts ++ [v]) (s ++ v) := by
  cases prev
  case content => exact h.contentSlot v
  case tagName => exact h.growTag (by simp) [v] (fun ht => ht.tagNameSlot v) (.resume hlive)
  case beforeAttributeName | attributeName =>
    exact h.growTag (by simp) [v] (fun ht => ht.nameSlot (by simp) v) (.resume hlive)
  case attributeValueDoubleQuoted | attributeValueSingleQuoted | attributeValueUnquoted =>
    exact h.growTag (by simp) [v] (fun ht => ht.valueSlot (by simp) v) (.resume hlive)
  all_goals cases hlive

/-- Along a walk of events, the builder spells the events' texts with the values at their
slots. -/
theorem foldl_feed {last : LexState} {es : List LexEvent} (hw : Walk last prev q es)
    (h : Spelled prev q b ts s) (vs : List String) (hvs : vs.length = es.countP LexEvent.isSlot) :
    Spelled last .atEnd (es.foldl (fun b e => (b.feed e).1) b) (ts ++ vs)
      (s ++ spellEvents es vs) := by
  -- the walk says what each event is: a token after which the scanner goes on, or a value
  -- where a literal ended in a live state
  induction es generalizing prev q b ts s vs with
  | nil =>
    obtain ⟨rfl, rfl⟩ := hw
    obtain rfl : vs = [] := List.length_eq_zero_iff.1 (by simpa using hvs)
    simpa [spellEvents] using h
  | cons e es ih =>
    cases e with
    | token i l text =>
      obtain ⟨hq, hl, n, hfit, hw'⟩ := hw
      have h' := ih hw' (h.token hq hl hfit) vs (by simpa [LexEvent.isSlot] using hvs)
      rw [List.foldl_cons, spellEvents, ← String.append_assoc]
      exact h'
    | slot i live =>
      obtain ⟨rfl, rfl, hlive, hw'⟩ := hw
      obtain ⟨v, vs', rfl⟩ : ∃ v vs', vs = v :: vs' :=
        List.exists_cons_of_length_pos (by simp [hvs, LexEvent.isSlot])
      have h' := ih hw' (h.slot hlive v) vs' (by simpa [List.countP_cons, LexEvent.isSlot] using hvs)
      rw [List.foldl_cons, spellEvents, List.headD_cons, List.tail_cons, ← String.append_assoc,
        List.append_cons]
      exact h'

/-- Once the events are in, the finished parts spell the text, then the quote a rebuilt last
tag adds. -/
theorem listText_finish {last : LexState} (h : Spelled last .atEnd b ts s) :
    Part.listText b.finish ts = s ++ Part.addedQuote b.finish last := by
  obtain ⟨rest, hs, hp⟩ := h.spelled
  have htaken := h.taken
  rw [finish_eq]
  cases hb : b.pending with
  | idle =>
    rw [hb] at hp
    exact absurd hp.2.1 (by decide)
  | content c =>
    rw [hb] at hp
    obtain ⟨hq, hlen, rfl⟩ := hp
    obtain rfl : last = .content := by simpa using hq
    have heq : b.finishTag.flush.parts = keepContent b.parts c := by simp [finishTag, flush, hb]
    simp only [List.length_drop] at hlen
    rw [heq, listText_keepContent _ _ (by omega), hs, Part.addedQuote_content, String.append_empty]
  | tag t =>
    rw [hb] at hp
    have heq : b.finishTag.flush.parts = b.parts.push (.tag t.finish) := by
      simp [finishTag, flush, hb]
    have hlen : ts.length = (b.parts.toList.map Part.slots).sum + t.slots := by
      have hc := hp.count
      simp only [List.length_drop] at hc
      omega
    have hq := LexState.openQuote_of_after h.follows (Or.inr rfl)
    rw [heq, Array.toList_push, Part.listText_concat (by simp [Part.slots, hlen]), hs,
      String.append_assoc, Part.addedQuote_concat_tag]
    congr 1
    simp only [Part.text, TagPart.slots_finish]
    by_cases h0 : t.slots = 0
    · rw [if_pos h0, if_pos h0, TagPart.raw_finish, hp.raw h0, String.append_empty]
    · rw [if_neg h0, if_neg h0, TagPart.rebuild_finish hp.unfinished.trailing hp.unfinished.ordered,
        hp.rebuild, hq]

end Spelled

end Template.Builder

theorem Text.entity?_of_isAlphanum {c : Char} (h : c.isAlphanum = true) : Text.entity? c = none := by
  unfold Text.entity?
  split <;> first | rfl | exact absurd h (by decide)

namespace Template

/-- The quote that rendering adds after the literals: when they end inside a quoted attribute
value of a tag that takes values, the rebuilt tag closes the value. -/
def addedQuote (t : Template) : String :=
  Part.addedQuote t.parts (endState (scanLiterals t.literals))

theorem literals_of_make {literals : List String} {settings : MemorySettings} {t : Template}
    (h : make literals settings = .ok t) : t.literals = literals := by
  unfold make at h
  cases hp : parseLiterals literals with
  | error e =>
    rw [hp] at h
    cases h
  | ok parts =>
    rw [hp] at h
    cases h
    rfl

theorem make_ok (literals : List String) (settings : MemorySettings) :
    ∃ t, make literals settings = .ok t := by
  by_cases hl : literals = []
  · subst hl
    exact ⟨_, by simp [make, parseLiterals, tokenizeLiterals, scanLiterals, scanFrom, eventsOf]; rfl⟩
  obtain ⟨events, htok, -⟩ := walk_tokenizeLiterals hl
  exact ⟨_, by simp [make, parseLiterals, htok]; rfl⟩

theorem compile_of_make {literals : List String} {settings : MemorySettings} {t : Template}
    (hmake : make literals settings = .ok t) {values : List Value} {texts : List String}
    (hplain : ∀ v ∈ values, v.isPlain = true) (htexts : values.mapM Value.nodeText = .ok texts)
    (hcount : values.length = literals.length - 1) :
    t.compile values = .ok (interleave literals texts ++ t.addedQuote) := by
  have hmap := Value.map_rendering_of_mapM hplain htexts
  have hlen : texts.length = literals.length - 1 := by
    rw [← hcount, ← List.length_map (f := Rendering.text), ← hmap, List.length_map]
  rw [compile, hmap]
  by_cases hl : literals = []
  · subst hl
    obtain rfl : texts = [] := List.length_eq_zero_iff.1 hlen
    simp [make, parseLiterals, tokenizeLiterals, scanLiterals, scanFrom, eventsOf] at hmake
    cases hmake
    rfl
  obtain ⟨events, htok, hw, hslots, hspell⟩ := walk_tokenizeLiterals hl
  simp only [make, parseLiterals, htok] at hmake
  cases hmake
  -- the builder, fed the events from nothing, spells the literals with the texts between them
  have hvs : texts.length = events.countP LexEvent.isSlot := by rw [hlen, hslots]
  have hsp := Builder.spelled_empty.foldl_feed hw texts hvs
  rw [List.nil_append, String.empty_append, hspell] at hsp
  rw [renderWith_text rfl (hvs.trans (sum_slots_partsOfEvents hw (by decide)).symm)]
  exact congrArg Except.ok hsp.listText_finish

/-- Compiling a template with values that read as one text everywhere puts their texts between
its literals. The rebuilt last tag may add one quote: that of a value the literals leave
open. -/
theorem compile_make_interleave (literals : List String) (settings : MemorySettings)
    {values : List Value} {texts : List String} (hplain : ∀ v ∈ values, v.isPlain = true)
    (htexts : values.mapM Value.nodeText = .ok texts) (hcount : values.length = literals.length - 1) :
    ∃ t, make literals settings = .ok t ∧
      t.compile values = .ok (interleave literals texts ++ t.addedQuote) := by
  obtain ⟨t, hmake⟩ := make_ok literals settings
  exact ⟨t, hmake, compile_of_make hmake hplain htexts hcount⟩

theorem compile_make_interleave_open_value :
    (∀ v ∈ [Value.bool true], v.isPlain = true) ∧
      [Value.bool true].mapM Value.nodeText = .ok ["true"] ∧
      [Value.bool true].length = ["<a x=\"", ""].length - 1 ∧
      ∃ t, make ["<a x=\"", ""] {} = .ok t ∧
        t.compile [.bool true] = .ok (interleave ["<a x=\"", ""] ["true"] ++ t.addedQuote) :=
  ⟨by decide, rfl, rfl, compile_make_interleave _ _ (by decide) rfl rfl⟩

/-- Literals that do not end inside a quoted value compile to exactly their texts with the
values' texts between them. -/
theorem compile_of_make_unquoted {literals : List String} {settings : MemorySettings}
    {t : Template} (hmake : make literals settings = .ok t)
    (hend : (endState (scanLiterals literals)).quote = .unquoted) {values : List Value}
    {texts : List String} (hplain : ∀ v ∈ values, v.isPlain = true)
    (htexts : values.mapM Value.nodeText = .ok texts) (hcount : values.length = literals.length - 1) :
    t.compile values = .ok (interleave literals texts) := by
  have hq : t.addedQuote = "" := by
    unfold addedQuote Part.addedQuote
    rw [literals_of_make hmake, hend]
    split
    · split <;> rfl
    · rfl
  rw [compile_of_make hmake hplain htexts hcount, hq, String.append_empty]

theorem mapM_nodeText_length {vs : List Value} {ts : List String}
    (hv : ∀ v ∈ vs, v.isPlain = true) (hs : vs.mapM Value.nodeText = .ok ts) :
    ts.length = vs.length := by
  simpa using (congrArg List.length (Value.map_rendering_of_mapM hv hs)).symm

end Template

end HtmlTemplates
