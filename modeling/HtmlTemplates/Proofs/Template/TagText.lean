import Mathlib
import HtmlTemplates.Proofs.Template.PlainText
/-!
How a tag's rebuilt text grows as the parser extends the tag.

While a tag is read, each token extends one field of it: the name, the blanks before an
attribute, an attribute's name, its `=`, the blanks and quote before its value, or its value.
The field a token extends is the last the rebuilt text shows, so the rebuilt text grows by the
token's text, and a value put in a slot grows it by the value's text. The only field
that follows is the closing quote of the value being read, which the rebuilt text always
shows. This module states these facts for each operation of the parser.
-/
namespace HtmlTemplates

open HtmlTemplates.Markup

theorem zip_splitAmong_append {α β : Type} (slots : α → Nat) (xs : List α) (x : α) (vs : List β) :
    (xs ++ [x]).zip (splitAmong ((xs ++ [x]).map slots) vs) =
      xs.zip (splitAmong (xs.map slots) vs) ++ [(x, (vs.drop (xs.map slots).sum).take (slots x))] := by
  induction xs generalizing vs with
  | nil => rfl
  | cons y ys ih =>
    simp only [List.cons_append, List.map_cons, splitAmong, List.zip_cons_cons, ih, List.sum_cons,
      List.drop_drop]

theorem zip_splitAmong_append_right {α β : Type} (slots : α → Nat) (xs : List α)
    (vs extra : List β) (h : (xs.map slots).sum ≤ vs.length) :
    xs.zip (splitAmong (xs.map slots) (vs ++ extra)) = xs.zip (splitAmong (xs.map slots) vs) := by
  induction xs generalizing vs with
  | nil => rfl
  | cons y ys ih =>
    simp only [List.map_cons, List.sum_cons] at h
    simp only [List.map_cons, splitAmong, List.zip_cons_cons,
      List.take_append_of_le_length (by omega : slots y ≤ vs.length),
      List.drop_append_of_le_length (by omega : slots y ≤ vs.length),
      ih (vs.drop (slots y)) (by simp; omega)]

namespace Fragment

theorem fillText_append (fs gs : List Fragment) (ts : List String) :
    fillText (fs ++ gs) ts = fillText fs ts ++ fillText gs (ts.drop (countSlots fs)) := by
  induction fs generalizing ts with
  | nil => simp [fillText, countSlots]
  | cons f fs ih =>
    cases f with
    | text s => simp [fillText, ih, countSlots, isSlot, String.append_assoc]
    | slot =>
      simp [fillText, ih, countSlots, List.countP_cons, isSlot, String.append_assoc, List.drop_tail]

theorem fillText_append_right (fs : List Fragment) (ts extra : List String)
    (h : countSlots fs ≤ ts.length) : fillText fs (ts ++ extra) = fillText fs ts := by
  induction fs generalizing ts with
  | nil => rfl
  | cons f fs ih =>
    cases f with
    | text s =>
      simp only [countSlots, List.countP_cons, isSlot] at h
      simp [fillText, ih ts (by simpa [countSlots] using h)]
    | slot =>
      simp only [countSlots, List.countP_cons, isSlot] at h
      obtain ⟨t, ts, rfl⟩ : ∃ t ts', ts = t :: ts' := List.exists_cons_of_ne_nil (by
        rintro rfl
        simp at h)
      simp [fillText, ih ts (by simp at h; simpa [countSlots] using h)]

theorem fillText_pushText (fs : List Fragment) (ts : List String) (s : String) :
    fillText (pushText fs s) ts = fillText fs ts ++ s := by
  unfold pushText
  by_cases hs : s.isEmpty = true
  · rw [if_pos hs, String.isEmpty_iff.1 hs, String.append_empty]
  · rw [if_neg hs]
    split
    · rename_i t h
      obtain ⟨init, rfl⟩ := List.getLast?_eq_some_iff.1 h
      simp [fillText_append, fillText, String.append_assoc]
    · simp [fillText_append, fillText]

theorem fillText_append_slot (fs : List Fragment) (ts : List String) (v : String)
    (h : ts.length = countSlots fs) : fillText (fs ++ [.slot]) (ts ++ [v]) = fillText fs ts ++ v := by
  rw [fillText_append, fillText_append_right _ _ _ h.ge, List.drop_append_of_le_length h.ge,
    List.drop_eq_nil_of_le h.le]
  simp [fillText]

end Fragment

namespace Attribute

/-- An attribute holds nothing after its name until it has its `=`. -/
def Ordered (a : Attribute) : Prop :=
  a.afterName = "" → a.beforeValue = "" ∧ a.value = [] ∧ a.quote = .unquoted

theorem ordered_of_afterName_ne {a : Attribute} (h : a.afterName ≠ "") : a.Ordered :=
  fun h' => absurd h' h

theorem listText_append_single (as : List Attribute) (a : Attribute) (ts : List String) :
    listText (as ++ [a]) ts = listText as ts ++ a.text ((ts.drop (as.map slots).sum).take a.slots) := by
  rw [listText, listText, zip_splitAmong_append]
  simp

theorem listText_append_right (as : List Attribute) (ts extra : List String)
    (h : (as.map slots).sum ≤ ts.length) : listText as (ts ++ extra) = listText as ts := by
  rw [listText, listText, zip_splitAmong_append_right _ _ _ _ h]

theorem text_of_isBlank {a : Attribute} (hb : a.isBlank = true) (ho : a.Ordered)
    (ts : List String) : a.text ts = a.beforeName := by
  simp only [isBlank, Bool.and_eq_true, List.isEmpty_iff, String.isEmpty_iff] at hb
  obtain ⟨⟨hname, hafter⟩, hvalue⟩ := hb
  obtain ⟨hbefore, -, hquote⟩ := ho hafter
  simp [text, body, hname, hafter, hvalue, hbefore, hquote, Fragment.fillText, Quote.text]

section Grow
variable {a : Attribute} {ts : List String}

theorem body_pushName (ha : a.afterName = "") (ho : a.Ordered) (s : String) :
    (a.pushName s).body ts = a.body ts ++ s := by
  obtain ⟨hbefore, hvalue, -⟩ := ho ha
  simp [body, pushName, ha, hbefore, hvalue, Fragment.fillText_pushText, Fragment.fillText,
    String.append_assoc]

theorem body_addNameSlot (ha : a.afterName = "") (ho : a.Ordered) (hts : ts.length = a.slots)
    (v : String) : a.addNameSlot.body (ts ++ [v]) = a.body ts ++ v := by
  obtain ⟨hbefore, hvalue, -⟩ := ho ha
  have hn : ts.length = Fragment.countSlots a.name := by
    simp [hts, slots, nameSlots, hvalue, Fragment.countSlots]
  simp [body, addNameSlot, ha, hbefore, hvalue, Fragment.fillText_append_slot _ _ _ hn,
    Fragment.fillText, String.append_assoc]

theorem body_pushAfterName (ha : a.afterName = "") (ho : a.Ordered) (s : String) :
    (a.pushAfterName s).body ts = a.body ts ++ s := by
  obtain ⟨hbefore, hvalue, -⟩ := ho ha
  simp [body, pushAfterName, ha, hbefore, hvalue, Fragment.fillText]

theorem body_pushBeforeValue (hv : a.value = []) (s : String) :
    (a.pushBeforeValue s).body ts = a.body ts ++ s := by
  simp [body, pushBeforeValue, hv, Fragment.fillText, String.append_assoc]

theorem body_pushValue (s : String) : (a.pushValue s).body ts = a.body ts ++ s := by
  simp [body, pushValue, nameSlots, Fragment.fillText_pushText, String.append_assoc]

theorem body_addValueSlot (hts : ts.length = a.slots) (v : String) :
    a.addValueSlot.body (ts ++ [v]) = a.body ts ++ v := by
  have hn : a.nameSlots ≤ ts.length := by simp [hts, slots]
  have hv : (ts.drop a.nameSlots).length = Fragment.countSlots a.value := by
    simp [hts, slots]
  simp only [body, addValueSlot, nameSlots] at hn hv ⊢
  rw [Fragment.fillText_append_right _ _ _ hn, List.drop_append_of_le_length hn,
    Fragment.fillText_append_slot _ _ _ hv]
  simp only [String.append_assoc]

end Grow

end Attribute

namespace TagPart

/-- A tag being read: nothing trails its attributes yet, it is not closed, and each of its
attributes holds nothing after its name until its `=`. -/
structure Unfinished (t : TagPart) : Prop where
  trailing : t.trailing = ""
  closed : t.closed = false
  ordered : ∀ a ∈ t.attributes, a.Ordered

theorem rebuild_of_attributes_nil {t : TagPart} (h : t.attributes = []) (hu : t.Unfinished)
    (ts : List String) :
    t.rebuild ts = (if t.endTag then "</" else "<") ++ Fragment.fillText t.name ts ++
      (if t.selfClosing then "/" else "") := by
  simp [rebuild, h, hu.trailing, hu.closed, Attribute.listText]

/-- Changing the last attribute of a tag changes its rebuilt text only where that attribute
is shown, at the end, and the attribute takes the last texts. -/
theorem rebuild_updateCurrent {t : TagPart} {a : Attribute} {f : Attribute → Attribute}
    {ts : List String} (extra : List String) (hlast : t.attributes.getLast? = some a) (hu : t.Unfinished)
    (hsc : t.selfClosing = false) (hts : ts.length = t.slots)
    (hf : (f a).slots = a.slots + extra.length) :
    ∃ P Y, Y.length = a.slots ∧ t.rebuild ts = P ++ a.text Y ∧
      (t.updateCurrent f).rebuild (ts ++ extra) = P ++ (f a).text (Y ++ extra) := by
  obtain ⟨init, hinit⟩ := List.getLast?_eq_some_iff.1 hlast
  have hcount : ts.length = Fragment.countSlots t.name + (init.map Attribute.slots).sum + a.slots := by
    rw [hts, slots_eq, hinit]
    simp
    omega
  have hname : Fragment.countSlots t.name ≤ ts.length := by omega
  have hinit' : (init.map Attribute.slots).sum ≤ (ts.drop (Fragment.countSlots t.name)).length := by
    simp
    omega
  refine ⟨(if t.endTag then "</" else "<") ++ Fragment.fillText t.name ts ++
      Attribute.listText init (ts.drop (Fragment.countSlots t.name)),
    (ts.drop (Fragment.countSlots t.name)).drop (init.map Attribute.slots).sum, ?_, ?_, ?_⟩
  · simp
    omega
  · rw [rebuild, hinit, Attribute.listText_append_single, List.take_of_length_le (by simp; omega)]
    simp [hu.trailing, hu.closed, hsc, String.append_assoc]
  · unfold updateCurrent
    rw [hlast]
    simp only [hinit, List.dropLast_concat]
    rw [rebuild, Attribute.listText_append_single, Fragment.fillText_append_right _ _ _ hname,
      List.drop_append_of_le_length hname, Attribute.listText_append_right _ _ _ hinit',
      List.drop_append_of_le_length hinit', List.take_of_length_le (by simp [hf]; omega)]
    simp [hu.trailing, hu.closed, hsc, String.append_assoc]

@[simp] theorem rebuild_pushRaw (t : TagPart) (s : String) (ts : List String) :
    (t.pushRaw s).rebuild ts = t.rebuild ts := rfl

theorem rebuild_pushName {t : TagPart} (h : t.attributes = []) (hu : t.Unfinished)
    (hsc : t.selfClosing = false) (s : String) (ts : List String) :
    (t.pushName s).rebuild ts = t.rebuild ts ++ s := by
  simp [rebuild, pushName, h, hu.trailing, hu.closed, hsc, Attribute.listText,
    Fragment.fillText_pushText, String.append_assoc]

theorem rebuild_addNameSlot {t : TagPart} (h : t.attributes = []) (hu : t.Unfinished)
    (hsc : t.selfClosing = false) {ts : List String} (hts : ts.length = t.slots) (v : String) :
    t.addNameSlot.rebuild (ts ++ [v]) = t.rebuild ts ++ v := by
  have hn : ts.length = Fragment.countSlots t.name := by simp [hts, slots_eq, h]
  simp [rebuild, addNameSlot, h, hu.trailing, hu.closed, hsc, Attribute.listText,
    Fragment.fillText_append_slot _ _ _ hn, String.append_assoc]

theorem rebuild_setSelfClosing {t : TagPart} (hu : t.Unfinished) (hsc : t.selfClosing = false)
    (ts : List String) : (t.setSelfClosing true).rebuild ts = t.rebuild ts ++ "/" := by
  simp [rebuild, setSelfClosing, hu.closed, hsc, String.append_assoc]

/-- Blanks before an attribute go where the rebuilt text ends: a `/` that did not close the
tag, shown last until then, is kept before them. -/
theorem rebuild_startAttribute {t : TagPart} (hu : t.Unfinished) (s : String) (ts : List String) :
    (t.startAttribute s).rebuild ts = t.rebuild ts ++ s := by
  unfold startAttribute
  cases h : t.attributes.getLast? with
  | none =>
    have hnil := List.getLast?_eq_none_iff.1 h
    simp only
    rw [rebuild_of_attributes_nil hnil hu]
    simp [rebuild, Attribute.listText, splitAmong, hu.trailing, hu.closed, Attribute.text,
      Attribute.body, Fragment.fillText, Quote.text, String.append_assoc]
  | some a =>
    obtain ⟨init, hinit⟩ := List.getLast?_eq_some_iff.1 h
    dsimp only
    by_cases hc : (s.isEmpty && !t.selfClosing && a.endsWithNameSlot) = true
    · -- the blanks are empty: the name goes on after its slot
      rw [if_pos hc]
      simp only [Bool.and_eq_true, String.isEmpty_iff] at hc
      rw [hc.1.1, String.append_empty]
    · rw [if_neg hc]
      have ho : a.Ordered := hu.ordered a (by simp [hinit])
      by_cases hb : a.isBlank = true
      · rw [if_pos hb]
        have h0 : a.slots = 0 := Attribute.slots_of_isBlank hb
        have hb' : ((a.pushBeforeName (if t.selfClosing then "/" else "")).pushBeforeName s).isBlank =
            true := hb
        have ho' : ((a.pushBeforeName (if t.selfClosing then "/" else "")).pushBeforeName s).Ordered :=
          ho
        simp only [rebuild, hinit, List.dropLast_concat, Attribute.listText_append_single,
          Attribute.text_of_isBlank hb ho, Attribute.text_of_isBlank hb' ho', hu.trailing,
          hu.closed]
        simp [Attribute.pushBeforeName, String.append_assoc]
      · rw [if_neg hb]
        simp only [rebuild, Attribute.listText_append_single, hu.trailing, hu.closed]
        simp [Attribute.text, Attribute.body, Fragment.fillText, Quote.text, String.append_assoc]

theorem rebuild_finish {t : TagPart} (htrail : t.trailing = "")
    (ho : ∀ a ∈ t.attributes, a.Ordered) (ts : List String) :
    t.finish.rebuild ts = t.rebuild ts := by
  unfold finish
  split
  · rename_i a h
    obtain ⟨init, hinit⟩ := List.getLast?_eq_some_iff.1 h
    split
    · -- the blanks of a blank last attribute become the trailing blanks, shown in its place
      rename_i hb
      have ha : a.Ordered := ho a (by simp [hinit])
      simp only [rebuild, hinit, Attribute.listText_append_single, Attribute.text_of_isBlank hb ha,
        htrail]
      simp [String.append_assoc]
    · rfl
  · rfl

theorem rebuild_close {t : TagPart} (hu : t.Unfinished) (s : String) (ts : List String) :
    (t.close s).rebuild ts = t.rebuild ts ++ ">" := by
  have hfinish := rebuild_finish (t := { t.pushRaw s with closed := true }) hu.trailing hu.ordered ts
  rw [close, hfinish]
  simp [rebuild, pushRaw, hu.closed, String.append_assoc]

/-- Growing the last attribute's text, up to its closing quote, grows the rebuilt text in the
same place. -/
theorem rebuild_updateCurrent_of {t : TagPart} {a : Attribute} {f : Attribute → Attribute}
    {ts : List String} (extra : List String) {δ s : String} (hlast : t.attributes.getLast? = some a)
    (hu : t.Unfinished) (hsc : t.selfClosing = false) (hts : ts.length = t.slots)
    (hf : (f a).slots = a.slots + extra.length)
    (hbody : ∀ Y : List String, Y.length = a.slots → (f a).body (Y ++ extra) = a.body Y ++ δ)
    (hs : t.rebuild ts = s ++ a.quote.text) :
    (t.updateCurrent f).rebuild (ts ++ extra) = s ++ δ ++ (f a).quote.text := by
  obtain ⟨P, Y, hY, h₁, h₂⟩ := rebuild_updateCurrent extra hlast hu hsc hts hf
  rw [h₁, Attribute.text, ← String.append_assoc, String.append_left_inj] at hs
  rw [h₂, Attribute.text, hbody Y hY, ← hs]
  simp only [String.append_assoc]

theorem raw_updateCurrent (t : TagPart) (f : Attribute → Attribute) :
    (t.updateCurrent f).raw = t.raw := by
  unfold updateCurrent
  split <;> rfl

theorem raw_startAttribute (t : TagPart) (s : String) : (t.startAttribute s).raw = t.raw := by
  unfold startAttribute
  cases t.attributes.getLast? with
  | none => rfl
  | some a =>
    dsimp only
    by_cases hc : (s.isEmpty && !t.selfClosing && a.endsWithNameSlot) = true
    · rw [if_pos hc]
    · rw [if_neg hc]
      by_cases hb : a.isBlank = true
      · rw [if_pos hb]
      · rw [if_neg hb]

theorem raw_tagToken (q : LexState) (s : String) (t : TagPart) :
    (Template.Builder.tagToken q s t).raw = t.raw ++ s := by
  unfold Template.Builder.tagToken
  split <;> simp [raw_updateCurrent, raw_startAttribute, pushRaw, pushName, setSelfClosing]

theorem selfClosing_updateCurrent (t : TagPart) (f : Attribute → Attribute) :
    (t.updateCurrent f).selfClosing = t.selfClosing := by
  unfold updateCurrent
  split <;> rfl

theorem lastAttribute_updateCurrent {t : TagPart} {a : Attribute} {f : Attribute → Attribute}
    {p : Attribute → Prop} (hlast : t.attributes.getLast? = some a) (hp : p (f a)) :
    ∃ b, (t.updateCurrent f).attributes.getLast? = some b ∧ p b :=
  ⟨f a, by simp [updateCurrent, hlast], hp⟩

theorem Unfinished.pushRaw {t : TagPart} (hu : t.Unfinished) (s : String) :
    (t.pushRaw s).Unfinished := ⟨hu.trailing, hu.closed, hu.ordered⟩

theorem Unfinished.pushName {t : TagPart} (hu : t.Unfinished) (s : String) :
    (t.pushName s).Unfinished := ⟨hu.trailing, hu.closed, hu.ordered⟩

theorem Unfinished.addNameSlot {t : TagPart} (hu : t.Unfinished) : t.addNameSlot.Unfinished :=
  ⟨hu.trailing, hu.closed, hu.ordered⟩

theorem Unfinished.setSelfClosing {t : TagPart} (hu : t.Unfinished) (b : Bool) :
    (t.setSelfClosing b).Unfinished := ⟨hu.trailing, hu.closed, hu.ordered⟩

theorem Unfinished.updateCurrent {t : TagPart} {a : Attribute} {f : Attribute → Attribute}
    (hu : t.Unfinished) (hlast : t.attributes.getLast? = some a) (ho : (f a).Ordered) :
    (t.updateCurrent f).Unfinished := by
  obtain ⟨init, hinit⟩ := List.getLast?_eq_some_iff.1 hlast
  refine ⟨?_, ?_, ?_⟩
  · simp [TagPart.updateCurrent, hlast, hu.trailing]
  · simp [TagPart.updateCurrent, hlast, hu.closed]
  · have hattrs : (t.updateCurrent f).attributes = init ++ [f a] := by
      simp [TagPart.updateCurrent, hinit]
    rw [hattrs]
    intro x hx
    rcases List.mem_append.1 hx with hx | hx
    · exact hu.ordered x (by simp [hinit, hx])
    · rw [List.mem_singleton.1 hx]
      exact ho

theorem Unfinished.startAttribute {t : TagPart} (hu : t.Unfinished) (s : String) :
    (t.startAttribute s).Unfinished := by
  unfold TagPart.startAttribute
  cases h : t.attributes.getLast? with
  | none =>
    exact ⟨hu.trailing, hu.closed, by simp [Attribute.Ordered]⟩
  | some a =>
    obtain ⟨init, hinit⟩ := List.getLast?_eq_some_iff.1 h
    dsimp only
    split
    · exact hu
    · split
      · refine ⟨hu.trailing, hu.closed, ?_⟩
        simp only [hinit, List.dropLast_concat, List.mem_append, List.mem_singleton]
        rintro x (hx | rfl)
        · exact hu.ordered x (by simp [hinit, hx])
        · exact hu.ordered a (by simp [hinit])
      · refine ⟨hu.trailing, hu.closed, ?_⟩
        simp only [List.mem_append, List.mem_singleton]
        rintro x (hx | rfl)
        · exact hu.ordered x hx
        · simp [Attribute.Ordered]

/-- After blanks before an attribute, the last attribute has no `=` yet, and no `/` is
pending. -/
theorem startAttribute_last (t : TagPart) (s : String) :
    (t.startAttribute s).selfClosing = false ∧
      ∃ a, (t.startAttribute s).attributes.getLast? = some a ∧ a.afterName = "" := by
  unfold startAttribute
  cases h : t.attributes.getLast? with
  | none => simp
  | some a =>
    dsimp only
    split
    · rename_i hc
      simp only [Bool.and_eq_true, Bool.not_eq_eq_eq_not, Bool.not_true,
        Attribute.endsWithNameSlot, beq_iff_eq, String.isEmpty_iff] at hc
      exact ⟨hc.1.2, a, h, hc.2.1.2⟩
    · split
      · rename_i hb
        simp only [Attribute.isBlank, Bool.and_eq_true, String.isEmpty_iff] at hb
        simp [Attribute.pushBeforeName, hb.1.2]
      · simp

end TagPart

end HtmlTemplates
