import HtmlTemplates.Proofs.Template.Binding
/-!
Lenient rendering is strict rendering of values made to fit.

A lenient template takes values of any number. A part reads them only through its own slots, and
it reads a missing value as null: `slotValue` falls back to `Rendering.null`, and `omittedAt`
counts a missing value as omitted. So two lists that show a part's slots the same values, a
missing one read as null (`SameSlots`), render the part alike (`Part.render_congr`), and the
parts of a template together read no more than the template's count of values.

Lenient rendering therefore gives what strict rendering gives once the values are cut to the
template's count or padded with null up to it. That list passes the strict count check, so
lenient rendering never fails on the count, and a lenient binding compiles as the strict binding
of the fitted values (`renderWith_lenient`).
-/
namespace HtmlTemplates

namespace Fragment

@[simp] theorem countSlots_cons_text (s : String) (fs : List Fragment) :
    countSlots (.text s :: fs) = countSlots fs :=
  List.countP_cons_of_neg (by simp [isSlot])

@[simp] theorem countSlots_cons_slot (fs : List Fragment) :
    countSlots (.slot :: fs) = countSlots fs + 1 :=
  List.countP_cons_of_pos rfl

end Fragment

/-- Two lists of values that show the first `n` slots the same value, a missing value read as
null. -/
def SameSlots (n : Nat) (vs ws : List Rendering) : Prop :=
  ∀ i < n, vs.getD i .null = ws.getD i .null

theorem slotValue_eq_getD (vs : List Rendering) : slotValue vs = vs.getD 0 .null := by
  cases vs <;> rfl

theorem omittedAt_getElem? (vs : List Rendering) (i : Nat) :
    omittedAt vs[i]? = (vs.getD i .null).omitted := by
  rw [List.getD_eq_getElem?_getD]
  cases vs[i]? <;> rfl

namespace SameSlots
variable {n k : Nat} {vs ws : List Rendering}

theorem mono (h : SameSlots n vs ws) (hk : k ≤ n) : SameSlots k vs ws :=
  fun i hi => h i (Nat.lt_of_lt_of_le hi hk)

theorem drop (h : SameSlots (k + n) vs ws) : SameSlots n (vs.drop k) (ws.drop k) := by
  intro i hi
  simpa [List.getD_eq_getElem?_getD, List.getElem?_drop] using h (k + i) (by omega)

theorem tail (h : SameSlots (n + 1) vs ws) : SameSlots n vs.tail ws.tail := by
  rw [← List.drop_one, ← List.drop_one]
  exact drop (by rwa [Nat.add_comm])

theorem take (h : SameSlots n vs ws) : SameSlots n (vs.take n) (ws.take n) := by
  intro i hi
  simp only [List.getD_eq_getElem?_getD, List.getElem?_take_of_lt hi]
  simpa only [List.getD_eq_getElem?_getD] using h i hi

theorem slotValue_eq (h : SameSlots (n + 1) vs ws) : slotValue vs = slotValue ws := by
  rw [slotValue_eq_getD, slotValue_eq_getD, h 0 (Nat.succ_pos n)]

theorem omittedAt_eq (h : SameSlots n vs ws) {i : Nat} (hi : i < n) :
    omittedAt vs[i]? = omittedAt ws[i]? := by
  rw [omittedAt_getElem?, omittedAt_getElem?, h i hi]

end SameSlots

section Congr
variable {vs ws : List Rendering}

theorem fillName_congr (fs : List Fragment) (h : SameSlots (Fragment.countSlots fs) vs ws) :
    fillName fs vs = fillName fs ws := by
  induction fs generalizing vs ws with
  | nil => rfl
  | cons f fs ih =>
    cases f with
    | text s =>
      simp only [fillName]
      rw [ih (by simpa using h)]
    | slot =>
      have h' : SameSlots (Fragment.countSlots fs + 1) vs ws := by simpa using h
      simp only [fillName]
      rw [h'.slotValue_eq, ih h'.tail]

theorem fillValue_congr (fs : List Fragment) (h : SameSlots (Fragment.countSlots fs) vs ws) :
    fillValue fs vs = fillValue fs ws := by
  induction fs generalizing vs ws with
  | nil => rfl
  | cons f fs ih =>
    cases f with
    | text s =>
      simp only [fillValue]
      rw [ih (by simpa using h)]
    | slot =>
      have h' : SameSlots (Fragment.countSlots fs + 1) vs ws := by simpa using h
      simp only [fillValue]
      rw [h'.slotValue_eq, ih h'.tail]

theorem renderContent_congr (ss : List String) (h : SameSlots (ss.length - 1) vs ws) :
    renderContent ss vs = renderContent ss ws := by
  induction ss generalizing vs ws with
  | nil => simp [renderContent]
  | cons s ss ih =>
    cases ss with
    | nil => simp [renderContent]
    | cons s' ss =>
      have h' : SameSlots ((s' :: ss).length - 1 + 1) vs ws := by simpa using h
      simp only [renderContent]
      rw [h'.slotValue_eq, ih h'.tail]

theorem Attribute.isSkipped_congr (a : Attribute) (h : SameSlots a.slots vs ws) :
    a.isSkipped vs = a.isSkipped ws := by
  -- a name that is one slot reads the first value, a value that is one slot the one after the name
  have hname : a.name = [.slot] → omittedAt vs.head? = omittedAt ws.head? := fun hn => by
    rw [List.head?_eq_getElem?, List.head?_eq_getElem?]
    exact h.omittedAt_eq (by simp [Attribute.slots, Attribute.nameSlots, hn])
  have hvalue : a.value = [.slot] → omittedAt vs[a.nameSlots]? = omittedAt ws[a.nameSlots]? :=
    fun hv => h.omittedAt_eq (by simp [Attribute.slots, hv])
  unfold Attribute.isSkipped
  congr 1
  · by_cases hn : a.name = [.slot]
    · rw [hname hn]
    · rw [beq_false_of_ne hn, Bool.false_and, Bool.false_and]
  · by_cases hv : a.value = [.slot]
    · rw [hvalue hv]
    · rw [beq_false_of_ne hv, Bool.false_and, Bool.false_and]

theorem Attribute.render_congr (a : Attribute) (h : SameSlots a.slots vs ws) :
    a.render vs = a.render ws := by
  have hname : a.resolveName vs = a.resolveName ws :=
    fillName_congr a.name (h.mono (Nat.le_add_right _ _))
  have hvalue : a.resolveValue vs = a.resolveValue ws := fillValue_congr a.value (SameSlots.drop h)
  simp only [Attribute.render, Attribute.renderAll, a.isSkipped_congr h, hname, hvalue]

/-- Consumers that each read only their own slots render alike from two lists that show all their
slots the same values. -/
theorem mapM_zip_splitAmong_congr {α β : Type} (slots : α → Nat)
    (g : α → List Rendering → Except TemplateError β)
    (hg : ∀ x vs ws, SameSlots (slots x) vs ws → g x vs = g x ws) (xs : List α)
    (h : SameSlots (xs.map slots).sum vs ws) :
    (xs.zip (splitAmong (xs.map slots) vs)).mapM (fun p => g p.1 p.2) =
      (xs.zip (splitAmong (xs.map slots) ws)).mapM (fun p => g p.1 p.2) := by
  induction xs generalizing vs ws with
  | nil => rfl
  | cons x xs ih =>
    rw [List.map_cons, List.sum_cons] at h
    simp only [List.map_cons, splitAmong, List.zip_cons_cons, List.mapM_cons]
    rw [hg x _ _ (h.mono (Nat.le_add_right _ _)).take, ih (SameSlots.drop h)]

theorem TagPart.render_eq (t : TagPart) (vs : List Rendering) :
    t.render vs = if t.slots = 0 then .ok t.raw else (do
      let name ← fillName t.name vs
      let attrs ← (t.attributeSlices vs).mapM (fun p => p.1.render p.2)
      pure ((if t.endTag then "</" else "<") ++ name ++ String.join attrs ++ t.trailing ++
        (if t.selfClosing then "/" else "") ++ (if t.closed then ">" else ""))) := rfl

theorem TagPart.render_congr (t : TagPart) (h : SameSlots t.slots vs ws) :
    t.render vs = t.render ws := by
  rw [TagPart.slots_eq] at h
  have hname : fillName t.name vs = fillName t.name ws :=
    fillName_congr t.name (h.mono (Nat.le_add_right _ _))
  -- the attributes take their values after the name's
  have hattrs := mapM_zip_splitAmong_congr Attribute.slots Attribute.render
    (fun a _ _ ha => a.render_congr ha) t.attributes (SameSlots.drop h)
  rw [render_eq, render_eq, hname]
  simp only [attributeSlices, hattrs]

theorem Part.render_congr (p : Part) (h : SameSlots p.slots vs ws) : p.render vs = p.render ws := by
  cases p with
  | content c => exact renderContent_congr c.strings h
  | tag t => exact t.render_congr h

end Congr

section Fit
variable {α β : Type} {n : Nat} {a : α} {xs : List α}

theorem length_rightpad_take : ((xs.take n).rightpad n a).length = n := by
  simp

theorem getD_rightpad_take {i : Nat} (hi : i < n) :
    ((xs.take n).rightpad n a).getD i a = xs.getD i a := by
  simp only [List.rightpad, List.getD_eq_getElem?_getD, List.getElem?_append, List.length_take,
    List.getElem?_take, List.getElem?_replicate]
  split
  · rfl
  · -- past the values, both read the filler
    have hlen : xs.length ≤ i := by omega
    split <;> simp [List.getElem?_eq_none hlen]

theorem map_rightpad_take (f : α → β) :
    ((xs.take n).rightpad n a).map f = ((xs.map f).take n).rightpad n (f a) := by
  simp [List.rightpad, List.map_take, List.map_replicate]

theorem mem_rightpad_take {x : α} (h : x ∈ (xs.take n).rightpad n a) : x ∈ xs ∨ x = a := by
  rcases List.mem_append.1 h with h | h
  · exact .inl (List.mem_of_mem_take h)
  · exact .inr (List.eq_of_mem_replicate h)

end Fit

@[simp] theorem Value.rendering_null : Value.null.rendering = Rendering.null := rfl

namespace Template

theorem renderWith_eq (t : Template) (strict : Bool) (vs : List Rendering) :
    t.renderWith strict vs = (do
      if strict then t.checkValueCount vs.length
      let texts ← (t.partSlices vs).mapM (fun p => p.1.render p.2)
      pure (String.join texts)) := rfl

theorem checkValueCount_self (t : Template) : t.checkValueCount t.valueCount = .ok () := by
  simp [checkValueCount]

/-- A template whose count is that of its slots renders leniently as it renders strictly the
values cut or padded with null to that count. -/
theorem renderWith_false_eq {t : Template} (hslots : t.valueCount = (t.parts.map Part.slots).sum)
    (vs : List Rendering) :
    t.renderWith false vs =
      t.renderWith true ((vs.take t.valueCount).rightpad t.valueCount .null) := by
  have hsame : SameSlots (t.parts.map Part.slots).sum vs
      ((vs.take t.valueCount).rightpad t.valueCount .null) :=
    fun i hi => (getD_rightpad_take (hslots ▸ hi)).symm
  have hparts := mapM_zip_splitAmong_congr Part.slots Part.render
    (fun p _ _ hp => p.render_congr hp) t.parts hsame
  rw [renderWith_eq, renderWith_eq, length_rightpad_take, checkValueCount_self]
  simp only [partSlices, hparts]
  rfl

theorem renderWith_false_eq_compile {t : Template}
    (hslots : t.valueCount = (t.parts.map Part.slots).sum) (vs : List Value) :
    t.renderWith false (vs.map Value.rendering) =
      t.compile ((vs.take t.valueCount).rightpad t.valueCount .null) := by
  rw [renderWith_false_eq hslots, compile, map_rightpad_take, Value.rendering_null]

end Template

theorem Binding.make_lenient {t : Template} {vs : List Value} {b : Binding}
    (hslots : t.valueCount = (t.parts.map Part.slots).sum) (hb : Binding.make t vs false = .ok b) :
    ∃ b', Binding.make t ((vs.take t.valueCount).rightpad t.valueCount .null) true = .ok b' ∧
      b.compile = b'.compile := by
  obtain ⟨hno, -, rfl⟩ := make_eq_ok hb
  -- padding adds only null, which holds no object
  have hno' : ∀ v ∈ (vs.take t.valueCount).rightpad t.valueCount .null, ¬ v.HoldsObject := by
    intro v hv
    rcases mem_rightpad_take hv with hv | rfl
    · exact hno v hv
    · exact fun h => by cases h
  refine ⟨⟨t, (vs.take t.valueCount).rightpad t.valueCount .null, true⟩, ?_,
    t.renderWith_false_eq_compile hslots vs⟩
  rw [make_of_no_object hno', length_rightpad_take]
  simp

/-- Lenient rendering is strict rendering of the values cut to the template's count or padded
with null up to it: that list passes the strict count check, rendering leniently gives what
compiling it gives, and a lenient binding compiles as the strict binding of it. -/
theorem renderWith_lenient (literals : List String) (settings : MemorySettings) :
    ∃ t, Template.make literals settings = .ok t ∧ ∀ vs : List Value,
      t.checkValueCount ((vs.take t.valueCount).rightpad t.valueCount .null).length = .ok () ∧
      t.renderWith false (vs.map Value.rendering) =
        t.compile ((vs.take t.valueCount).rightpad t.valueCount .null) ∧
      ∀ b, Binding.make t vs false = .ok b →
        ∃ b', Binding.make t ((vs.take t.valueCount).rightpad t.valueCount .null) true = .ok b' ∧
          b.compile = b'.compile := by
  obtain ⟨t, ht⟩ := Template.make_ok literals settings
  have hslots := Template.valueCount_of_make ht
  refine ⟨t, ht, fun vs => ⟨?_, t.renderWith_false_eq_compile hslots vs,
    fun _ hb => Binding.make_lenient hslots hb⟩⟩
  rw [length_rightpad_take]
  exact t.checkValueCount_self

end HtmlTemplates
