import HtmlTemplates.Proofs.Template.Interleaving
import HtmlTemplates.Template.Binding
/-!
Bound values always render.

Binding checks values once: none may hold an object at any depth of lists, and a strict binding
needs one value per slot. Giving a binding new values checks them the same way, and a refusal
keeps the old ones (`Binding.assign_outcome`). So every binding a program holds
(`Binding.Reachable`) has values that pass both checks. Pairing its parts with their values then
never fails, and rendering it fails only where markup among the values it takes fails, with that
markup's own error (`Binding.reachable_sound`). The other errors of rendering, an object and a
count mismatch, are ruled out at binding.

Errors are traced back to where they come from: a rendering error is the error of one of the
renderings a part is given (`Template.renderWith_error`), and the error of a value's text is that
of an object or of failing markup inside it (`Value.nodeText_error`).
-/
namespace HtmlTemplates

section Except
variable {ε α β : Type}

theorem Except.bind_eq_error {x : Except ε α} {f : α → Except ε β} {e : ε}
    (h : x >>= f = .error e) : x = .error e ∨ ∃ a, x = .ok a ∧ f a = .error e := by
  cases x with
  | error e' =>
    cases h
    exact .inl rfl
  | ok a => exact .inr ⟨a, rfl, h⟩

theorem Except.map_eq_error {x : Except ε α} {f : α → β} {e : ε} (h : x.map f = .error e) :
    x = .error e := by
  cases x with
  | error e' =>
    cases h
    rfl
  | ok a => cases h

theorem mapM_eq_error {f : α → Except ε β} {xs : List α} {e : ε} (h : xs.mapM f = .error e) :
    ∃ x ∈ xs, f x = .error e := by
  induction xs with
  | nil => cases h
  | cons x xs ih =>
    rw [List.mapM_cons] at h
    rcases Except.bind_eq_error h with hx | ⟨_, -, hrest⟩
    · exact ⟨x, List.mem_cons_self, hx⟩
    rcases Except.bind_eq_error hrest with hxs | ⟨_, -, hpure⟩
    · obtain ⟨y, hy, hfy⟩ := ih hxs
      exact ⟨y, List.mem_cons_of_mem _ hy, hfy⟩
    · cases hpure

end Except

namespace Value

/-- A value that is an object, or a list that holds one at any depth. -/
inductive HoldsObject : Value → Prop
  | object (fields : List (String × Json)) : HoldsObject (.object fields)
  | list {items : List Value} {v : Value} : v ∈ items → HoldsObject v → HoldsObject (.list items)

/-- A value that is markup whose rendering fails with `e`, or a list that holds such markup at
any depth. -/
inductive FailingMarkup (e : TemplateError) : Value → Prop
  | markup : FailingMarkup e (.markup (.error e))
  | list {items : List Value} {v : Value} : v ∈ items → FailingMarkup e v →
      FailingMarkup e (.list items)

theorem holdsObject_list_iff {items : List Value} :
    (Value.list items).HoldsObject ↔ ∃ v ∈ items, v.HoldsObject :=
  ⟨fun | .list hv ho => ⟨_, hv, ho⟩, fun ⟨_, hv, ho⟩ => .list hv ho⟩

mutual
/-- The check either passes or refuses an object. -/
theorem check_cases : (v : Value) →
    v.check = .ok () ∨ v.check = .error (.unsupportedValue "object")
  | .list items => by
    rw [check]
    exact checkAll_cases items
  | .object _ => .inr rfl
  | .null | .bool _ | .int _ | .float _ | .str _ | .markup _ => .inl rfl

theorem checkAll_cases : (vs : List Value) →
    checkAll vs = .ok () ∨ checkAll vs = .error (.unsupportedValue "object")
  | [] => .inl rfl
  | v :: vs => by
    rw [checkAll]
    rcases check_cases v with h | h <;> rw [h]
    · exact checkAll_cases vs
    · exact .inr rfl
end

mutual
/-- The check passes exactly the values that hold no object. -/
theorem check_eq_ok_iff : (v : Value) → (v.check = .ok () ↔ ¬ v.HoldsObject)
  | .list items => by
    rw [check, checkAll_eq_ok_iff items, holdsObject_list_iff]
    simp
  | .object fields => by
    refine ⟨fun h => ?_, fun h => absurd (HoldsObject.object fields) h⟩
    cases h
  | .null | .bool _ | .int _ | .float _ | .str _ | .markup _ => by
    refine ⟨fun _ h => ?_, fun _ => rfl⟩
    cases h

theorem checkAll_eq_ok_iff : (vs : List Value) →
    (checkAll vs = .ok () ↔ ∀ v ∈ vs, ¬ v.HoldsObject)
  | [] => by simp [checkAll]
  | v :: vs => by
    rw [checkAll, List.forall_mem_cons, ← check_eq_ok_iff v, ← checkAll_eq_ok_iff vs]
    rcases check_cases v with h | h <;> simp [h, bind, Except.bind]
end

theorem checkAll_of_holdsObject {vs : List Value} (h : ∃ v ∈ vs, v.HoldsObject) :
    checkAll vs = .error (.unsupportedValue "object") := by
  refine (checkAll_cases vs).resolve_left fun hok => ?_
  obtain ⟨v, hv, ho⟩ := h
  exact (checkAll_eq_ok_iff vs).1 hok v hv ho

mutual
/-- The text of a value fails only for an object or failing markup inside it. -/
theorem nodeText_error : (v : Value) → ∀ {e : TemplateError}, v.nodeText = .error e →
    v.FailingMarkup e ∨ v.HoldsObject
  | .list items, _, h => by
    rw [nodeText] at h
    obtain ⟨w, hw, hf | ho⟩ := nodeTexts_error items h
    · exact .inl (.list hw hf)
    · exact .inr (.list hw ho)
  | .markup _, _, h => by
    rw [nodeText] at h
    subst h
    exact .inl .markup
  | .object fields, _, _ => .inr (.object fields)
  | .null, _, h | .bool _, _, h | .int _, _, h | .float _, _, h | .str _, _, h => by cases h

theorem nodeTexts_error : (vs : List Value) → ∀ {e : TemplateError}, nodeTexts vs = .error e →
    ∃ v ∈ vs, v.FailingMarkup e ∨ v.HoldsObject
  | [], _, h => by cases h
  | v :: vs, _, h => by
    rw [nodeTexts] at h
    rcases Except.bind_eq_error h with h | ⟨_, -, h⟩
    · exact ⟨v, List.mem_cons_self, nodeText_error v h⟩
    rcases Except.bind_eq_error h with h | ⟨_, -, h⟩
    · obtain ⟨w, hw, hfw⟩ := nodeTexts_error vs h
      exact ⟨w, List.mem_cons_of_mem _ hw, hfw⟩
    · cases h
end

/-- The text of a value in an attribute value fails as its text in content does: a list's items
are written one by one. -/
theorem attrValueText_error {v : Value} {e : TemplateError} (h : v.attrValueText = .error e) :
    v.FailingMarkup e ∨ v.HoldsObject := by
  cases v with
  | null => cases h
  | str s => cases h
  | list items =>
    rw [attrValueText] at h
    rcases Except.bind_eq_error h with h | ⟨_, -, h⟩
    · obtain ⟨w, hw, hw'⟩ := mapM_eq_error h
      rcases nodeText_error w hw' with hf | ho
      · exact .inl (.list hw hf)
      · exact .inr (.list hw ho)
    · cases h
  | bool b =>
    cases b with
    | false => cases h
    | true => exact nodeText_error _ (Except.map_eq_error h)
  | object fields => exact .inr (.object fields)
  | int _ | float _ | markup _ => exact nodeText_error _ (Except.map_eq_error h)

end Value

/-- Some rendering among `vs` gives the error `e`, in content or in an attribute value. -/
def Raises (vs : List Rendering) (e : TemplateError) : Prop :=
  ∃ r ∈ vs, r.node = .error e ∨ r.attrValue = .error e

theorem Raises.mono {vs ws : List Rendering} {e : TemplateError} (h : Raises vs e)
    (hsub : ∀ r ∈ vs, r ∈ ws) : Raises ws e := by
  obtain ⟨r, hr, he⟩ := h
  exact ⟨r, hsub r hr, he⟩

section Origins
variable {vs : List Rendering} {e : TemplateError}

/-- A missing value is null, which renders without error; the others are taken in order. -/
theorem slotValue_error {f : Rendering → Except TemplateError α}
    (hnull : ∀ e, f .null ≠ .error e) (h : f (slotValue vs) = .error e) :
    ∃ r ∈ vs, f r = .error e := by
  cases vs with
  | nil => exact absurd h (hnull e)
  | cons r vs => exact ⟨r, List.mem_cons_self, h⟩

theorem fillName_error {fs : List Fragment} (h : fillName fs vs = .error e) :
    ∃ r ∈ vs, r.node = .error e := by
  induction fs generalizing vs with
  | nil => cases h
  | cons f fs ih =>
    cases f with
    | text s => exact ih (Except.map_eq_error h)
    | slot =>
      rcases Except.bind_eq_error h with h | ⟨_, -, h⟩
      · exact slotValue_error (fun _ h => by cases h) h
      rcases Except.bind_eq_error h with h | ⟨_, -, h⟩
      · obtain ⟨r, hr, hre⟩ := ih h
        exact ⟨r, List.mem_of_mem_tail hr, hre⟩
      · cases h

theorem fillValue_error {fs : List Fragment} (h : fillValue fs vs = .error e) :
    ∃ r ∈ vs, r.attrValue = .error e := by
  induction fs generalizing vs with
  | nil => cases h
  | cons f fs ih =>
    cases f with
    | text s => exact ih (Except.map_eq_error h)
    | slot =>
      rcases Except.bind_eq_error h with h | ⟨_, -, h⟩
      · exact slotValue_error (fun _ h => by cases h) h
      rcases Except.bind_eq_error h with h | ⟨_, -, h⟩
      · obtain ⟨r, hr, hre⟩ := ih h
        exact ⟨r, List.mem_of_mem_tail hr, hre⟩
      · cases h

theorem renderContent_error {ss : List String} (h : renderContent ss vs = .error e) :
    ∃ r ∈ vs, r.node = .error e := by
  induction ss generalizing vs with
  | nil => simp [renderContent] at h
  | cons s ss ih =>
    cases ss with
    | nil => simp [renderContent] at h
    | cons s' ss =>
      rw [renderContent] at h
      rcases Except.bind_eq_error h with h | ⟨_, -, h⟩
      · exact slotValue_error (fun _ h => by cases h) h
      rcases Except.bind_eq_error h with h | ⟨_, -, h⟩
      · obtain ⟨r, hr, hre⟩ := ih h
        exact ⟨r, List.mem_of_mem_tail hr, hre⟩
      · cases h

theorem Attribute.render_error {a : Attribute} (h : a.render vs = .error e) : Raises vs e := by
  unfold Attribute.render at h
  split at h
  · cases h
  rcases Except.bind_eq_error h with h | ⟨_, -, h⟩
  · obtain ⟨r, hr, hre⟩ := fillName_error h
    exact ⟨r, hr, .inl hre⟩
  rcases Except.bind_eq_error h with h | ⟨_, -, h⟩
  · obtain ⟨r, hr, hre⟩ := fillValue_error h
    exact ⟨r, List.mem_of_mem_drop hr, .inr hre⟩
  · cases h

/-- Consumers that take `ns` values each see only the first `ns.sum` values. -/
theorem mem_take_sum_of_mem_splitAmong {α : Type} {ns : List Nat} {xs sl : List α} {x : α}
    (hsl : sl ∈ splitAmong ns xs) (hx : x ∈ sl) : x ∈ xs.take ns.sum := by
  induction ns generalizing xs with
  | nil => cases hsl
  | cons n ns ih =>
    rw [splitAmong, List.mem_cons] at hsl
    rw [List.sum_cons]
    rcases hsl with rfl | hsl
    · exact List.take_subset_take_left _ (Nat.le_add_right _ _) hx
    · have hx' := ih hsl
      rw [List.take_drop] at hx'
      exact List.mem_of_mem_drop hx'

theorem TagPart.render_error {t : TagPart} (h : t.render vs = .error e) : Raises vs e := by
  unfold TagPart.render at h
  split at h
  · cases h
  rcases Except.bind_eq_error h with h | ⟨_, -, h⟩
  · obtain ⟨r, hr, hre⟩ := fillName_error h
    exact ⟨r, hr, .inl hre⟩
  rcases Except.bind_eq_error h with h | ⟨_, -, h⟩
  · -- an attribute's values are a slice of those after the name's
    obtain ⟨⟨a, avs⟩, hmem, ha⟩ := mapM_eq_error h
    have hslice := (List.of_mem_zip hmem).2
    exact (Attribute.render_error ha).mono fun r hr =>
      List.mem_of_mem_drop (List.mem_of_mem_take (mem_take_sum_of_mem_splitAmong hslice hr))
  · cases h

theorem Part.render_error {p : Part} (h : p.render vs = .error e) : Raises vs e := by
  cases p with
  | content c =>
    obtain ⟨r, hr, hre⟩ := renderContent_error h
    exact ⟨r, hr, .inl hre⟩
  | tag t => exact TagPart.render_error h

/-- The parts of a template see only the first values, as many as their slots. -/
theorem Template.mapM_partSlices_error {t : Template}
    {g : Part × List Rendering → Except TemplateError String}
    (hg : ∀ p pvs, g (p, pvs) = p.render pvs) (h : (t.partSlices vs).mapM g = .error e) :
    Raises (vs.take (t.parts.map Part.slots).sum) e := by
  obtain ⟨⟨p, pvs⟩, hmem, hp⟩ := mapM_eq_error h
  rw [hg] at hp
  exact (Part.render_error hp).mono fun r hr =>
    mem_take_sum_of_mem_splitAmong (List.of_mem_zip hmem).2 hr

/-- Rendering a template fails on a count mismatch, when strict, or with an error that one of
the values its parts take raises. -/
theorem Template.renderWith_error {t : Template} {strict : Bool}
    (h : t.renderWith strict vs = .error e) :
    (strict = true ∧ vs.length ≠ t.valueCount) ∨
      Raises (vs.take (t.parts.map Part.slots).sum) e := by
  unfold Template.renderWith at h
  cases strict with
  | false =>
    dsimp only [Bool.false_eq_true, if_false] at h
    rcases Except.bind_eq_error h with h | ⟨_, -, h⟩
    · exact .inr (mapM_partSlices_error (fun _ _ => rfl) h)
    · cases h
  | true =>
    dsimp only [if_true] at h
    rcases Except.bind_eq_error h with hc | ⟨_, -, h⟩
    · refine .inl ⟨rfl, fun heq => ?_⟩
      simp [Template.checkValueCount, heq] at hc
    rcases Except.bind_eq_error h with h | ⟨_, -, h⟩
    · exact .inr (mapM_partSlices_error (fun _ _ => rfl) h)
    · cases h

end Origins

theorem Template.valueCount_of_make {literals : List String}
    {settings : MemorySettings} {t : Template} (h : Template.make literals settings = .ok t) :
    t.valueCount = (t.parts.map Part.slots).sum := by
  unfold Template.make at h
  cases hp : Template.parseLiterals literals with
  | error e =>
    rw [hp] at h
    cases h
  | ok parts =>
    rw [hp] at h
    cases h
    rfl

namespace Binding

theorem make_of_holdsObject {t : Template} {values : List Value} {strict : Bool}
    (h : ∃ v ∈ values, v.HoldsObject) :
    make t values strict = .error (.unsupportedValue "object") := by
  unfold make
  rw [Value.checkAll_of_holdsObject h]
  rfl

theorem make_of_no_object {t : Template} {values : List Value} {strict : Bool}
    (h : ∀ v ∈ values, ¬ v.HoldsObject) :
    make t values strict =
      if strict && values.length != t.valueCount then
        .error (.valueCountMismatch t.valueCount values.length)
      else .ok ⟨t, values, strict⟩ := by
  unfold make
  rw [(Value.checkAll_eq_ok_iff values).2 h]
  cases strict <;> by_cases hn : values.length = t.valueCount <;>
    simp [hn, Template.checkValueCount, bind, Except.bind, pure, Except.pure]

theorem make_eq_ok {t : Template} {values : List Value} {strict : Bool} {b : Binding}
    (hm : make t values strict = .ok b) : (∀ v ∈ values, ¬ v.HoldsObject) ∧
      (strict = true → values.length = t.valueCount) ∧ b = ⟨t, values, strict⟩ := by
  by_cases hobj : ∃ v ∈ values, v.HoldsObject
  · rw [make_of_holdsObject hobj] at hm
    cases hm
  have hno : ∀ v ∈ values, ¬ v.HoldsObject := fun v hv ho => hobj ⟨v, hv, ho⟩
  rw [make_of_no_object hno] at hm
  split at hm
  · cases hm
  · rename_i hc
    cases hm
    exact ⟨hno, fun hs => by simpa [hs] using hc, rfl⟩

/-- Giving a binding new values either replaces its values or, refused, leaves it as it was. -/
theorem assign_outcome (b : Binding) (values : List Value) :
    (b.assign values).1 = .ok () ∧ (b.assign values).2 = { b with values } ∨
      (∃ e, (b.assign values).1 = .error e) ∧ (b.assign values).2 = b := by
  unfold assign setValues
  cases hm : make b.template values b.strict with
  | ok b' =>
    obtain ⟨-, -, rfl⟩ := make_eq_ok hm
    exact .inl ⟨rfl, rfl⟩
  | error e => exact .inr ⟨⟨e, rfl⟩, rfl⟩

/-- The bindings a program can hold: bound by `Binding.make` to a template made from literals,
as `Store.html` binds them, then given new values any number of times. -/
inductive Reachable : Binding → Prop
  | make {literals : List String} {settings : MemorySettings} {t : Template}
      {values : List Value} {strict : Bool} {b : Binding} :
      Template.make literals settings = .ok t → Binding.make t values strict = .ok b → Reachable b
  | assign {b : Binding} (values : List Value) : Reachable b → Reachable (b.assign values).2

/-- What binding checks, over a template whose count of values is that of its parts' slots. -/
structure Checked (b : Binding) : Prop where
  slots : b.template.valueCount = (b.template.parts.map Part.slots).sum
  no_object : ∀ v ∈ b.values, ¬ v.HoldsObject
  count : b.strict = true → b.values.length = b.template.valueCount

theorem Checked.assign {b : Binding} (h : b.Checked) (values : List Value) :
    (b.assign values).2.Checked := by
  unfold Binding.assign Binding.setValues
  cases hm : make b.template values b.strict with
  | ok b' =>
    obtain ⟨hno, hcount, rfl⟩ := make_eq_ok hm
    exact ⟨h.slots, hno, hcount⟩
  | error e => exact h

theorem Reachable.checked {b : Binding} (h : b.Reachable) : b.Checked := by
  induction h with
  | make ht hm =>
    obtain ⟨hno, hcount, rfl⟩ := make_eq_ok hm
    exact ⟨Template.valueCount_of_make ht, hno, hcount⟩
  | assign values _ ih => exact ih.assign values

/-- What a binding promises its user. -/
structure Sound (b : Binding) : Prop where
  /-- No value holds an object, at any depth of lists. -/
  no_object : ∀ v ∈ b.values, ¬ v.HoldsObject
  /-- A strict binding has one value per slot. -/
  count : b.strict = true → b.values.length = b.template.valueCount
  /-- Each part is paired with its slice of the values, without error. -/
  partsWithValues : b.partsWithValues = .ok (b.template.partSlices b.values)
  /-- Rendering fails only where markup among the values the template takes fails, with that
  markup's error. -/
  compile_error : ∀ e, b.compile = .error e →
    ∃ v ∈ b.values.take b.template.valueCount, v.FailingMarkup e

theorem Checked.partsWithValues {b : Binding} (h : b.Checked) :
    b.partsWithValues = .ok (b.template.partSlices b.values) := by
  unfold Binding.partsWithValues
  cases hs : b.strict with
  | false => rfl
  | true =>
    simp [Template.partsWithValues, Template.checkValueCount, h.count hs, bind, Except.bind, pure,
      Except.pure]

theorem Checked.compile_error {b : Binding} (h : b.Checked) {e : TemplateError}
    (hc : b.compile = .error e) : ∃ v ∈ b.values.take b.template.valueCount, v.FailingMarkup e := by
  have hc' : b.template.renderWith b.strict (b.values.map Value.rendering) = .error e := hc
  rcases Template.renderWith_error hc' with ⟨hs, hn⟩ | hr
  · exact absurd (by simpa using h.count hs) hn
  rw [← h.slots, ← List.map_take] at hr
  obtain ⟨r, hr, hre⟩ := hr
  obtain ⟨v, hv, rfl⟩ := List.mem_map.1 hr
  -- the value's rendering raised the error, and the value holds no object
  have hv' : v.FailingMarkup e ∨ v.HoldsObject := by
    rcases hre with hre | hre
    · exact Value.nodeText_error v hre
    · exact Value.attrValueText_error hre
  exact ⟨v, hv, hv'.resolve_right (h.no_object v (List.mem_of_mem_take hv))⟩

theorem Checked.sound {b : Binding} (h : b.Checked) : b.Sound :=
  ⟨h.no_object, h.count, h.partsWithValues, fun _ => h.compile_error⟩

/-- Bound values always render. Giving a binding new values replaces them or, when they are
refused, leaves the binding as it was; and every binding a program can hold has values without
objects, one per slot when it is strict, pairs its parts with their values, and renders unless
markup among the values it takes fails, with that markup's error. -/
theorem reachable_sound :
    (∀ (b : Binding) (values : List Value),
      (b.assign values).1 = .ok () ∧ (b.assign values).2 = { b with values } ∨
        (∃ e, (b.assign values).1 = .error e) ∧ (b.assign values).2 = b) ∧
      ∀ b : Binding, b.Reachable → b.Sound :=
  ⟨assign_outcome, fun _ h => h.checked.sound⟩

/-- A lenient binding of failing markup, refused an object afterwards, is one a program can hold,
and it keeps its promises. -/
theorem reachable_sound_refused_object :
    ∃ t, Template.make ["<p>", "</p>"] {} = .ok t ∧
      ((⟨t, [.markup (.error (.unsupportedValue "failing"))], false⟩ : Binding).assign
        [.object []]).2.Reachable ∧
      ((⟨t, [.markup (.error (.unsupportedValue "failing"))], false⟩ : Binding).assign
        [.object []]).2.Sound := by
  obtain ⟨t, ht⟩ := Template.make_ok ["<p>", "</p>"] {}
  have hm : Binding.make t [.markup (.error (.unsupportedValue "failing"))] false =
      .ok ⟨t, [.markup (.error (.unsupportedValue "failing"))], false⟩ := rfl
  have hr : ((⟨t, [.markup (.error (.unsupportedValue "failing"))], false⟩ : Binding).assign
      [.object []]).2.Reachable := .assign _ (.make ht hm)
  exact ⟨t, ht, hr, reachable_sound.2 _ hr⟩

end Binding

end HtmlTemplates
