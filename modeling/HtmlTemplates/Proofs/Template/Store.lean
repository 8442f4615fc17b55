import HtmlTemplates.Proofs.Template.Binding
import HtmlTemplates.Template.Store
/-!
What a store hands out, and what `html` accepts.

A store is *consistent* when each template it holds is the one its literals make with the
store's settings. Looking literals up keeps a store consistent and hands out the template the
literals make (`Store.fetch_spec`), and that template takes one value fewer than its literals
(`Template.valueCount_eq_of_make`).

`html` first looks up its literals, with an empty literal added when there are as many values as
literals, and only then checks the values: an object anywhere refuses them, and a strict store
then needs one value per slot (`Store.html_instantiates`). So a strict store accepts exactly
one value fewer than the literals, or as many values as literals, one or more, which it reads as
a template that ends with a value.
-/
namespace HtmlTemplates

open HtmlTemplates.Markup

/-- A template made from literals takes one value fewer than its literals. -/
theorem Template.valueCount_eq_of_make {literals : List String} {settings : MemorySettings}
    {t : Template} (h : Template.make literals settings = .ok t) :
    t.valueCount = literals.length - 1 := by
  rw [valueCount_of_make h]
  by_cases hl : literals = []
  · subst hl
    simp [make, parseLiterals, tokenizeLiterals, scanLiterals, scanFrom, eventsOf] at h
    cases h
    rfl
  obtain ⟨events, htok, hw, hcount, -⟩ := walk_tokenizeLiterals hl
  have hparts : t.parts = partsOfEvents events := by
    simp only [make, parseLiterals, htok] at h
    cases h
    rfl
  rw [hparts, sum_slots_partsOfEvents hw (by decide), hcount]

namespace Store

/-- Each stored template is the one its literals make with the store's settings. -/
def Consistent (s : Store) : Prop :=
  ∀ e ∈ s.entries, Template.make e.1 s.settings.memory = .ok e.2.template

theorem consistent_empty (settings : Settings) : ({ settings } : Store).Consistent :=
  fun _ h => nomatch h

theorem mem_entries_of_find? {s : Store} {literals : List String} {shared : SharedTemplate}
    (h : s.find? literals = some shared) : (literals, shared) ∈ s.entries := by
  obtain ⟨e, he, rfl⟩ := Option.map_eq_some_iff.1 h
  have hkey : e.1 = literals := by simpa using List.find?_some he
  have hmem := List.mem_of_find?_eq_some he
  rwa [← hkey]

theorem fetch_of_find? {s : Store} {literals : List String} {shared : SharedTemplate}
    (h : s.find? literals = some shared) : s.fetch literals = .ok ⟨shared, true, s⟩ := by
  unfold fetch
  rw [h]

/-- A miss parses the literals, hands the template out under the next serial, and stores it
while the store holds fewer templates than its limit. -/
theorem fetch_of_find?_none {s : Store} {literals : List String} {t : Template}
    (h : s.find? literals = none) (ht : Template.make literals s.settings.memory = .ok t) :
    s.fetch literals = .ok ⟨⟨s.parsed, t⟩, false,
      if s.size < s.settings.memory.maxCachedTemplates then
        { s with parsed := s.parsed + 1, entries := s.entries ++ [(literals, ⟨s.parsed, t⟩)] }
      else { s with parsed := s.parsed + 1 }⟩ := by
  unfold fetch
  rw [h]
  simp only [ht, bind, Except.bind, pure, Except.pure, size]
  rfl

/-- A look-up never fails, keeps a consistent store consistent, with its settings, and hands
out the template the literals make. -/
theorem fetch_spec {s : Store} (hs : s.Consistent) (literals : List String) :
    ∃ f, s.fetch literals = .ok f ∧ f.store.settings = s.settings ∧ f.store.Consistent ∧
      Template.make literals s.settings.memory = .ok f.shared.template := by
  cases hfind : s.find? literals with
  | some shared =>
    exact ⟨_, fetch_of_find? hfind, rfl, hs, hs _ (mem_entries_of_find? hfind)⟩
  | none =>
    obtain ⟨t, ht⟩ := Template.make_ok literals s.settings.memory
    refine ⟨_, fetch_of_find?_none hfind ht, ?_, ?_, ht⟩
    · split <;> rfl
    · split
      · intro e he
        rcases List.mem_append.1 he with he | he
        · exact hs e he
        · rw [List.mem_singleton.1 he]
          exact ht
      · exact hs

end Store

theorem withTrailingSlot_of_eq {literals : List String} {n : Nat} (hl : literals ≠ [])
    (hn : n = literals.length) : withTrailingSlot literals n = literals ++ [""] := by
  simp [withTrailingSlot, hl, hn]

theorem withTrailingSlot_of_not {literals : List String} {n : Nat}
    (h : ¬ (literals ≠ [] ∧ n = literals.length)) : withTrailingSlot literals n = literals := by
  unfold withTrailingSlot
  rw [if_neg]
  simpa [List.isEmpty_iff] using h

/-- The values a template for `withTrailingSlot literals n` takes are `n` exactly when `n` is
one fewer than the literals, or as many as the literals, one or more. -/
theorem length_withTrailingSlot_sub_one {literals : List String} {n : Nat} :
    n = (withTrailingSlot literals n).length - 1 ↔
      n = literals.length - 1 ∨ n = literals.length ∧ literals ≠ [] := by
  by_cases h : literals ≠ [] ∧ n = literals.length
  · rw [withTrailingSlot_of_eq h.1 h.2]
    simp only [List.length_append, List.length_singleton, Nat.add_sub_cancel]
    exact ⟨fun _ => .inr ⟨h.2, h.1⟩, fun _ => h.2⟩
  · rw [withTrailingSlot_of_not h]
    exact ⟨.inl, fun hn => hn.resolve_right fun ⟨h₁, h₂⟩ => h ⟨h₂, h₁⟩⟩

/-- What `html` does with literals and values, as a store `s` answers them with `r`. -/
structure Store.Instantiates (s : Store) (literals : List String) (values : List Value)
    (r : Instantiated) : Prop where
  /-- It looks up the literals, with an empty literal added for a trailing value, whatever the
  values turn out to be. -/
  fetched : s.fetch (withTrailingSlot literals values.length) = .ok r.fetched
  /-- It refuses the values with `unsupportedValue "object"` exactly when one holds an object. -/
  object : r.binding = .error (.unsupportedValue "object") ↔ ∃ v ∈ values, v.HoldsObject
  /-- Without objects, a strict store needs one value per slot of the template. -/
  strict : (∀ v ∈ values, ¬ v.HoldsObject) → s.settings.strict = true →
    r.binding =
      if values.length = (withTrailingSlot literals values.length).length - 1 then
        .ok ⟨r.fetched.shared.template, values, true⟩
      else .error (.valueCountMismatch
        ((withTrailingSlot literals values.length).length - 1) values.length)
  /-- Without objects, a lenient store takes the values as they are. -/
  lenient : (∀ v ∈ values, ¬ v.HoldsObject) → s.settings.strict = false →
    r.binding = .ok ⟨r.fetched.shared.template, values, false⟩
  /-- A strict store accepts values without objects, one fewer than the literals or, one or
  more, as many. -/
  accepts : s.settings.strict = true → ((∃ b, r.binding = .ok b) ↔
    (∀ v ∈ values, ¬ v.HoldsObject) ∧
      (values.length = literals.length - 1 ∨ values.length = literals.length ∧ literals ≠ []))
  /-- As many values as literals are read as the literals followed by an empty one. -/
  trailing : literals ≠ [] → values.length = literals.length →
    s.html (literals ++ [""]) values = .ok r

/-- What `html` accepts: from any consistent store, it looks up the literals (an empty one added
for a trailing value) before anything else, refuses objects first and then, when strict, a
count other than the template's. -/
theorem Store.html_instantiates (s : Store) (hs : s.Consistent) (literals : List String)
    (values : List Value) :
    ∃ r, s.html literals values = .ok r ∧ s.Instantiates literals values r := by
  obtain ⟨f, hf, -, -, hmake⟩ := fetch_spec hs (withTrailingSlot literals values.length)
  have hcount := Template.valueCount_eq_of_make hmake
  have hhtml : s.html literals values = .ok ⟨f, Binding.make f.shared.template values
      s.settings.strict⟩ := by
    simp only [Store.html, hf, bind, Except.bind, pure, Except.pure]
  -- the binding, by whether a value holds an object
  have hno : (∀ v ∈ values, ¬ v.HoldsObject) → Binding.make f.shared.template values
      s.settings.strict = if s.settings.strict && values.length !=
        (withTrailingSlot literals values.length).length - 1 then
        .error (.valueCountMismatch ((withTrailingSlot literals values.length).length - 1)
          values.length)
      else .ok ⟨f.shared.template, values, s.settings.strict⟩ := fun h => by
    rw [Binding.make_of_no_object h, hcount]
  refine ⟨_, hhtml, ⟨hf, ⟨fun h => ?_, fun h => Binding.make_of_holdsObject h⟩, fun h hstrict => ?_,
    fun h hstrict => ?_, fun hstrict => ?_, fun hl hn => ?_⟩⟩
  · -- a refusal for an object comes only from an object
    refine Classical.byContradiction fun hobj => ?_
    have hno' : ∀ v ∈ values, ¬ v.HoldsObject := fun v hv ho => hobj ⟨v, hv, ho⟩
    rw [hno hno'] at h
    split at h <;> cases h
  · rw [hno h, hstrict]
    generalize (withTrailingSlot literals values.length).length - 1 = n
    by_cases hn : values.length = n <;> simp [hn]
  · rw [hno h, hstrict]
    rfl
  · rw [← length_withTrailingSlot_sub_one]
    constructor
    · rintro ⟨b, hb⟩
      by_cases hobj : ∃ v ∈ values, v.HoldsObject
      · rw [Binding.make_of_holdsObject hobj] at hb
        cases hb
      have hno' : ∀ v ∈ values, ¬ v.HoldsObject := fun v hv ho => hobj ⟨v, hv, ho⟩
      refine ⟨hno', Classical.byContradiction fun hn => ?_⟩
      rw [hno hno', hstrict] at hb
      generalize (withTrailingSlot literals values.length).length - 1 = n at hn hb
      simp [hn] at hb
    · rintro ⟨hno', hn⟩
      refine ⟨⟨f.shared.template, values, true⟩, ?_⟩
      rw [hno hno', hstrict]
      generalize (withTrailingSlot literals values.length).length - 1 = n at hn ⊢
      simp [hn]
  · -- the literals with an empty one added need no further one
    have h₁ := withTrailingSlot_of_eq hl hn
    have h₂ : withTrailingSlot (literals ++ [""]) values.length = literals ++ [""] :=
      withTrailingSlot_of_not fun ⟨_, h⟩ => by simp at h; omega
    simp only [Store.html, h₂]
    rw [← h₁, hf]
    rfl

/-- A fresh strict store given three literals and one value: the lookup happens, and the count
is refused. -/
theorem Store.html_instantiates_missing_value :
    ({} : Store).Consistent ∧ ∃ r, ({} : Store).html ["<p>", "</p>", "</div>"] [.null] = .ok r ∧
      ({} : Store).Instantiates ["<p>", "</p>", "</div>"] [.null] r :=
  ⟨consistent_empty {}, Store.html_instantiates {} (consistent_empty {}) _ _⟩

end HtmlTemplates
