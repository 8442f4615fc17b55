import HtmlTemplates.Proofs.Template.Store
/-!
A store over a run of calls.

A store looks literals up by their content, literal by literal: `["a", "b"]` and `["ab"]` are
different literals. It stores what it parses while it holds fewer templates than its limit, and
never drops one. Started empty, it therefore holds the templates of the first distinct literals
requested, no more than its limit, in the order they were first requested (`Store.Tracks`,
which every call keeps). Every template a call hands out is the one its literals make, and a
membership test answers whether the literals are stored.

Two requests for the same literals get the same template exactly when the first of them left
it stored: a stored template is handed out again (`Store.run_of_find?`), and literals that are
not stored in a full store are parsed afresh at every later request (`Store.run_of_full`).
-/
namespace HtmlTemplates

section Lists

variable {α : Type} [BEq α] [LawfulBEq α]

/-- Requesting one more element adds it to the distinct ones exactly when it is new. -/
theorem eraseDups_append_singleton (l : List α) (a : α) :
    (l ++ [a]).eraseDups = l.eraseDups ++ if a ∈ l then [] else [a] := by
  rw [List.eraseDups_append]
  congr 1
  by_cases ha : a ∈ l <;> simp [List.removeAll, ha, List.eraseDups_cons]

theorem eraseDups_isPrefix_eraseDups {l₁ l₂ : List α} (h : l₁ <+: l₂) :
    l₁.eraseDups <+: l₂.eraseDups := by
  obtain ⟨t, rfl⟩ := h
  rw [List.eraseDups_append]
  exact List.prefix_append _ _

end Lists

namespace Store

/-- The literals a store holds templates for, in the order they were stored. -/
def keys (s : Store) : List (List String) := s.entries.map (·.1)

/-- The literals a call looks up: those of `getOrParse`, and those of `html` with an empty
literal added for a trailing value. -/
def Call.request? : Call → Option (List String)
  | .getOrParse literals => some literals
  | .html literals values => some (withTrailingSlot literals values.length)
  | .contains _ | .len => none

/-- The template a reply hands out. -/
def Reply.shared? : Reply → Option SharedTemplate
  | .template shared | .html shared _ => some shared
  | .contains _ | .len _ => none

theorem filterMap_request?_cons (c : Call) (cs : List Call) :
    (c :: cs).filterMap Call.request? = c.request?.toList ++ cs.filterMap Call.request? := by
  cases h : c.request? <;> simp [h]

theorem size_eq_length_keys (s : Store) : s.size = s.keys.length := by
  simp [size, keys]

theorem find?_eq_none_iff {s : Store} {literals : List String} :
    s.find? literals = none ↔ literals ∉ s.keys := by
  simp only [find?, keys, Option.map_eq_none_iff, List.find?_eq_none, beq_iff_eq, List.mem_map,
    not_exists, not_and]

theorem contains_eq (s : Store) (literals : List String) :
    s.contains literals = decide (literals ∈ s.keys) := by
  rw [Bool.eq_iff_iff, decide_eq_true_iff, contains, Option.isSome_iff_ne_none, Ne,
    find?_eq_none_iff, not_not]

/-- Stored templates stay found as entries are added behind them. -/
theorem find?_of_extends {s s' : Store} (hp : s.entries <+: s'.entries) {literals : List String}
    {shared : SharedTemplate} (h : s.find? literals = some shared) :
    s'.find? literals = some shared := by
  obtain ⟨rest, hrest⟩ := hp
  obtain ⟨e, he, rfl⟩ := Option.map_eq_some_iff.1 h
  simp [find?, ← hrest, List.find?_append, he]

/-! ### One look-up -/

/-- A look-up either finds the literals stored and leaves the store as it is, or parses them
under the next serial, counts the parse, and stores the template when there is room. -/
theorem fetch_cases {s : Store} {literals : List String} {f : Fetched}
    (h : s.fetch literals = .ok f) :
    s.find? literals = some f.shared ∧ f.store = s ∨
      s.find? literals = none ∧ f.shared.serial = s.parsed ∧ f.store.settings = s.settings ∧
        f.store.parsed = s.parsed + 1 ∧
        f.store.entries = if s.size < s.settings.memory.maxCachedTemplates then
          s.entries ++ [(literals, f.shared)] else s.entries := by
  cases hfind : s.find? literals with
  | some shared =>
    rw [fetch_of_find? hfind] at h
    cases h
    exact .inl ⟨rfl, rfl⟩
  | none =>
    obtain ⟨t, ht⟩ := Template.make_ok literals s.settings.memory
    rw [fetch_of_find?_none hfind ht] at h
    cases h
    by_cases hroom : s.size < s.settings.memory.maxCachedTemplates <;>
      simp [hroom]

theorem fetch_extends {s : Store} {literals : List String} {f : Fetched}
    (h : s.fetch literals = .ok f) : s.entries <+: f.store.entries := by
  rcases fetch_cases h with ⟨-, hstore⟩ | ⟨-, -, -, -, hentries⟩
  · rw [hstore]
  · rw [hentries]
    split
    · exact List.prefix_append _ _
    · exact List.prefix_refl _

/-- After a look-up, literals that are stored give the template it handed out. -/
theorem fetch_find? {s : Store} {literals : List String} {f : Fetched}
    (h : s.fetch literals = .ok f) (hmem : literals ∈ f.store.keys) :
    f.store.find? literals = some f.shared := by
  rcases fetch_cases h with ⟨hfind, hstore⟩ | ⟨hfind, -, -, -, hentries⟩
  · rw [hstore, hfind]
  · have hnot := find?_eq_none_iff.1 hfind
    by_cases hroom : s.size < s.settings.memory.maxCachedTemplates
    · have hnone := Option.map_eq_none_iff.1 hfind
      simp [find?, hentries, hroom, List.find?_append, hnone]
    · simp only [keys, hentries, if_neg hroom] at hmem
      exact absurd hmem hnot

/-- Literals a look-up leaves unstored were parsed under the store's serial, and the store was
full: it stays so, with the same entries and one more parse. -/
theorem fetch_of_not_mem_keys {s : Store} {literals : List String} {f : Fetched}
    (h : s.fetch literals = .ok f) (hnot : literals ∉ f.store.keys) :
    f.shared.serial = s.parsed ∧ f.store.settings = s.settings ∧
      f.store.parsed = s.parsed + 1 ∧ f.store.entries = s.entries ∧
      s.settings.memory.maxCachedTemplates ≤ s.size := by
  rcases fetch_cases h with ⟨hfind, hstore⟩ | ⟨-, hserial, hsettings, hparsed, hentries⟩
  · -- a hit leaves the literals stored
    rw [hstore, ← find?_eq_none_iff, hfind] at hnot
    cases hnot
  · by_cases hroom : s.size < s.settings.memory.maxCachedTemplates
    · simp [keys, hentries, hroom] at hnot
    · rw [if_neg hroom] at hentries
      exact ⟨hserial, hsettings, hparsed, hentries, Nat.le_of_not_lt hroom⟩

/-- The store after the requests `requests`, from an empty one with settings `settings`: it is
consistent, and holds the templates of the first distinct requests, no more than its limit, in
the order they were first requested. -/
structure Tracks (settings : Settings) (requests : List (List String)) (s : Store) : Prop where
  settings_eq : s.settings = settings
  consistent : s.Consistent
  keys_eq : s.keys = requests.eraseDups.take settings.memory.maxCachedTemplates

theorem tracks_empty (settings : Settings) : Tracks settings [] { settings } :=
  ⟨rfl, consistent_empty settings, by simp [keys]⟩

theorem Tracks.mem_requests {settings : Settings} {requests : List (List String)} {s : Store}
    (hs : Tracks settings requests s) {literals : List String} (h : literals ∈ s.keys) :
    literals ∈ requests := by
  rw [hs.keys_eq] at h
  exact List.mem_eraseDups.1 (List.mem_of_mem_take h)

/-- A look-up adds the literals to the requests the store tracks. -/
theorem Tracks.fetch {settings : Settings} {requests : List (List String)} {s : Store}
    (hs : Tracks settings requests s) {literals : List String} {f : Fetched}
    (h : s.fetch literals = .ok f) : Tracks settings (requests ++ [literals]) f.store := by
  obtain ⟨f', hf', hsettings, hconsistent, -⟩ := fetch_spec hs.consistent literals
  rw [h] at hf'
  cases hf'
  refine ⟨hsettings.trans hs.settings_eq, hconsistent, ?_⟩
  rw [eraseDups_append_singleton]
  have hlen := congrArg List.length hs.keys_eq
  rw [List.length_take, ← size_eq_length_keys] at hlen
  rcases fetch_cases h with ⟨hfind, hstore⟩ | ⟨hfind, -, -, -, hentries⟩
  · -- a hit: the literals were requested before, and nothing changes
    have hmem : literals ∈ requests :=
      hs.mem_requests (Classical.byContradiction fun hnot => by
        rw [find?_eq_none_iff.2 hnot] at hfind
        cases hfind)
    rw [if_pos hmem, List.append_nil, hstore, hs.keys_eq]
  · rw [hs.settings_eq] at hentries
    by_cases hroom : s.size < settings.memory.maxCachedTemplates
    · -- room: every distinct request so far is stored, and the new literals join them
      have hall : requests.eraseDups.take settings.memory.maxCachedTemplates =
          requests.eraseDups := List.take_of_length_le (by omega)
      have hnew : literals ∉ requests := fun hmem =>
        find?_eq_none_iff.1 hfind (by rw [hs.keys_eq, hall]; exact List.mem_eraseDups.2 hmem)
      have hkeys : f.store.keys = s.keys ++ [literals] := by simp [keys, hentries, hroom]
      rw [if_neg hnew, List.take_of_length_le (by simp; omega), hkeys, hs.keys_eq, hall]
    · -- full: the limit falls within the distinct requests so far
      have hkeys : f.store.keys = s.keys := by simp [keys, hentries, hroom]
      rw [List.take_append_of_le_length (by omega), ← hs.keys_eq, hkeys]

/-! ### One call -/

/-- A call that looks literals up makes the look-up and hands out its template; the others
leave the store as it is. -/
theorem call_cases {s : Store} {c : Call} {r : Reply} {s' : Store}
    (h : s.call c = .ok (r, s')) :
    (∃ literals f, c.request? = some literals ∧ s.fetch literals = .ok f ∧
      r.shared? = some f.shared ∧ s' = f.store) ∨ c.request? = none ∧ s' = s := by
  cases c with
  | getOrParse literals =>
    cases hf : s.fetch literals with
    | error e => simp [call, hf, bind, Except.bind] at h
    | ok f =>
      simp only [call, hf, bind, Except.bind, pure, Except.pure, Except.ok.injEq,
        Prod.mk.injEq] at h
      exact .inl ⟨literals, f, rfl, hf, by rw [← h.1]; rfl, h.2.symm⟩
  | html literals values =>
    cases hf : s.fetch (withTrailingSlot literals values.length) with
    | error e => simp [call, Store.html, hf, bind, Except.bind] at h
    | ok f =>
      simp only [call, Store.html, hf, bind, Except.bind, pure, Except.pure, Except.ok.injEq,
        Prod.mk.injEq] at h
      exact .inl ⟨_, f, rfl, hf, by rw [← h.1]; rfl, h.2.symm⟩
  | contains literals =>
    simp only [call, pure, Except.pure, Except.ok.injEq, Prod.mk.injEq] at h
    exact .inr ⟨rfl, h.2.symm⟩
  | len =>
    simp only [call, pure, Except.pure, Except.ok.injEq, Prod.mk.injEq] at h
    exact .inr ⟨rfl, h.2.symm⟩

/-- A call that requests literals looks them up and hands out the template it finds. -/
theorem call_of_request? {s : Store} {c : Call} {r : Reply} {s' : Store}
    (h : s.call c = .ok (r, s')) {literals : List String} (hreq : c.request? = some literals) :
    ∃ f, s.fetch literals = .ok f ∧ r.shared? = some f.shared ∧ s' = f.store := by
  rcases call_cases h with ⟨literals', f, hreq', hf, hr, hs'⟩ | ⟨hnone, -⟩
  · rw [hreq, Option.some.injEq] at hreq'
    subst hreq'
    exact ⟨f, hf, hr, hs'⟩
  · rw [hreq] at hnone
    cases hnone

/-- A call on a consistent store never fails. -/
theorem call_ok {s : Store} (hs : s.Consistent) (c : Call) : ∃ r s', s.call c = .ok (r, s') := by
  cases c with
  | getOrParse literals =>
    obtain ⟨f, hf, -⟩ := fetch_spec hs literals
    exact ⟨.template f.shared, f.store,
      by simp [call, hf, bind, Except.bind, pure, Except.pure]⟩
  | html literals values =>
    obtain ⟨f, hf, -⟩ := fetch_spec hs (withTrailingSlot literals values.length)
    exact ⟨.html f.shared (Binding.make f.shared.template values s.settings.strict), f.store,
      by simp [call, Store.html, hf, bind, Except.bind, pure, Except.pure]⟩
  | contains literals => exact ⟨_, _, rfl⟩
  | len => exact ⟨_, _, rfl⟩

theorem Tracks.call {settings : Settings} {requests : List (List String)} {s : Store}
    (hs : Tracks settings requests s) {c : Call} {r : Reply} {s' : Store}
    (h : s.call c = .ok (r, s')) : Tracks settings (requests ++ c.request?.toList) s' := by
  rcases call_cases h with ⟨literals, f, hc, hf, -, rfl⟩ | ⟨hc, rfl⟩
  · rw [hc, Option.toList_some]
    exact hs.fetch hf
  · rw [hc, Option.toList_none, List.append_nil]
    exact hs

theorem call_extends {s : Store} {c : Call} {r : Reply} {s' : Store}
    (h : s.call c = .ok (r, s')) : s.entries <+: s'.entries := by
  rcases call_cases h with ⟨literals, f, -, hf, -, rfl⟩ | ⟨-, rfl⟩
  · exact fetch_extends hf
  · exact List.prefix_refl _

/-- A call on a full store leaves its entries and settings, and counts no fewer parses. -/
theorem call_of_full {s : Store} (hfull : s.settings.memory.maxCachedTemplates ≤ s.size)
    {c : Call} {r : Reply} {s' : Store} (h : s.call c = .ok (r, s')) :
    s'.settings = s.settings ∧ s'.entries = s.entries ∧ s.parsed ≤ s'.parsed := by
  rcases call_cases h with ⟨literals, f, -, hf, -, rfl⟩ | ⟨-, rfl⟩
  · rcases fetch_cases hf with ⟨-, hstore⟩ | ⟨-, -, hsettings, hparsed, hentries⟩
    · rw [hstore]
      exact ⟨rfl, rfl, le_rfl⟩
    · rw [if_neg (Nat.not_lt.2 hfull)] at hentries
      exact ⟨hsettings, hentries, by omega⟩
  · exact ⟨rfl, rfl, le_rfl⟩

/-! ### A run of calls -/

theorem run_cons {s : Store} {c : Call} {cs : List Call} {steps : List (Reply × Store)}
    (h : s.run (c :: cs) = .ok steps) :
    ∃ r s' rest, s.call c = .ok (r, s') ∧ s'.run cs = .ok rest ∧ steps = (r, s') :: rest := by
  cases hc : s.call c with
  | error e => simp [run, hc, bind, Except.bind] at h
  | ok p =>
    obtain ⟨r, s'⟩ := p
    cases hrest : s'.run cs with
    | error e => simp [run, hc, hrest, bind, Except.bind] at h
    | ok rest =>
      simp only [run, hc, hrest, bind, Except.bind, pure, Except.pure, Except.ok.injEq] at h
      exact ⟨r, s', rest, rfl, hrest, h.symm⟩

/-- From a tracked store, a run never fails. -/
theorem run_ok {settings : Settings} {requests : List (List String)} {s : Store}
    (hs : Tracks settings requests s) (calls : List Call) : ∃ steps, s.run calls = .ok steps := by
  induction calls generalizing requests s with
  | nil => exact ⟨[], rfl⟩
  | cons c cs ih =>
    obtain ⟨r, s', hc⟩ := call_ok hs.consistent c
    obtain ⟨rest, hrest⟩ := ih (hs.call hc)
    exact ⟨(r, s') :: rest, by simp [run, hc, hrest, bind, Except.bind, pure, Except.pure]⟩

theorem run_length {s : Store} {calls : List Call} {steps : List (Reply × Store)}
    (h : s.run calls = .ok steps) : steps.length = calls.length := by
  induction calls generalizing s steps with
  | nil =>
    cases h
    rfl
  | cons c cs ih =>
    obtain ⟨r, s', rest, -, hrest, rfl⟩ := run_cons h
    simp [ih hrest]

/-- Each call of a run is made on the store that tracks the requests of the calls before it. -/
theorem run_call {settings : Settings} {requests : List (List String)} {s : Store}
    (hs : Tracks settings requests s) {calls : List Call} {steps : List (Reply × Store)}
    (h : s.run calls = .ok steps) {i : Nat} {c : Call} {r : Reply} {s' : Store}
    (hc : calls[i]? = some c) (hi : steps[i]? = some (r, s')) :
    ∃ s₀, Tracks settings (requests ++ (calls.take i).filterMap Call.request?) s₀ ∧
      s₀.call c = .ok (r, s') := by
  induction calls generalizing requests s steps i with
  | nil => simp at hc
  | cons c₀ cs ih =>
    obtain ⟨r₀, s₀, rest, hc₀, hrest, rfl⟩ := run_cons h
    cases i with
    | zero =>
      simp only [List.getElem?_cons_zero, Option.some.injEq, Prod.mk.injEq] at hc hi
      obtain ⟨rfl, rfl⟩ := hi
      subst hc
      exact ⟨s, by simpa using hs, hc₀⟩
    | succ i =>
      simp only [List.getElem?_cons_succ] at hc hi
      obtain ⟨s₁, hs₁, hcall⟩ := ih (hs.call hc₀) hrest hc hi
      refine ⟨s₁, ?_, hcall⟩
      rwa [List.take_succ_cons, filterMap_request?_cons, ← List.append_assoc]

/-- The calls after one of a run are a run from the store it leaves. -/
theorem run_drop {s : Store} {calls : List Call} {steps : List (Reply × Store)}
    (h : s.run calls = .ok steps) {i : Nat} {r : Reply} {s' : Store}
    (hi : steps[i]? = some (r, s')) : s'.run (calls.drop (i + 1)) = .ok (steps.drop (i + 1)) := by
  induction calls generalizing s steps i with
  | nil =>
    cases h
    simp at hi
  | cons c cs ih =>
    obtain ⟨r₀, s₀, rest, -, hrest, rfl⟩ := run_cons h
    cases i with
    | zero =>
      simp only [List.getElem?_cons_zero, Option.some.injEq, Prod.mk.injEq] at hi
      obtain ⟨rfl, rfl⟩ := hi
      exact hrest
    | succ i =>
      simp only [List.getElem?_cons_succ] at hi
      exact ih hrest hi

/-- A stored template is handed out at every later request of its literals. -/
theorem run_of_find? {s : Store} {literals : List String} {shared : SharedTemplate}
    (hfind : s.find? literals = some shared) {calls : List Call} {steps : List (Reply × Store)}
    (h : s.run calls = .ok steps) {j : Nat} {c : Call} {r : Reply} {s' : Store}
    (hc : calls[j]? = some c) (hj : steps[j]? = some (r, s'))
    (hreq : c.request? = some literals) : r.shared? = some shared := by
  induction calls generalizing s steps j with
  | nil => simp at hc
  | cons c₀ cs ih =>
    obtain ⟨r₀, s₀, rest, hc₀, hrest, rfl⟩ := run_cons h
    cases j with
    | zero =>
      simp only [List.getElem?_cons_zero, Option.some.injEq, Prod.mk.injEq] at hc hj
      obtain ⟨rfl, rfl⟩ := hj
      subst hc
      obtain ⟨f, hf, hr, -⟩ := call_of_request? hc₀ hreq
      rw [fetch_of_find? hfind, Except.ok.injEq] at hf
      rw [hr, ← hf]
    | succ j =>
      simp only [List.getElem?_cons_succ] at hc hj
      exact ih (find?_of_extends (call_extends hc₀) hfind) hrest hc hj

/-- In a full store, literals it does not hold are parsed afresh at every later request, under a
serial no smaller than the parses counted so far. -/
theorem run_of_full {s : Store} (hfull : s.settings.memory.maxCachedTemplates ≤ s.size)
    {literals : List String} (hnot : literals ∉ s.keys) {calls : List Call}
    {steps : List (Reply × Store)} (h : s.run calls = .ok steps) {j : Nat} {c : Call} {r : Reply}
    {s' : Store} (hc : calls[j]? = some c) (hj : steps[j]? = some (r, s'))
    (hreq : c.request? = some literals) : ∃ shared, r.shared? = some shared ∧
      s.parsed ≤ shared.serial := by
  induction calls generalizing s steps j with
  | nil => simp at hc
  | cons c₀ cs ih =>
    obtain ⟨r₀, s₀, rest, hc₀, hrest, rfl⟩ := run_cons h
    cases j with
    | zero =>
      simp only [List.getElem?_cons_zero, Option.some.injEq, Prod.mk.injEq] at hc hj
      obtain ⟨rfl, rfl⟩ := hj
      subst hc
      obtain ⟨f, hf, hr, -⟩ := call_of_request? hc₀ hreq
      rcases fetch_cases hf with ⟨hfind, -⟩ | ⟨-, hserial, -⟩
      · rw [find?_eq_none_iff.2 hnot] at hfind
        cases hfind
      · exact ⟨f.shared, hr, hserial.ge⟩
    | succ j =>
      simp only [List.getElem?_cons_succ] at hc hj
      -- the store stays full, without the literals, and counts no fewer parses
      obtain ⟨hsettings, hentries, hparsed⟩ := call_of_full hfull hc₀
      have hfull₀ : s₀.settings.memory.maxCachedTemplates ≤ s₀.size := by
        rwa [hsettings, size, hentries]
      have hnot₀ : literals ∉ s₀.keys := by rwa [keys, hentries]
      obtain ⟨shared, hr, hserial⟩ := ih hfull₀ hnot₀ hrest hc hj
      exact ⟨shared, hr, hparsed.trans hserial⟩

section Tracked

variable {settings : Settings} {requests : List (List String)} {s : Store}
  {calls : List Call} {steps : List (Reply × Store)}

theorem exists_call_of_step (h : s.run calls = .ok steps) {i : Nat} {x : Reply × Store}
    (hi : steps[i]? = some x) : ∃ c, calls[i]? = some c := by
  have hlt : i < calls.length := by
    rw [← run_length h]
    exact (List.getElem?_eq_some_iff.1 hi).1
  exact ⟨calls[i], List.getElem?_eq_getElem hlt⟩

/-- After `i + 1` calls of a run, the store tracks their requests. -/
theorem run_tracks (hs : Tracks settings requests s) (h : s.run calls = .ok steps) {i : Nat}
    {r : Reply} {s' : Store} (hi : steps[i]? = some (r, s')) :
    Tracks settings (requests ++ (calls.take (i + 1)).filterMap Call.request?) s' := by
  obtain ⟨c, hc⟩ := exists_call_of_step h hi
  obtain ⟨s₀, hs₀, hcall⟩ := run_call hs h hc hi
  have htake : calls.take (i + 1) = calls.take i ++ [c] := by
    rw [List.take_add_one, hc, Option.toList_some]
  rw [htake, List.filterMap_append, filterMap_request?_cons, List.filterMap_nil, List.append_nil,
    ← List.append_assoc]
  exact hs₀.call hcall

/-- A template handed out in a run is the one its literals make. -/
theorem run_template (hs : Tracks settings requests s) (h : s.run calls = .ok steps) {i : Nat}
    {c : Call} {r : Reply} {s' : Store} (hc : calls[i]? = some c) (hi : steps[i]? = some (r, s'))
    {literals : List String} (hreq : c.request? = some literals) :
    ∃ shared, r.shared? = some shared ∧
      Template.make literals settings.memory = .ok shared.template := by
  obtain ⟨s₀, hs₀, hcall⟩ := run_call hs h hc hi
  obtain ⟨f, hf, hr, -⟩ := call_of_request? hcall hreq
  obtain ⟨f', hf', -, -, hmake⟩ := fetch_spec hs₀.consistent literals
  rw [hf, Except.ok.injEq] at hf'
  subst hf'
  exact ⟨f.shared, hr, hs₀.settings_eq ▸ hmake⟩

/-- A membership test in a run answers whether the literals are among the first distinct ones
requested before it, up to the limit. -/
theorem run_contains (hs : Tracks settings requests s) (h : s.run calls = .ok steps) {i : Nat}
    {literals : List String} {r : Reply} {s' : Store}
    (hc : calls[i]? = some (.contains literals)) (hi : steps[i]? = some (r, s')) :
    r = .contains (decide (literals ∈
      (requests ++ (calls.take i).filterMap Call.request?).eraseDups.take
        settings.memory.maxCachedTemplates)) := by
  obtain ⟨s₀, hs₀, hcall⟩ := run_call hs h hc hi
  have hreply : s₀.call (.contains literals) =
      .ok (.contains (s₀.contains literals), s₀) := rfl
  rw [hreply, Except.ok.injEq, Prod.mk.injEq] at hcall
  rw [← hcall.1, contains_eq, hs₀.keys_eq]

/-- Two requests of a run for the same literals get the same template exactly when the first
left its literals stored. -/
theorem run_shared (hs : Tracks settings requests s) (h : s.run calls = .ok steps) {i j : Nat}
    (hij : i < j) {literals : List String} {c c' : Call} (hc : calls[i]? = some c)
    (hc' : calls[j]? = some c') (hreq : c.request? = some literals)
    (hreq' : c'.request? = some literals) {r r' : Reply} {s' s'' : Store}
    (hi : steps[i]? = some (r, s')) (hj : steps[j]? = some (r', s'')) :
    r.shared? = r'.shared? ↔ literals ∈ s'.keys := by
  obtain ⟨s₀, -, hcall⟩ := run_call hs h hc hi
  obtain ⟨f, hf, hr, rfl⟩ := call_of_request? hcall hreq
  -- the later request, as a call of the run from the store the first one left
  have hrest := run_drop h hi
  obtain ⟨k, rfl⟩ := Nat.exists_eq_add_of_lt hij
  have hck : (calls.drop (i + 1))[k]? = some c' := by
    rw [List.getElem?_drop, ← hc', Nat.add_right_comm]
  have hjk : (steps.drop (i + 1))[k]? = some (r', s'') := by
    rw [List.getElem?_drop, ← hj, Nat.add_right_comm]
  rw [hr]
  by_cases hmem : literals ∈ f.store.keys
  · -- stored: the later request finds the same template
    rw [run_of_find? (fetch_find? hf hmem) hrest hck hjk hreq']
    exact iff_of_true rfl hmem
  · -- not stored: the store was full, and the later request parses afresh
    obtain ⟨hserial, hsettings, hparsed, hentries, hfull⟩ := fetch_of_not_mem_keys hf hmem
    have hfull' : f.store.settings.memory.maxCachedTemplates ≤ f.store.size := by
      rwa [hsettings, size, hentries]
    obtain ⟨shared, hr', hfresh⟩ := run_of_full hfull' hmem hrest hck hjk hreq'
    rw [hr']
    refine iff_of_false (fun heq => ?_) hmem
    rw [Option.some.injEq] at heq
    rw [← heq, hparsed, hserial] at hfresh
    omega

end Tracked

/-- How a store started empty with settings `settings` serves the calls `calls`: `steps` holds
each call's reply and the store after it. -/
structure Serves (settings : Settings) (calls : List Call) (steps : List (Reply × Store)) :
    Prop where
  /-- One step per call. -/
  length : steps.length = calls.length
  /-- After `i + 1` calls the store holds the first distinct literals requested, no more than its
  limit, in the order they were first requested. -/
  keys : ∀ (i : Nat) (r : Reply) (s : Store), steps[i]? = some (r, s) →
    s.keys = ((calls.take (i + 1)).filterMap Call.request?).eraseDups.take
      settings.memory.maxCachedTemplates
  /-- The stored literals only grow. -/
  grows : ∀ (i j : Nat) (r : Reply) (s : Store) (r' : Reply) (s' : Store), i ≤ j →
    steps[i]? = some (r, s) → steps[j]? = some (r', s') → s.keys <+: s'.keys
  /-- They are never more than the limit. -/
  bounded : ∀ (i : Nat) (r : Reply) (s : Store), steps[i]? = some (r, s) →
    s.size ≤ settings.memory.maxCachedTemplates
  /-- A template handed out for some literals is the one they make. -/
  template : ∀ (i : Nat) (c : Call) (r : Reply) (s : Store) (literals : List String),
    calls[i]? = some c → steps[i]? = some (r, s) → c.request? = some literals →
      ∃ shared, r.shared? = some shared ∧
        Template.make literals settings.memory = .ok shared.template
  /-- A membership test answers whether the literals are stored when it is made. -/
  contains : ∀ (i : Nat) (literals : List String) (r : Reply) (s : Store),
    calls[i]? = some (.contains literals) → steps[i]? = some (r, s) →
    r = .contains (decide (literals ∈
      ((calls.take i).filterMap Call.request?).eraseDups.take settings.memory.maxCachedTemplates))
  /-- Two requests for the same literals get the same template exactly when the first left its
  literals stored. -/
  shared : ∀ (i j : Nat) (literals : List String) (r : Reply) (s : Store) (r' : Reply)
    (s' : Store), i < j →
    calls[i]?.bind Call.request? = some literals → calls[j]?.bind Call.request? = some literals →
    steps[i]? = some (r, s) → steps[j]? = some (r', s') →
      (r.shared? = r'.shared? ↔ literals ∈ s.keys)

/-- A store started empty serves every run of calls: it only ever holds the first distinct
literals requested, up to its limit, hands out the templates they make, answers membership
tests by what it holds, and hands a template out again exactly when it stored it. -/
theorem run_serves (settings : Settings) (calls : List Call) :
    ∃ steps, ({ settings } : Store).run calls = .ok steps ∧ Serves settings calls steps := by
  have hs := tracks_empty settings
  obtain ⟨steps, h⟩ := run_ok hs calls
  have hkeys : ∀ i r s, steps[i]? = some (r, s) → s.keys = ((calls.take (i + 1)).filterMap
      Call.request?).eraseDups.take settings.memory.maxCachedTemplates := fun i r s hi => by
    simpa using (run_tracks hs h hi).keys_eq
  refine ⟨steps, h, run_length h, hkeys, ?grows, ?bounded, ?template, ?contains, ?shared⟩
  case grows =>
    intro i j r s r' s' hij hi hj
    rw [hkeys i r s hi, hkeys j r' s' hj]
    have hcalls : (calls.take (i + 1)).filterMap Call.request? <+:
        (calls.take (j + 1)).filterMap Call.request? :=
      (List.take_prefix_take_left (by omega)).filterMap _
    exact (eraseDups_isPrefix_eraseDups hcalls).take _
  case bounded =>
    intro i r s hi
    rw [size_eq_length_keys, hkeys i r s hi, List.length_take]
    exact min_le_left _ _
  case template =>
    intro i c r s literals hc hi hreq
    exact run_template hs h hc hi hreq
  case contains =>
    intro i literals r s hc hi
    simpa using run_contains hs h hc hi
  case shared =>
    intro i j literals r s r' s' hij hreq hreq' hi hj
    obtain ⟨c, hc, hcreq⟩ := Option.bind_eq_some_iff.1 hreq
    obtain ⟨c', hc', hcreq'⟩ := Option.bind_eq_some_iff.1 hreq'
    exact run_shared hs h hij hc hc' hcreq hcreq' hi hj

end Store

end HtmlTemplates
