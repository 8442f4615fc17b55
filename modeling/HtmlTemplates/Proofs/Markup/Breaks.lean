import HtmlTemplates.Proofs.Markup.Resumption
/-!
Removing a break between two literals.

The events of a sequence of literals number each token and slot by its literal. Joining two
neighbouring literals `a` and `b` into one removes the slot between them. When the last token of
`a` resumes (`LexState.resumes`), nothing else changes: that token and the first token of `b`
become one token of the same state with both texts, and every later event belongs to the literal
before the one it belonged to (`tokenizeLiterals_join`).
-/
namespace HtmlTemplates.Markup
open HtmlTemplates.Text

/-- The literal an event belongs to. -/
def LexEvent.literal : LexEvent → Nat
  | .token i _ _ => i
  | .slot i _ => i

/-- The event as it is numbered once two literals before it are joined. -/
def LexEvent.lowerLiteral : LexEvent → LexEvent
  | .token i q text => .token (i - 1) q text
  | .slot i q => .slot (i - 1) q

section Except

variable {α β γ ε : Type}

theorem mapM_cons_eq_ok {f : α → Except ε β} {x : α} {xs : List α} {ys : List β} :
    (x :: xs).mapM f = .ok ys ↔ ∃ y ys', f x = .ok y ∧ xs.mapM f = .ok ys' ∧ ys = y :: ys' := by
  rw [List.mapM_cons]
  cases hx : f x with
  | error e => simp [bind, Except.bind]
  | ok y =>
    cases hxs : xs.mapM f with
    | error e => simp [bind, Except.bind]
    | ok ys' =>
      simp only [bind, Except.bind, pure, Except.pure, Except.ok.injEq]
      exact ⟨fun h => ⟨y, ys', rfl, rfl, h.symm⟩, fun ⟨_, _, hy, hys, h⟩ => by
        cases hy
        cases hys
        exact h.symm⟩

theorem mapM_append_eq_ok {f : α → Except ε β} {xs₁ xs₂ : List α} {ys : List β} :
    (xs₁ ++ xs₂).mapM f = .ok ys ↔
      ∃ ys₁ ys₂, xs₁.mapM f = .ok ys₁ ∧ xs₂.mapM f = .ok ys₂ ∧ ys = ys₁ ++ ys₂ := by
  induction xs₁ generalizing ys with
  | nil => simp [List.mapM_nil, pure, Except.pure]
  | cons x xs₁ ih =>
    rw [List.cons_append, mapM_cons_eq_ok]
    constructor
    · rintro ⟨y, ys', hx, hrest, rfl⟩
      obtain ⟨ys₁, ys₂, h₁, h₂, rfl⟩ := ih.1 hrest
      exact ⟨y :: ys₁, ys₂, mapM_cons_eq_ok.2 ⟨y, ys₁, hx, h₁, rfl⟩, h₂, rfl⟩
    · rintro ⟨ys₁, ys₂, h₁, h₂, rfl⟩
      obtain ⟨y, ys₁', hx, hrest, rfl⟩ := mapM_cons_eq_ok.1 h₁
      exact ⟨y, ys₁' ++ ys₂, hx, ih.2 ⟨ys₁', ys₂, hrest, h₂, rfl⟩, rfl⟩

/-- A map that succeeds where another does, with results related by `h`, succeeds on a whole
list where the other does. -/
theorem mapM_eq_ok_of_imp {f : α → Except ε β} {g : α → Except ε γ} {h : β → γ}
    {xs : List α} {ys : List β} (hfg : ∀ x ∈ xs, ∀ y, f x = .ok y → g x = .ok (h y))
    (hf : xs.mapM f = .ok ys) : xs.mapM g = .ok (ys.map h) := by
  induction xs generalizing ys with
  | nil =>
    cases hf
    rfl
  | cons x xs ih =>
    obtain ⟨y, ys', hx, hrest, rfl⟩ := mapM_cons_eq_ok.1 hf
    exact mapM_cons_eq_ok.2 ⟨h y, ys'.map h, hfg x List.mem_cons_self y hx,
      ih (fun x' hx' => hfg x' (List.mem_cons_of_mem _ hx')) hrest, rfl⟩

theorem mem_of_mapM_eq_ok {f : α → Except ε β} {xs : List α} {ys : List β}
    (hf : xs.mapM f = .ok ys) : ∀ y ∈ ys, ∃ x ∈ xs, f x = .ok y := by
  induction xs generalizing ys with
  | nil =>
    cases hf
    simp
  | cons x xs ih =>
    obtain ⟨y, ys', hx, hrest, rfl⟩ := mapM_cons_eq_ok.1 hf
    intro z hz
    rcases List.mem_cons.1 hz with rfl | hz
    · exact ⟨x, List.mem_cons_self, hx⟩
    · obtain ⟨w, hw, hfw⟩ := ih hrest z hz
      exact ⟨w, List.mem_cons_of_mem _ hw, hfw⟩

theorem bind_eq_ok {x : Except ε α} {f : α → Except ε β} {y : β} :
    (x >>= f) = .ok y ↔ ∃ z, x = .ok z ∧ f z = .ok y := by
  cases x <;> simp [bind, Except.bind]

theorem map_eq_ok {x : Except ε α} {f : α → β} {y : β} :
    x.map f = .ok y ↔ ∃ z, x = .ok z ∧ f z = y := by
  cases x <;> simp [Except.map]

theorem eq_ok_of_toOption {x : Except ε α} {y : α} (h : x.toOption = some y) : x = .ok y := by
  cases x <;> simp_all [Except.toOption]

end Except

section Lists

variable {α : Type}

/-- Two splits of one list around an element that satisfies `p` are the same split, when no other
element of the first satisfies it. -/
theorem split_eq_of_unique {p : α → Prop} {l₁ l₂ r₁ r₂ : List α} {x y : α}
    (h : l₁ ++ x :: r₁ = l₂ ++ y :: r₂) (hl : ∀ z ∈ l₁, ¬p z) (hr : ∀ z ∈ r₁, ¬p z) (hy : p y) :
    l₁ = l₂ ∧ x = y ∧ r₁ = r₂ := by
  induction l₁ generalizing l₂ with
  | nil =>
    cases l₂ with
    | nil => simpa using h
    | cons z l₂ =>
      simp only [List.nil_append, List.cons_append, List.cons.injEq] at h
      exact absurd hy (hr y (by simp [h.2]))
  | cons z l₁ ih =>
    cases l₂ with
    | nil =>
      simp only [List.nil_append, List.cons_append, List.cons.injEq] at h
      exact absurd (h.1 ▸ hy) (hl z List.mem_cons_self)
    | cons w l₂ =>
      simp only [List.cons_append, List.cons.injEq] at h
      obtain ⟨rfl, h⟩ := h
      obtain ⟨rfl, hxy, hrr⟩ := ih h (fun z' hz' => hl z' (List.mem_cons_of_mem _ hz'))
      exact ⟨rfl, hxy, hrr⟩

end Lists

theorem Token.Spans.last {a b : Nat} {ts : List Token} {t : Token} (h : Spans a b (ts ++ [t])) :
    t.start ≤ t.stop ∧ t.stop = b := by
  induction ts generalizing a with
  | nil => exact ⟨h.1 ▸ h.2.1, h.2.2⟩
  | cons u ts ih => exact ih h.2.2

theorem LiteralScan.tokens_start (i : Nat) (source : String) (q : LexState) :
    LiteralScan.tokens ⟨i, source, q, (Scanner.start source q).steps⟩ =
      (Scanner.start source q).tokens := rfl

/-- The live state of a scan is the state of its last token. -/
theorem liveState_eq_tokens (s : Scanner) :
    liveState s.steps = ((s.tokens.map (·.state)).getLast?).getD .content := by
  have h : (s.steps.map (·.token.state)).filter (· != .atEnd) = s.tokens.map (·.state) := by
    simp only [Scanner.tokens, List.filter_map, List.map_map]
    rfl
  unfold liveState
  rw [h]
  cases (s.tokens.map (·.state)).getLast? <;> rfl

/-! ### Events and the literals they belong to -/

/-- Every event of one literal is a token of it. -/
theorem tokenEvents_literal {ls : LiteralScan} {E : List LexEvent} (h : ls.tokenEvents = .ok E) :
    ∀ e ∈ E, e.literal = ls.index ∧ e.isSlot = false := by
  intro e he
  obtain ⟨t, -, ht⟩ := mem_of_mapM_eq_ok h e he
  obtain ⟨x, -, rfl⟩ := map_eq_ok.1 ht
  exact ⟨rfl, rfl⟩

/-- The token events of one literal, numbered one lower. -/
theorem tokenEvents_lower {i : Nat} {source : String} {q : LexState} {steps : List Step}
    {E : List LexEvent} (h : LiteralScan.tokenEvents ⟨i + 1, source, q, steps⟩ = .ok E) :
    LiteralScan.tokenEvents ⟨i, source, q, steps⟩ = .ok (E.map LexEvent.lowerLiteral) := by
  refine mapM_eq_ok_of_imp (fun t _ e he => ?_) h
  obtain ⟨x, hx, rfl⟩ := map_eq_ok.1 he
  simp [hx, Except.map, LexEvent.lowerLiteral]

theorem scanFrom_eq_nil {i : Nat} {q : LexState} {lits : List String} :
    scanFrom i q lits = [] ↔ lits = [] := by
  cases lits <;> simp [scanFrom]

/-- The events of a literal that is not the last: its tokens, its slot, then the events of the
others. -/
theorem eventsOf_cons {ls : LiteralScan} {rest : List LiteralScan} (hrest : rest ≠ []) :
    eventsOf (ls :: rest) = (do
      let here ← ls.tokenEvents
      let later ← eventsOf rest
      pure (here ++ .slot ls.index (liveState ls.steps) :: later)) := by
  cases rest with
  | nil => exact absurd rfl hrest
  | cons ls' rest => rw [eventsOf]

theorem eventsOf_cons_eq_ok {ls : LiteralScan} {rest : List LiteralScan} (hrest : rest ≠ [])
    {E : List LexEvent} :
    eventsOf (ls :: rest) = .ok E ↔ ∃ here later, ls.tokenEvents = .ok here ∧
      eventsOf rest = .ok later ∧ E = here ++ .slot ls.index (liveState ls.steps) :: later := by
  simp only [eventsOf_cons hrest, bind_eq_ok, pure, Except.pure, Except.ok.injEq]
  constructor
  · rintro ⟨here, hh, later, hl, rfl⟩
    exact ⟨here, later, hh, hl, rfl⟩
  · rintro ⟨here, later, hh, hl, rfl⟩
    exact ⟨here, hh, later, hl, rfl⟩

/-- Numbering the literals from one lower numbers every event one lower. -/
theorem eventsOf_lower (i : Nat) (q : LexState) (lits : List String) {E : List LexEvent}
    (h : eventsOf (scanFrom (i + 1) q lits) = .ok E) :
    eventsOf (scanFrom i q lits) = .ok (E.map LexEvent.lowerLiteral) := by
  induction lits generalizing i q E with
  | nil =>
    rw [scanFrom, eventsOf] at h ⊢
    cases h
    rfl
  | cons lit rest ih =>
    by_cases hrest : rest = []
    · subst hrest
      rw [scanFrom, scanFrom, eventsOf] at h ⊢
      exact tokenEvents_lower h
    · have hne : ∀ j q', scanFrom j q' rest ≠ [] := fun _ _ => mt scanFrom_eq_nil.1 hrest
      rw [scanFrom, eventsOf_cons_eq_ok (hne _ _)] at h ⊢
      obtain ⟨here, later, hh, hl, rfl⟩ := h
      refine ⟨_, _, tokenEvents_lower hh, ih (i + 1) _ hl, ?_⟩
      simp [LexEvent.lowerLiteral]

/-- Every event of literals numbered from `i` belongs to a literal `i` or later. -/
theorem eventsOf_literal_ge (i : Nat) (q : LexState) (lits : List String) {E : List LexEvent}
    (h : eventsOf (scanFrom i q lits) = .ok E) : ∀ e ∈ E, i ≤ e.literal := by
  induction lits generalizing i q E with
  | nil =>
    rw [scanFrom, eventsOf] at h
    cases h
    simp
  | cons lit rest ih =>
    by_cases hrest : rest = []
    · subst hrest
      rw [scanFrom, scanFrom, eventsOf] at h
      intro e he
      exact Nat.le_of_eq (tokenEvents_literal h e he).1.symm
    · rw [scanFrom, eventsOf_cons_eq_ok (mt scanFrom_eq_nil.1 hrest)] at h
      obtain ⟨here, later, hh, hl, rfl⟩ := h
      intro e he
      simp only [List.mem_append, List.mem_cons] at he
      rcases he with he | rfl | he
      · exact Nat.le_of_eq (tokenEvents_literal hh e he).1.symm
      · exact Nat.le_refl _
      · exact Nat.le_of_succ_le (ih (i + 1) _ hl e he)

/-- The events of literals that go on after `lits`: those of `lits` with their slots, all of
literals before the others, then the events of the others, which start in a live state. -/
theorem eventsOf_scanFrom_append (i : Nat) {q : LexState} (hq : q.isLive = true)
    (lits : List String) :
    ∃ q' E, q'.isLive = true ∧ (∀ e ∈ E, e.literal < i + lits.length) ∧
      ∀ rest, rest ≠ [] → eventsOf (scanFrom i q (lits ++ rest)) =
        (eventsOf (scanFrom (i + lits.length) q' rest)).map (E ++ ·) := by
  induction lits generalizing i q with
  | nil =>
    refine ⟨q, [], hq, by simp, fun rest _ => ?_⟩
    simp only [List.nil_append, List.length_nil, Nat.add_zero]
    cases eventsOf (scanFrom i q rest) <;> rfl
  | cons lit lits ih =>
    obtain ⟨evs, hevs, -, -, hlive, -⟩ := walk_literal i hq lit
    obtain ⟨q', E, hq', hE, heq⟩ := ih (i + 1) hlive
    refine ⟨q', evs ++ .slot i (liveState (Scanner.start lit q).steps) :: E, hq', ?_,
      fun rest hrest => ?_⟩
    · intro e he
      simp only [List.mem_append, List.mem_cons] at he
      rcases he with he | rfl | he
      · rw [(tokenEvents_literal hevs e he).1]
        simp
      · simp [LexEvent.literal]
      · have := hE e he
        simp only [List.length_cons]
        omega
    · have hne : scanFrom (i + 1) (liveState (Scanner.start lit q).steps) (lits ++ rest) ≠ [] :=
        mt scanFrom_eq_nil.1 (by simp [hrest])
      rw [List.cons_append, scanFrom, eventsOf_cons hne, hevs, heq rest hrest,
        show i + 1 + lits.length = i + (lit :: lits).length by simp; omega]
      cases eventsOf (scanFrom (i + (lit :: lits).length) q' rest) <;>
        simp [bind, Except.bind, pure, Except.pure, Except.map]

/-! ### Joining two literals -/

/-- The last token event of a literal is that of the last token of its scan, which ends the
literal and is empty exactly when its text is. -/
theorem tokenEvents_last {n : Nat} {q ql : LexState} (hq : q ≠ .atEnd) {a : String}
    {pre : List LexEvent} {x : String}
    (ha : LiteralScan.tokenEvents ⟨n, a, q, (Scanner.start a q).steps⟩ =
      .ok (pre ++ [.token n ql x])) :
    ∃ pre' t, (Scanner.start a q).tokens = pre' ++ [t] ∧
      pre'.mapM (fun t => (slice a t.start t.stop).map (LexEvent.token n t.state)) = .ok pre ∧
      t.state = ql ∧ slice a t.start t.stop = .ok x ∧ t.stop = a.utf8ByteSize ∧
      decide (t.start < t.stop) = !x.isEmpty := by
  unfold LiteralScan.tokenEvents at ha
  obtain ⟨pre', t, hsplit⟩ := Scanner.exists_tokens_eq_concat a hq
  rw [LiteralScan.tokens_start, hsplit, mapM_append_eq_ok] at ha
  obtain ⟨E₁, E₂, hpre, hlast, hE⟩ := ha
  obtain ⟨e, _, he, hnil, rfl⟩ := mapM_cons_eq_ok.1 hlast
  cases hnil
  obtain ⟨rfl, hxe⟩ := List.append_inj' hE rfl
  obtain ⟨x', hx, hxe'⟩ := map_eq_ok.1 he
  simp only [List.cons.injEq] at hxe
  rw [← hxe.1] at hxe'
  injection hxe' with _ hstate hxx
  subst hxx
  -- the tokens span the literal, so the last one ends it
  obtain ⟨hle, hstop⟩ := Token.Spans.last (hsplit ▸ Scanner.spans_tokens a q hq)
  have hsize := utf8ByteSize_of_slice hx
  refine ⟨pre', t, hsplit, hpre, hstate, hx, hstop, ?_⟩
  simp only [String.isEmpty, hsize]
  by_cases h : t.start < t.stop <;> simp [h] <;> omega

/-- The token events of a literal whose scan starts with token `u`. -/
theorem tokenEvents_cons (n : Nat) {q : LexState} (hq : q.isLive = true) {b : String}
    {u : Token} {rest : List Token} (hb : (Scanner.start b q).tokens = u :: rest) :
    ∃ y post, slice b u.start u.stop = .ok y ∧
      rest.mapM (fun t => (slice b t.start t.stop).map (LexEvent.token n t.state)) = .ok post ∧
      LiteralScan.tokenEvents ⟨n, b, q, (Scanner.start b q).steps⟩ =
        .ok (.token n u.state y :: post) := by
  obtain ⟨evs, hevs, -⟩ := walk_literal n hq b
  unfold LiteralScan.tokenEvents at hevs ⊢
  rw [LiteralScan.tokens_start, hb, mapM_cons_eq_ok] at hevs
  obtain ⟨e₀, post, he₀, hpost, rfl⟩ := hevs
  obtain ⟨y, hy, rfl⟩ := map_eq_ok.1 he₀
  refine ⟨y, post, hy, hpost, ?_⟩
  rw [LiteralScan.tokens_start, hb]
  exact mapM_cons_eq_ok.2 ⟨_, post, by simp [hy, Except.map], hpost, rfl⟩

/-- The token events of two literals joined, when the first ends in a token that resumes: the
events of the first up to that token, that token with the text of the first token of the second
after its own, and the other token events of the second, of the same literal. The joined
literal also ends in the live state of the second. -/
theorem tokenEvents_append_of_resumes (n : Nat) {q ql : LexState} (hq : q.isLive = true)
    (a b : String) {pre : List LexEvent} {x : String}
    (ha : LiteralScan.tokenEvents ⟨n, a, q, (Scanner.start a q).steps⟩ =
      .ok (pre ++ [.token n ql x]))
    (hres : ql.resumes (!x.isEmpty) = true) :
    ∃ y post,
      LiteralScan.tokenEvents ⟨n + 1, b, ql, (Scanner.start b ql).steps⟩ =
        .ok (.token (n + 1) ql y :: post) ∧
      LiteralScan.tokenEvents ⟨n, a ++ b, q, (Scanner.start (a ++ b) q).steps⟩ =
        .ok (pre ++ .token n ql (x ++ y) :: post.map LexEvent.lowerLiteral) ∧
      liveState (Scanner.start (a ++ b) q).steps = liveState (Scanner.start b ql).steps := by
  have hq₀ : q ≠ .atEnd := fun h => by simp [h, LexState.isLive] at hq
  obtain ⟨pre', t, hsplit, hpre, rfl, hx, hstop, hbegun⟩ := tokenEvents_last hq₀ ha
  have hres' : t.resumes = true := by
    rw [Token.resumes, hbegun]
    exact hres
  obtain ⟨u, rest, hb, hus, hu0, hab⟩ := Scanner.tokens_append_of_resumes hq a b hsplit hres'
  obtain ⟨y, post, hy, hpost, hevs⟩ := tokenEvents_cons (n + 1) (Token.isLive_of_resumes hres') hb
  rw [hus] at hevs
  refine ⟨y, post, hevs, ?_, ?_⟩
  · unfold LiteralScan.tokenEvents
    rw [LiteralScan.tokens_start, hab, mapM_append_eq_ok]
    -- the tokens of `a` before its last read the same in `a ++ b`
    have hpre' : pre'.mapM (fun t => (slice (a ++ b) t.start t.stop).map (LexEvent.token n t.state)) =
        .ok (pre.map id) := mapM_eq_ok_of_imp (fun t _ e he => by
          obtain ⟨z, hz, rfl⟩ := map_eq_ok.1 he
          simp [slice_append_left hz, Except.map]) hpre
    -- the merged token reads `x` then `y`
    have hmid : slice (a ++ b) t.start (a.utf8ByteSize + u.stop) = .ok (x ++ y) := by
      have hx' : slice (a ++ b) t.start a.utf8ByteSize = .ok x := hstop ▸ slice_append_left hx
      have hy' : slice (a ++ b) (a.utf8ByteSize + u.start) (a.utf8ByteSize + u.stop) = .ok y :=
        slice_append_right hy
      rw [hu0, Nat.add_zero] at hy'
      exact slice_append hx' hy'
    -- the later tokens of `b` read the same past the bytes of `a`
    have hrest : (rest.map (Token.shift a.utf8ByteSize)).mapM
        (fun t => (slice (a ++ b) t.start t.stop).map (LexEvent.token n t.state)) =
        .ok (post.map LexEvent.lowerLiteral) := by
      rw [List.mapM_map]
      exact mapM_eq_ok_of_imp (fun t _ e he => by
        obtain ⟨z, hz, rfl⟩ := map_eq_ok.1 he
        simp [Token.shift, slice_append_right hz, Except.map, LexEvent.lowerLiteral]) hpost
    rw [List.map_id] at hpre'
    refine ⟨pre, _, hpre', mapM_cons_eq_ok.2 ⟨_, _, ?_, hrest, rfl⟩, rfl⟩
    simp [hmid, Except.map]
  · rw [liveState_eq_tokens, liveState_eq_tokens, hab, hb]
    simp [List.getLast?_append, List.getLast?_cons, Token.shift, hus, Function.comp_def]

/-- The events of a template at a literal `a` that another follows: the events of the literals
before it, all of literals before `a`, the token events of `a`, its slot, and the events of the
literals after it. -/
theorem tokenizeLiterals_at {ls₁ ls₂ : List String} {a b : String} {E : List LexEvent}
    (h : tokenizeLiterals (ls₁ ++ a :: b :: ls₂) = .ok E) :
    ∃ q' E₁ Ea later, q'.isLive = true ∧ (∀ e ∈ E₁, e.literal < ls₁.length) ∧
      LiteralScan.tokenEvents ⟨ls₁.length, a, q', (Scanner.start a q').steps⟩ = .ok Ea ∧
      eventsOf (scanFrom (ls₁.length + 1) (liveState (Scanner.start a q').steps) (b :: ls₂)) =
        .ok later ∧
      E = E₁ ++ (Ea ++ .slot ls₁.length (liveState (Scanner.start a q').steps) :: later) ∧
      ∀ rest, rest ≠ [] → tokenizeLiterals (ls₁ ++ rest) =
        (eventsOf (scanFrom ls₁.length q' rest)).map (E₁ ++ ·) := by
  unfold tokenizeLiterals scanLiterals at h ⊢
  obtain ⟨q', E₁, hq', hE₁, hsplit⟩ := eventsOf_scanFrom_append 0
    (show LexState.content.isLive = true by decide) ls₁
  simp only [Nat.zero_add] at hE₁ hsplit
  rw [hsplit _ (List.cons_ne_nil _ _)] at h
  obtain ⟨E₂, hE₂, rfl⟩ := map_eq_ok.1 h
  rw [scanFrom, eventsOf_cons_eq_ok (mt scanFrom_eq_nil.1 (List.cons_ne_nil _ _))] at hE₂
  obtain ⟨Ea, later, hEa, hlater, rfl⟩ := hE₂
  exact ⟨q', E₁, Ea, later, hq', hE₁, hEa, hlater, rfl, hsplit⟩

/-- The events of a template around the slot after literal `a`: the events of the literals before
`a`, those of `a` up to its last token, that token and the slot, then the events of the literals
after `a`, which start in the state of that token. -/
theorem tokenizeLiterals_break {ls₁ ls₂ : List String} {a b : String}
    {pre post : List LexEvent} {q : LexState} {x : String}
    (h : tokenizeLiterals (ls₁ ++ a :: b :: ls₂) =
      .ok (pre ++ .token ls₁.length q x :: .slot ls₁.length q :: post)) :
    ∃ q' E₁ Ea, q'.isLive = true ∧ pre = E₁ ++ Ea ∧
      LiteralScan.tokenEvents ⟨ls₁.length, a, q', (Scanner.start a q').steps⟩ =
        .ok (Ea ++ [.token ls₁.length q x]) ∧
      eventsOf (scanFrom (ls₁.length + 1) q (b :: ls₂)) = .ok post ∧
      ∀ rest, rest ≠ [] → tokenizeLiterals (ls₁ ++ rest) =
        (eventsOf (scanFrom ls₁.length q' rest)).map (E₁ ++ ·) := by
  obtain ⟨q', E₁, Ea, later, hq', hE₁, hEa, hlater, hsum, hsplit⟩ := tokenizeLiterals_at h
  -- the slot after `a` is the only slot of its literal, which places `pre` and `post`
  have hlit := tokenEvents_literal hEa
  have hsum' : (E₁ ++ Ea) ++ .slot ls₁.length (liveState (Scanner.start a q').steps) :: later =
      (pre ++ [.token ls₁.length q x]) ++ .slot ls₁.length q :: post := by
    simpa using hsum.symm
  obtain ⟨hpre, hslot, rfl⟩ := split_eq_of_unique
    (p := fun e : LexEvent => e.isSlot = true ∧ e.literal = ls₁.length) hsum'
    (fun z hz => by
      rcases List.mem_append.1 hz with hz | hz
      · have := hE₁ z hz
        omega
      · simp [(hlit z hz).2])
    (fun z hz => by
      have := eventsOf_literal_ge _ _ _ hlater z hz
      omega)
    ⟨rfl, rfl⟩
  injection hslot with _ hla
  -- `a` has tokens, and the last of them is the one before the slot
  obtain ⟨Ea', e, rfl⟩ : ∃ Ea' e, Ea = Ea' ++ [e] := by
    rcases List.eq_nil_or_concat Ea with rfl | ⟨Ea', e, h⟩
    · have := hE₁ (.token ls₁.length q x) (by simp [List.append_nil] at hpre; simp [hpre])
      simp [LexEvent.literal] at this
    · exact ⟨Ea', e, by simpa using h⟩
  rw [← List.append_assoc] at hpre
  obtain ⟨rfl, he⟩ := List.append_inj' hpre rfl
  obtain rfl := List.singleton_inj.1 he
  exact ⟨q', E₁, Ea', hq', rfl, hEa, hla ▸ hlater, hsplit⟩

/-- Each slot of a template follows the last token of its literal, in the state the slot records:
the events around every break have the form `tokenizeLiterals_join` starts from. -/
theorem tokenizeLiterals_slot (ls₁ ls₂ : List String) (a b : String) :
    ∃ pre q x post, tokenizeLiterals (ls₁ ++ a :: b :: ls₂) =
      .ok (pre ++ .token ls₁.length q x :: .slot ls₁.length q :: post) := by
  have hne : ls₁ ++ a :: b :: ls₂ ≠ [] := by simp
  obtain ⟨E, hE, -⟩ := walk_tokenizeLiterals hne
  obtain ⟨q', E₁, Ea, later, hq', -, hEa, -, rfl, -⟩ := tokenizeLiterals_at hE
  rw [hE]
  -- the scan of `a` has a last token, whose event ends the events of `a`
  have hq₀ : q' ≠ .atEnd := fun h => by simp [h, LexState.isLive] at hq'
  obtain ⟨pre', t, ha⟩ := Scanner.exists_tokens_eq_concat a hq₀
  unfold LiteralScan.tokenEvents at hEa
  rw [LiteralScan.tokens_start, ha, mapM_append_eq_ok] at hEa
  obtain ⟨Epre, Elast, -, hlast, rfl⟩ := hEa
  obtain ⟨e, _, he, hnil, rfl⟩ := mapM_cons_eq_ok.1 hlast
  cases hnil
  obtain ⟨x, -, rfl⟩ := map_eq_ok.1 he
  have hlive : liveState (Scanner.start a q').steps = t.state := by
    rw [liveState_eq_tokens, ha]
    simp
  refine ⟨E₁ ++ Epre, t.state, x, later, ?_⟩
  simp [hlive]

/-- Joining two neighbouring literals `a` and `b` of a template, where the last token of `a`
resumes, removes the slot between them and merges the tokens on either side of it into one of the
same state, with both texts; the events after it stay as they were, each of the literal before
the one it was of. -/
theorem tokenizeLiterals_join (ls₁ ls₂ : List String) (a b : String)
    {pre post : List LexEvent} {q : LexState} {x : String}
    (h : tokenizeLiterals (ls₁ ++ a :: b :: ls₂) =
      .ok (pre ++ .token ls₁.length q x :: .slot ls₁.length q :: post))
    (hq : q.resumes (!x.isEmpty) = true) :
    ∃ y rest, post = .token (ls₁.length + 1) q y :: rest ∧
      tokenizeLiterals (ls₁ ++ (a ++ b) :: ls₂) =
        .ok (pre ++ .token ls₁.length q (x ++ y) :: rest.map LexEvent.lowerLiteral) := by
  obtain ⟨q', E₁, Ea, hq', rfl, hEa, hlater, hsplit⟩ := tokenizeLiterals_break h
  obtain ⟨y, postb, hb, hab, hlive⟩ := tokenEvents_append_of_resumes ls₁.length hq' a b hEa hq
  rw [hsplit _ (List.cons_ne_nil _ _)]
  -- `b` is the last literal, or a slot follows it too
  cases ls₂ with
  | nil =>
    rw [scanFrom, scanFrom, eventsOf, hb] at hlater
    cases hlater
    refine ⟨y, postb, rfl, ?_⟩
    rw [scanFrom, scanFrom, eventsOf, hab]
    simp [Except.map]
  | cons c ls₃ =>
    rw [scanFrom, eventsOf_cons_eq_ok (mt scanFrom_eq_nil.1 (List.cons_ne_nil _ _)), hb] at hlater
    obtain ⟨Eb, L, hEb, hL, rfl⟩ := hlater
    cases hEb
    refine ⟨y, postb ++ .slot (ls₁.length + 1) (liveState (Scanner.start b q).steps) :: L,
      by simp, ?_⟩
    rw [scanFrom, eventsOf_cons (mt scanFrom_eq_nil.1 (List.cons_ne_nil _ _)), hab, hlive,
      eventsOf_lower _ _ _ hL]
    simp [bind, Except.bind, pure, Except.pure, Except.map, LexEvent.lowerLiteral]

/-- Splitting `<div>` inside the tag name: joining `<di` and `v>` again gives the tag name `div`. -/
theorem tokenizeLiterals_join_tagName :
    tokenizeLiterals ["<di", "v>"] = .ok ([.token 0 .content "", .token 0 .tagOpen "<"] ++
        .token 0 .tagName "di" :: .slot 0 .tagName ::
          [.token 1 .tagName "v", .token 1 .tagClose ">", .token 1 .content ""]) ∧
      LexState.tagName.resumes (!"di".isEmpty) = true ∧
      ∃ y rest, [LexEvent.token 1 .tagName "v", .token 1 .tagClose ">", .token 1 .content ""] =
          .token 1 .tagName y :: rest ∧
        tokenizeLiterals ["<di" ++ "v>"] =
          .ok ([.token 0 .content "", .token 0 .tagOpen "<"] ++
            .token 0 .tagName ("di" ++ y) :: rest.map LexEvent.lowerLiteral) := by
  have hlive : liveState (Scanner.start "<di" .content).steps = .tagName := by decide +kernel
  have hfirst : LiteralScan.tokenEvents ⟨0, "<di", .content, (Scanner.start "<di" .content).steps⟩ =
      .ok [.token 0 .content "", .token 0 .tagOpen "<", .token 0 .tagName "di"] :=
    eq_ok_of_toOption (by decide +kernel)
  have hsecond : LiteralScan.tokenEvents ⟨1, "v>", .tagName, (Scanner.start "v>" .tagName).steps⟩ =
      .ok [.token 1 .tagName "v", .token 1 .tagClose ">", .token 1 .content ""] :=
    eq_ok_of_toOption (by decide +kernel)
  have h : tokenizeLiterals ["<di", "v>"] = .ok ([.token 0 .content "", .token 0 .tagOpen "<"] ++
      .token 0 .tagName "di" :: .slot 0 .tagName ::
        [.token 1 .tagName "v", .token 1 .tagClose ">", .token 1 .content ""]) := by
    rw [tokenizeLiterals, scanLiterals, scanFrom, scanFrom, scanFrom, hlive]
    refine (eventsOf_cons_eq_ok (List.cons_ne_nil _ _)).2 ⟨_,
      [.token 1 .tagName "v", .token 1 .tagClose ">", .token 1 .content ""], hfirst, ?_, ?_⟩
    · rw [eventsOf]
      exact hsecond
    · simp [hlive]
  have hq : LexState.tagName.resumes (!"di".isEmpty) = true := by decide
  exact ⟨h, hq, tokenizeLiterals_join [] [] "<di" "v>" h hq⟩

end HtmlTemplates.Markup
