import HtmlTemplates.Proofs.Markup.Breaks
/-!
Where literals break.

Each literal of a sequence is scanned from a live state, the one the literal before it ended
in, and a scan from a live state reads at least one token before its end token: the rule of a
state other than `atEnd` never tags its token with `atEnd` (`Scanner.exists_tokens_eq_concat`).
So the live state of every literal is the state of its last token, and the fallback of
`liveState` to `content`, for a literal without tokens, is never taken. In the events, each
slot comes right after the last token of its own literal and carries that token's state, one
of the seven live states: text, a tag name, the blanks before an attribute name, an attribute
name, and the three kinds of attribute value. The parser's slot rule is only ever applied in
these states (`slots_follow_last_tokens`).
-/
namespace HtmlTemplates.Markup

theorem LexState.isLive_iff_mem (q : LexState) :
    q.isLive = true ↔ q ∈ [content, tagName, beforeAttributeName, attributeName,
      attributeValueDoubleQuoted, attributeValueSingleQuoted, attributeValueUnquoted] := by
  cases q <;> simp [isLive]

theorem LexState.ne_atEnd_of_isLive {q : LexState} (hq : q.isLive = true) : q ≠ .atEnd := by
  rintro rfl
  cases hq

/-- A scan from a live state has a last token, and its live state is that token's state. -/
theorem liveState_of_isLive (source : String) {q : LexState} (hq : q.isLive = true) :
    ∃ t, (Scanner.start source q).tokens.getLast? = some t ∧
      liveState (Scanner.start source q).steps = t.state := by
  obtain ⟨pre, t, hsplit⟩ := Scanner.exists_tokens_eq_concat source (LexState.ne_atEnd_of_isLive hq)
  refine ⟨t, by simp [hsplit], ?_⟩
  rw [liveState_eq_tokens, hsplit]
  simp

/-- Every literal of a sequence read from a live state is scanned from a live state. -/
theorem entry_isLive_of_mem_scanFrom {i : Nat} {q : LexState} (hq : q.isLive = true)
    {lits : List String} {ls : LiteralScan} (h : ls ∈ scanFrom i q lits) :
    ls.entry.isLive = true ∧ ls.steps = (Scanner.start ls.source ls.entry).steps := by
  induction lits generalizing i q with
  | nil => simp [scanFrom] at h
  | cons lit rest ih =>
    rw [scanFrom, List.mem_cons] at h
    rcases h with rfl | h
    · exact ⟨hq, rfl⟩
    · obtain ⟨-, -, -, -, hlive, -⟩ := walk_literal i hq lit
      exact ih hlive h

/-- The token events of a literal read from a live state end with a token in its live
state. -/
theorem tokenEvents_eq_concat (i : Nat) {q : LexState} (hq : q.isLive = true) (lit : String) :
    ∃ pre x, LiteralScan.tokenEvents ⟨i, lit, q, (Scanner.start lit q).steps⟩ =
      .ok (pre ++ [.token i (liveState (Scanner.start lit q).steps) x]) := by
  obtain ⟨evs, hevs, -⟩ := walk_literal i hq lit
  obtain ⟨pre, t, hsplit⟩ := Scanner.exists_tokens_eq_concat lit (LexState.ne_atEnd_of_isLive hq)
  have hlive : liveState (Scanner.start lit q).steps = t.state := by
    rw [liveState_eq_tokens, hsplit]
    simp
  -- the last token gives the last event
  have h := hevs
  unfold LiteralScan.tokenEvents at h
  rw [LiteralScan.tokens_start, hsplit, mapM_append_eq_ok] at h
  obtain ⟨E₁, E₂, -, h₂, rfl⟩ := h
  obtain ⟨e, E₃, he, hnil, rfl⟩ := mapM_cons_eq_ok.1 h₂
  cases hnil
  obtain ⟨x, -, rfl⟩ := map_eq_ok.1 he
  exact ⟨E₁, x, hlive ▸ hevs⟩

/-- The events of literals read from a live state: every literal has a token, and every slot
comes right after a token of its own literal in the same state, which is live. -/
theorem slots_eventsOf (i : Nat) {q : LexState} (hq : q.isLive = true) {lits : List String}
    (hl : lits ≠ []) :
    ∃ events, eventsOf (scanFrom i q lits) = .ok events ∧
      (∀ j, i ≤ j → j < i + lits.length → ∃ q' text, LexEvent.token j q' text ∈ events) ∧
      ∀ j live, LexEvent.slot j live ∈ events →
        (∃ text, [LexEvent.token j live text, .slot j live] <:+: events) ∧ live.isLive = true := by
  induction lits generalizing i q with
  | nil => exact absurd rfl hl
  | cons lit rest ih =>
    obtain ⟨pre, x, hevs⟩ := tokenEvents_eq_concat i hq lit
    obtain ⟨-, -, -, -, hlive, -⟩ := walk_literal i hq lit
    have hnot : ∀ e ∈ pre ++ [.token i (liveState (Scanner.start lit q).steps) x],
        e.isSlot = false := fun e he => (tokenEvents_literal hevs e he).2
    cases rest with
    | nil =>
      refine ⟨_, by rw [scanFrom, scanFrom, eventsOf]; exact hevs, fun j hj₁ hj₂ => ?_,
        fun j live h => absurd (hnot _ h) (by simp [LexEvent.isSlot])⟩
      obtain rfl : j = i := by simp at hj₂; omega
      exact ⟨liveState (Scanner.start lit q).steps, x, by simp⟩
    | cons lit' rest =>
      obtain ⟨later, hlater, htokens, hslots⟩ := ih (i + 1) hlive (List.cons_ne_nil _ _)
      refine ⟨pre ++ .token i (liveState (Scanner.start lit q).steps) x ::
        .slot i (liveState (Scanner.start lit q).steps) :: later, ?_, fun j hj₁ hj₂ => ?_,
        fun j live h => ?_⟩
      · simp only [scanFrom] at hlater ⊢
        rw [eventsOf, hevs, hlater]
        simp [bind, Except.bind, pure, Except.pure]
      · by_cases hji : j = i
        · subst hji
          exact ⟨liveState (Scanner.start lit q).steps, x, by simp⟩
        · obtain ⟨q', text, hm⟩ := htokens j (by omega) (by simp at hj₂ ⊢; omega)
          exact ⟨q', text, by simp [hm]⟩
      · simp only [List.mem_append, List.mem_cons] at h
        rcases h with h | h | h | h
        · exact absurd (hnot _ (List.mem_append_left _ h)) (by simp [LexEvent.isSlot])
        · cases h
        · -- the slot of this literal, right after its last token
          injection h with hj hq'
          subst hj hq'
          exact ⟨⟨x, pre, later, by simp⟩, hlive⟩
        · obtain ⟨⟨text, hinf⟩, hl⟩ := hslots j live h
          -- the events of the later literals are a suffix of all of them
          exact ⟨⟨text, hinf.trans ((List.suffix_cons _ later).trans
            ((List.suffix_cons _ _).trans (List.suffix_append pre _))).isInfix⟩, hl⟩

end HtmlTemplates.Markup
