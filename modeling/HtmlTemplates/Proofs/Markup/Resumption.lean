import HtmlTemplates.Proofs.Markup.Joining
/-!
Scanning two literals as one.

A template keeps its literals apart, and the scanner resumes each literal in the live state of
the one before. Resuming is the same as reading on when the last token of the first literal is
text or a quoted value, or a name or an unquoted value that has begun (`Token.resumes`): then
the scanner over the two literals joined reads the tokens of the first up to its last one, that
token runs on into the second literal, and the rest are the tokens of the second, past the bytes
of the first (`Scanner.tokens_append_of_resumes`). The rules that look at the byte after a
token, or ahead of the blanks after a name, do not resume in the other cases: `<` with nothing
after it opens a tag name whatever follows, and the blanks after a name are read again as the
start of the next attribute, even if `=` follows in the next literal.
-/
namespace HtmlTemplates.Markup
open HtmlTemplates.Text

/-- Whether scanning resumes after a token of state `q` that ends its literal, as if the literal
went on: the token is text or a quoted value, or a name or an unquoted value that has `begun`. -/
def LexState.resumes (q : LexState) (begun : Bool) : Bool :=
  match q with
  | .content | .attributeValueDoubleQuoted | .attributeValueSingleQuoted => true
  | .tagName | .attributeName | .attributeValueUnquoted => begun
  | _ => false

/-- Whether scanning resumes after token `t`, which ends its literal. -/
def Token.resumes (t : Token) : Bool := t.state.resumes (decide (t.start < t.stop))

/-- A token read after `k` more bytes. -/
def Token.shift (k : Nat) (t : Token) : Token := ⟨t.state, k + t.start, k + t.stop⟩

theorem Token.isLive_of_resumes {t : Token} (h : t.resumes = true) : t.state.isLive = true := by
  unfold resumes LexState.resumes at h
  split at h <;> simp_all [LexState.isLive]

/-- An empty token resumes only in text or a quoted value. -/
theorem Token.resumes_of_stop_le {t : Token} (h : t.resumes = true) (hle : t.stop ≤ t.start) :
    t.state = .content ∨ t.state = .attributeValueDoubleQuoted ∨
      t.state = .attributeValueSingleQuoted := by
  unfold resumes LexState.resumes at h
  split at h <;> simp_all
  all_goals omega

theorem LexState.read_label_of_isLive {q : LexState} (hq : q.isLive = true) (input : String)
    (pos : Nat) : (q.read input pos).label = q := by
  rcases q.read_label input pos with h | ⟨rfl, -⟩
  · exact h
  · simp [LexState.isLive] at hq

/-- At the end of its input a name, the blanks before one, or an unquoted value is an empty token
that ends the literal. -/
theorem LexState.read_size {q : LexState}
    (hq : q = .tagName ∨ q = .attributeValueUnquoted ∨ q = .beforeAttributeName)
    (input : String) :
    (q.read input input.utf8ByteSize).next = .atEnd ∧
      (q.read input input.utf8ByteSize).label = q := by
  have hnone : byteAt? input input.utf8ByteSize = none := byteAt?_eq_none_iff.2 (Nat.le_refl _)
  have hself : ∀ p : UInt8 → Bool, firstFrom p input input.utf8ByteSize = input.utf8ByteSize :=
    fun p => firstFrom_eq_self p input _ (by simp [hnone])
  rcases hq with rfl | rfl | rfl <;>
    simp [LexState.read, readTagName, readUnquotedValue, readBeforeAttributeName, hself, hnone,
      afterRun]

namespace Scanner

/-- The scanner with `b` joined after its source. -/
def append (s : Scanner) (b : String) : Scanner := { s with source := s.source ++ b }

/-- The scanner with `a` joined before its source, its cursor past the bytes of `a`. -/
def prepend (a : String) (s : Scanner) : Scanner :=
  ⟨a ++ s.source, a.utf8ByteSize + s.pos, s.state⟩

/-! ### Reading past a text put in front -/

theorem step_prepend (a : String) (s : Scanner) :
    (s.prepend a).step =
      ⟨s.step.token.shift a.utf8ByteSize, s.step.after.prepend a, s.step.probes⟩ := by
  by_cases hq : s.state = .atEnd
  · rw [step_atEnd (show (s.prepend a).state = .atEnd from hq), step_atEnd hq]
    simp [prepend, Token.shift, String.utf8ByteSize_append]
  · rw [step_of_ne_atEnd (show (s.prepend a).state ≠ .atEnd from hq), step_of_ne_atEnd hq]
    simp [prepend, LexState.read_append_right, Move.shift, Token.shift]

/-- A scanner with a text put in front reads the same tokens, past that text. -/
theorem stepsWithin_prepend (a : String) (fuel : Nat) (s : Scanner) :
    (stepsWithin fuel (s.prepend a)).map (·.token) =
      (stepsWithin fuel s).map (·.token.shift a.utf8ByteSize) := by
  induction fuel generalizing s with
  | zero => rfl
  | succ fuel ih =>
    by_cases hq : s.state = .atEnd
    · rw [stepsWithin_succ_of_atEnd fuel hq,
        stepsWithin_succ_of_atEnd fuel (show (s.prepend a).state = .atEnd from hq), step_prepend]
      rfl
    · rw [stepsWithin_succ_of_ne fuel hq,
        stepsWithin_succ_of_ne fuel (show (s.prepend a).state ≠ .atEnd from hq), List.map_cons,
        List.map_cons, step_prepend, ih]

/-! ### Reading on past the end of the source -/

theorem step_append {s : Scanner} (b : String) (hq : s.state ≠ .atEnd)
    (h : s.state.read (s.source ++ b) s.pos = s.state.read s.source s.pos) :
    (s.append b).step = ⟨s.step.token, s.step.after.append b, s.step.probes⟩ := by
  rw [step_of_ne_atEnd (show (s.append b).state ≠ .atEnd from hq), step_of_ne_atEnd hq]
  simp only [append, h]

/-- A live token that runs to the end of the source runs on into `b` as the first token of `b`
does, and the scanner goes on as the one over `b`, past the source. -/
theorem step_append_of_live {s : Scanner} (b : String) (hq : s.state.isLive = true)
    (hp : s.pos ≤ s.source.utf8ByteSize) (hn : s.step.after.state = .atEnd) :
    (s.append b).step.token =
        ⟨s.state, s.pos, s.source.utf8ByteSize + (start b s.state).step.token.stop⟩ ∧
      (s.append b).step.after = (start b s.state).step.after.prepend s.source := by
  have hne : s.state ≠ .atEnd := fun h => by simp [h, LexState.isLive] at hq
  rw [step_of_ne_atEnd hne] at hn
  have hread : s.state.read (s.source ++ b) s.pos =
      (s.state.read b 0).shift s.source.utf8ByteSize := s.state.read_append_of_live hq hp hn
  rw [step_of_ne_atEnd (show (s.append b).state ≠ .atEnd from hne),
    step_of_ne_atEnd (show (start b s.state).state ≠ .atEnd from hne)]
  simp only [append, hread, Move.shift, start, LexState.read_label_of_isLive hq]
  exact ⟨trivial, rfl⟩

/-! ### Runs -/

/-- Two runs that both reach the end token are the same, whatever their fuel. -/
theorem stepsWithin_eq_of_reaches {f₁ f₂ : Nat} {s : Scanner}
    (h₁ : (stepsWithin f₁ s).getLast?.map (·.token.state) = some .atEnd)
    (h₂ : (stepsWithin f₂ s).getLast?.map (·.token.state) = some .atEnd) :
    stepsWithin f₁ s = stepsWithin f₂ s := by
  induction f₁ generalizing f₂ s with
  | zero => simp [stepsWithin] at h₁
  | succ f ih =>
    cases f₂ with
    | zero => simp [stepsWithin] at h₂
    | succ g =>
      by_cases hq : s.state = .atEnd
      · rw [stepsWithin_succ_of_atEnd f hq, stepsWithin_succ_of_atEnd g hq]
      · have hne : s.step.token.state ≠ .atEnd := fun h => hq (step_state_eq_atEnd.1 h)
        rw [stepsWithin_succ_of_ne f hq] at h₁ ⊢
        rw [stepsWithin_succ_of_ne g hq] at h₂ ⊢
        rw [ih ((getLast?_cons_state hne).1 h₁) ((getLast?_cons_state hne).1 h₂)]

/-- The tokens of a run lie between the cursor and the end of the source. -/
theorem bounds_of_mem_stepsWithin {fuel : Nat} {s : Scanner} (hp : s.Poised) :
    ∀ r ∈ stepsWithin fuel s, s.pos ≤ r.token.start ∧ r.token.start ≤ r.token.stop ∧
      r.token.stop ≤ s.source.utf8ByteSize := by
  induction fuel generalizing s with
  | zero => simp [stepsWithin]
  | succ fuel ih =>
    intro r hr
    by_cases hq : s.state = .atEnd
    · rw [stepsWithin_succ_of_atEnd fuel hq, List.mem_singleton] at hr
      subst hr
      rw [step_atEnd hq]
      exact ⟨hp.pos_le, Nat.le_refl _, Nat.le_refl _⟩
    · have hb := s.state.read_bounds hp.pos_le
      rw [stepsWithin_succ_of_ne fuel hq] at hr
      rcases List.mem_cons.1 hr with rfl | hr
      · rw [step_of_ne_atEnd hq]
        exact ⟨Nat.le_refl _, hb.1, hb.2⟩
      · have := ih hp.step r hr
        rw [step_source, step_of_ne_atEnd hq] at this
        exact ⟨Nat.le_trans hb.1 this.1, this.2⟩

/-- A run whose first token is its last one before the end token. -/
theorem tokens_of_last {fuel : Nat} {s : Scanner} (hn : s.step.after.state = .atEnd)
    (hq : s.state ≠ .atEnd) {pre : List Token} {t e : Token}
    (h : (stepsWithin fuel s).map (·.token) = pre ++ [t, e]) : pre = [] ∧ t = s.step.token := by
  cases fuel with
  | zero => simp [stepsWithin] at h
  | succ fuel =>
    rw [stepsWithin_succ_of_ne fuel hq] at h
    cases fuel with
    | zero =>
      have := congrArg List.length h
      simp [stepsWithin] at this
    | succ fuel =>
      rw [stepsWithin_succ_of_atEnd fuel hn] at h
      rcases pre with _ | ⟨r, _ | ⟨r', pre⟩⟩
      · simp only [List.map_cons, List.map_nil, List.nil_append, List.cons.injEq] at h
        exact ⟨rfl, h.1.symm⟩
      · simp at h
      · have := congrArg List.length h
        simp at this

/-- A run whose first token is not its last one before the end token. -/
theorem tokens_of_not_last {fuel : Nat} {s : Scanner} (hn : s.step.after.state ≠ .atEnd)
    (hq : s.state ≠ .atEnd) {pre : List Token} {t e : Token} (he : e.state = .atEnd)
    (h : (stepsWithin (fuel + 1) s).map (·.token) = pre ++ [t, e]) :
    ∃ pre', pre = s.step.token :: pre' ∧
      (stepsWithin fuel s.step.after).map (·.token) = pre' ++ [t, e] := by
  rw [stepsWithin_succ_of_ne fuel hq, List.map_cons] at h
  cases pre with
  | cons r pre' =>
    rw [List.cons_append, List.cons.injEq] at h
    exact ⟨pre', by rw [h.1], h.2⟩
  | nil =>
    -- the run after the first token would be the end token alone
    rw [List.nil_append, List.cons.injEq] at h
    cases fuel with
    | zero => simp [stepsWithin] at h
    | succ fuel =>
      rw [stepsWithin_succ_of_ne fuel hn, List.map_cons, List.cons.injEq] at h
      rw [← h.2.1, step_state_eq_atEnd] at he
      exact absurd he hn

/-- The step before the last token of a run that resumes reads as on the source alone: it stops
before the end of the source, or at its end in a state that leads to text or a quoted value. -/
theorem read_append_before_last (b : String) {fuel : Nat} {s : Scanner} {prev : LexState}
    (hp : s.Poised) (he : s.Entered prev) (hq : s.state ≠ .atEnd)
    (hn : s.step.after.state ≠ .atEnd) {pre : List Token} {t e : Token}
    (hrun : (stepsWithin fuel s.step.after).map (·.token) = pre ++ [t, e])
    (ht : t.resumes = true) :
    s.state.read (s.source ++ b) s.pos = s.state.read s.source s.pos := by
  have hstop : (s.state.read s.source s.pos).stop = s.step.after.pos := by
    rw [step_of_ne_atEnd hq]
  have hnext : (s.state.read s.source s.pos).next = s.step.after.state := by
    rw [step_of_ne_atEnd hq]
  have hsrc : s.step.after.source = s.source := step_source s
  -- the last token lies between the next cursor and the end of the source
  obtain ⟨r, hr, rfl⟩ : ∃ r ∈ stepsWithin fuel s.step.after, r.token = t := by
    have : t ∈ (stepsWithin fuel s.step.after).map (·.token) := by rw [hrun]; simp
    simpa using this
  obtain ⟨hstart, hle, hsize⟩ := bounds_of_mem_stepsWithin hp.step r hr
  rw [hsrc] at hsize
  refine s.state.read_append_left he.entry hp.pos_le ?_
  by_cases hlt : (s.state.read s.source s.pos).stop < s.source.utf8ByteSize
  · exact .inl hlt
  refine .inr ?_
  -- the rule stops at the end of the source, so the last token is empty, in text or a value
  have hend : s.step.after.pos = s.source.utf8ByteSize := by
    have := (s.state.read_bounds hp.pos_le).2
    omega
  have hlast := Token.resumes_of_stop_le ht (by omega)
  rw [hnext]
  intro hmem
  simp only [List.mem_cons, List.mem_nil_iff, or_false] at hmem
  rcases hmem with h | h
  · exact hn h
  -- a name, blanks or an unquoted value at the end of the source is the last token itself
  obtain ⟨hn', hl'⟩ := LexState.read_size h s.source
  have hafter : s.step.after.step.after.state = .atEnd := by
    rw [step_of_ne_atEnd hn, hsrc, hend]
    exact hn'
  obtain ⟨-, hr'⟩ := tokens_of_last hafter hn hrun
  rw [hr', step_of_ne_atEnd hn] at hlast
  dsimp only at hlast
  rw [hsrc, hend, hl'] at hlast
  rcases h with h | h | h <;> rw [h] at hlast <;> simp at hlast

/-- The run over a source with `b` joined after it, from a scanner whose run ends in a token that
resumes: the tokens before that one, then that token running on as the first token of `b` does,
then the rest of the run over `b`, past the source. -/
theorem tokens_append (b : String) (fuel : Nat) (s : Scanner) {prev : LexState} (hp : s.Poised)
    (he : s.Entered prev) (hq : s.state ≠ .atEnd) {pre : List Token} {t e : Token}
    (hrun : (stepsWithin fuel s).map (·.token) = pre ++ [t, e]) (hend : e.state = .atEnd)
    (ht : t.resumes = true) (F : Nat) :
    (stepsWithin (F + 1 + pre.length) (s.append b)).map (·.token) =
      pre ++ ⟨t.state, t.start, s.source.utf8ByteSize + (start b t.state).step.token.stop⟩ ::
        (stepsWithin F ((start b t.state).step.after.prepend s.source)).map (·.token) := by
  induction fuel generalizing s prev pre with
  | zero => simp [stepsWithin] at hrun
  | succ fuel ih =>
    have hq' : (s.append b).state ≠ .atEnd := hq
    by_cases hn : s.step.after.state = .atEnd
    · -- the first token is the last one: it runs on into `b`
      obtain ⟨rfl, rfl⟩ := tokens_of_last hn hq hrun
      have hlabel : s.step.token.state = s.state := by
        rw [step_of_ne_atEnd hq] at ht ⊢
        rcases s.state.read_label s.source s.pos with h | ⟨-, h⟩
        · exact h
        · simp [Token.resumes, LexState.resumes, h] at ht
      have hstart : s.step.token.start = s.pos := by rw [step_of_ne_atEnd hq]
      obtain ⟨htok, hafter⟩ :=
        step_append_of_live b (hlabel ▸ Token.isLive_of_resumes ht) hp.pos_le hn
      rw [List.nil_append, List.length_nil, Nat.add_zero, stepsWithin_succ_of_ne F hq',
        List.map_cons, htok, hafter, hlabel, hstart]
    · obtain ⟨pre', rfl, hrest⟩ := tokens_of_not_last hn hq hend hrun
      have hagree := read_append_before_last b hp he hq hn hrest ht
      have hih := ih s.step.after hp.step (Entered.step hq) hn hrest
      rw [step_source] at hih
      rw [List.length_cons, show F + 1 + (pre'.length + 1) = F + 1 + pre'.length + 1 by omega,
        stepsWithin_succ_of_ne _ hq', List.map_cons, step_append b hq hagree, hih,
        List.cons_append]

/-- A run that reaches the end is its tokens and then the end token. -/
theorem map_token_of_reaches {fuel : Nat} {s : Scanner}
    (h : (stepsWithin fuel s).getLast?.map (·.token.state) = some .atEnd) :
    ∃ e : Token, e.state = .atEnd ∧ (stepsWithin fuel s).map (·.token) =
      ((stepsWithin fuel s).map (·.token)).filter (·.state != .atEnd) ++ [e] := by
  have hdrop := state_ne_atEnd_of_mem_dropLast fuel s
  generalize stepsWithin fuel s = L at h hdrop ⊢
  obtain ⟨r, hr, hstate⟩ := Option.map_eq_some_iff.1 h
  obtain ⟨D, rfl⟩ := List.getLast?_eq_some_iff.1 hr
  rw [List.dropLast_concat] at hdrop
  have hkeep : (D.map (·.token)).filter (·.state != .atEnd) = D.map (·.token) :=
    List.filter_eq_self.2 fun x hx => by
      obtain ⟨r', hr', rfl⟩ := List.mem_map.1 hx
      simpa using hdrop r' hr'
  exact ⟨r.token, hstate, by simp [List.filter_append, hkeep, hstate]⟩

/-- The run of a scanner that starts in a live state: its first step, then a run that reaches the
end. -/
theorem steps_start_cons (b : String) {q : LexState} (hq : q ≠ .atEnd) :
    ∃ F, (start b q).steps = (start b q).step :: stepsWithin F (start b q).step.after ∧
      (stepsWithin F (start b q).step.after).getLast?.map (·.token.state) = some .atEnd := by
  obtain ⟨F, hF⟩ : ∃ F, (start b q).stepBound = F + 1 :=
    ⟨6 * b.utf8ByteSize + 5, by simp only [stepBound, start]; omega⟩
  have hsteps : (start b q).steps = (start b q).step :: stepsWithin F (start b q).step.after := by
    rw [steps, hF]
    exact stepsWithin_succ_of_ne F hq
  have hfirst : (start b q).step.token.state ≠ .atEnd := fun h => hq (step_state_eq_atEnd.1 h)
  refine ⟨F, hsteps, ?_⟩
  have := steps_reach_end b q
  rwa [hsteps, getLast?_cons_state hfirst] at this

/-- A scan from a live state has a last token. -/
theorem exists_tokens_eq_concat (source : String) {q : LexState} (hq : q ≠ .atEnd) :
    ∃ pre t, (start source q).tokens = pre ++ [t] := by
  obtain ⟨F, hsteps, -⟩ := steps_start_cons source hq
  have hfirst : (start source q).step.token.state ≠ .atEnd :=
    fun h => hq (step_state_eq_atEnd.1 h)
  rcases List.eq_nil_or_concat (start source q).tokens with h | ⟨pre, t, h⟩
  · simp [tokens, hsteps, hfirst] at h
  · exact ⟨pre, t, by simpa using h⟩

theorem state_ne_atEnd_of_mem_tokens {s : Scanner} {t : Token} (h : t ∈ s.tokens) :
    t.state ≠ .atEnd := by
  simpa using (List.mem_filter.1 h).2

/-- The tokens of two literals joined, when the first ends in a token that resumes: the tokens of
the first up to that one, that token running on to where the first token of the second stops,
and the other tokens of the second, past the bytes of the first. -/
theorem tokens_append_of_resumes {q : LexState} (hq : q.isLive = true) (a b : String)
    {pre : List Token} {t : Token} (ha : (start a q).tokens = pre ++ [t])
    (ht : t.resumes = true) :
    ∃ u rest, (start b t.state).tokens = u :: rest ∧ u.state = t.state ∧ u.start = 0 ∧
      (start (a ++ b) q).tokens =
        pre ++ ⟨t.state, t.start, a.utf8ByteSize + u.stop⟩ ::
          rest.map (Token.shift a.utf8ByteSize) := by
  have hq₀ : q ≠ .atEnd := fun h => by simp [h, LexState.isLive] at hq
  have hlive := Token.isLive_of_resumes ht
  have hqt : t.state ≠ .atEnd := fun h => by simp [h, LexState.isLive] at hlive
  have hpre : pre.filter (·.state != .atEnd) = pre :=
    List.filter_eq_self.2 fun x hx => by
      simpa using state_ne_atEnd_of_mem_tokens (ha ▸ List.mem_append_left _ hx)
  -- the run over `b`: its first token, then the run from the scanner after it
  obtain ⟨Fb, hB, hendB⟩ := steps_start_cons b hqt
  have hfirst : (start b t.state).step.token.state ≠ .atEnd :=
    fun h => hqt (step_state_eq_atEnd.1 h)
  unfold tokens steps at *
  -- the run over `a`: its tokens, then the end token
  obtain ⟨e, he, hA⟩ := map_token_of_reaches (steps_reach_end a q)
  have hrunA : (stepsWithin (start a q).stepBound (start a q)).map (·.token) = pre ++ [t, e] := by
    rw [hA, ha]
    simp
  -- the run over `a ++ b` with enough fuel, which the run its bound gives is
  have hJ := tokens_append b _ (start a q) (Poised.start a q hq₀) (Entered.start a hq) hq₀
    hrunA he ht Fb
  rw [stepsWithin_prepend] at hJ
  have hlastMap : ∀ L : List Step,
      L.getLast?.map (·.token.state) = (L.map (·.token)).getLast?.map (·.state) := by
    intro L
    rw [List.getLast?_map, Option.map_map]
    rfl
  have hreach : (stepsWithin (Fb + 1 + pre.length) ((start a q).append b)).getLast?.map
      (·.token.state) = some .atEnd := by
    obtain ⟨r, hr, hrs⟩ := Option.map_eq_some_iff.1 hendB
    rw [hlastMap, hJ, show ∀ (x : Token) (ys : List Token), pre ++ x :: ys = (pre ++ [x]) ++ ys
      by simp, List.getLast?_append, List.getLast?_map, hr]
    simp [Token.shift, hrs]
  have hsame : stepsWithin (start (a ++ b) q).stepBound (start (a ++ b) q) =
      stepsWithin (Fb + 1 + pre.length) ((start a q).append b) :=
    stepsWithin_eq_of_reaches (steps_reach_end (a ++ b) q) hreach
  -- the tokens: those before the last of `a` stay, and the end tokens drop out
  have hu : (start b t.state).step.token.state = t.state ∧ (start b t.state).step.token.start = 0 := by
    rw [step_of_ne_atEnd hqt]
    exact ⟨LexState.read_label_of_isLive hlive _ _, rfl⟩
  refine ⟨(start b t.state).step.token,
    ((stepsWithin Fb (start b t.state).step.after).map (·.token)).filter (·.state != .atEnd),
    ?_, hu.1, hu.2, ?_⟩
  · rw [hB, List.map_cons, List.filter_cons_of_pos (by simpa using hfirst)]
  · rw [hsame, hJ, List.filter_append, hpre, List.filter_cons_of_pos (by simpa using hqt)]
    simp only [List.filter_map, List.map_map]
    rfl

end Scanner

end HtmlTemplates.Markup
