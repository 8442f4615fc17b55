import HtmlTemplates.Proofs.Markup.Termination
/-!
The tokens of a scan partition its source.

Started at offset 0 in any state but `atEnd`, a scanner reads tokens that follow one another
(`Token.Spans`) up to the end of the source, then the end token, which every further call gives
again (`ScanPartitions`). Two invariants carry this along a run: a `Poised` scanner's cursor is
within the source, and at its end once the scanner is in `atEnd`; an `Aligned` one's cursor lies
between two characters. Every rule keeps both, except that the closing quote of a value is taken
as one byte, whatever it is: a scan that starts in that state on the first byte of a character of
several ends its first token inside it, and that token has no text. Any other way the closing
quote state is reached, the quote it takes is ASCII (`LexState.read_entryByte`).

A user may also switch the scanner's state between reads (`Scanner.Call`); the tokens then still
follow one another within the source, though they may no longer reach its end.
-/namespace HtmlTemplates.Markup
open HtmlTemplates.Text

namespace Token

/-- Tokens that follow one another without gap or overlap from offset `a`, the last of them
ending at offset `b`. -/
def Spans : Nat → Nat → List Token → Prop
  | a, b, [] => a = b
  | a, b, t :: ts => t.start = a ∧ a ≤ t.stop ∧ Spans t.stop b ts

instance decSpans : (a b : Nat) → (ts : List Token) → Decidable (Spans a b ts)
  | a, b, [] => inferInstanceAs (Decidable (a = b))
  | _, b, t :: ts =>
    have := decSpans t.stop b ts
    inferInstanceAs (Decidable (_ ∧ _ ∧ _))

example : Spans 0 3 [⟨.content, 0, 1⟩, ⟨.tagOpen, 1, 3⟩] := by decide

theorem Spans.le {a b : Nat} {ts : List Token} (h : Spans a b ts) : a ≤ b := by
  induction ts generalizing a with
  | nil => exact Nat.le_of_eq h
  | cons t ts ih => exact Nat.le_trans h.2.1 (ih h.2.2)

/-- Each token of a run that spans `a` to `b` lies in order between them. -/
theorem Spans.bounds {a b : Nat} {ts : List Token} (h : Spans a b ts) :
    ∀ t ∈ ts, a ≤ t.start ∧ t.start ≤ t.stop ∧ t.stop ≤ b := by
  induction ts generalizing a with
  | nil => simp
  | cons t ts ih =>
    obtain ⟨hs, ha, hr⟩ := h
    intro u hu
    rcases List.mem_cons.1 hu with rfl | hu
    · exact ⟨Nat.le_of_eq hs.symm, hs ▸ ha, hr.le⟩
    · have := ih hr u hu
      omega

end Token

namespace Scanner


/-- A scanner whose cursor is within its source, and at the end of it once the scanner is in
`atEnd`. -/
structure Poised (s : Scanner) : Prop where
  pos_le : s.pos ≤ s.source.utf8ByteSize
  pos_of_atEnd : s.state = .atEnd → s.pos = s.source.utf8ByteSize

theorem Poised.start (source : String) (q : LexState) (hq : q ≠ .atEnd) :
    (start source q).Poised :=
  ⟨Nat.zero_le _, fun h => absurd h hq⟩

theorem Poised.step {s : Scanner} (h : s.Poised) : s.step.after.Poised := by
  by_cases hq : s.state = .atEnd
  · rwa [step_atEnd hq]
  · rw [step_of_ne_atEnd hq]
    exact ⟨(s.state.read_bounds h.pos_le).2, s.state.read_stop_of_next_eq_atEnd h.pos_le⟩

/-- Every step in a run is the step of a scanner that the run reaches, so it keeps any
invariant that one step preserves. -/
theorem exists_of_mem_stepsWithin {P : Scanner → Prop} (hP : ∀ s, P s → P s.step.after)
    (fuel : Nat) (s : Scanner) (hs : P s) : ∀ r ∈ stepsWithin fuel s, ∃ s', P s' ∧ r = s'.step := by
  induction fuel generalizing s with
  | zero => simp [stepsWithin]
  | succ fuel ih =>
    intro r hr
    by_cases hq : s.state = .atEnd
    · rw [stepsWithin_succ_of_atEnd fuel hq, List.mem_singleton] at hr
      exact ⟨s, hs, hr⟩
    · rw [stepsWithin_succ_of_ne fuel hq] at hr
      rcases List.mem_cons.1 hr with rfl | hr
      · exact ⟨s, hs, rfl⟩
      · exact ih _ (hP s hs) r hr

theorem state_ne_atEnd_of_mem_dropLast (fuel : Nat) (s : Scanner) :
    ∀ r ∈ (stepsWithin fuel s).dropLast, r.token.state ≠ .atEnd := by
  induction fuel generalizing s with
  | zero => simp [stepsWithin]
  | succ fuel ih =>
    by_cases hq : s.state = .atEnd
    · simp [stepsWithin_succ_of_atEnd fuel hq]
    · intro r hr
      rw [stepsWithin_succ_of_ne fuel hq] at hr
      cases hrest : stepsWithin fuel s.step.after with
      | nil => simp [hrest] at hr
      | cons r' rest =>
        rw [hrest, List.dropLast_cons_cons] at hr
        rcases List.mem_cons.1 hr with rfl | hr
        · exact fun h => hq (step_state_eq_atEnd.1 h)
        · exact ih _ r (hrest ▸ hr)

/-- The tokens of a run before its end token span the rest of the source. -/
theorem spans_stepsWithin (fuel : Nat) (s : Scanner) (hs : s.Poised)
    (hend : (stepsWithin fuel s).getLast?.map (·.token.state) = some .atEnd) :
    Token.Spans s.pos s.source.utf8ByteSize
      (((stepsWithin fuel s).map (·.token)).filter (·.state != .atEnd)) := by
  induction fuel generalizing s with
  | zero => simp [stepsWithin] at hend
  | succ fuel ih =>
    by_cases hq : s.state = .atEnd
    · simp [stepsWithin_succ_of_atEnd fuel hq, step_state_eq_atEnd.2 hq, Token.Spans,
        hs.pos_of_atEnd hq]
    · have hne : s.step.token.state ≠ .atEnd := fun h => hq (step_state_eq_atEnd.1 h)
      rw [stepsWithin_succ_of_ne fuel hq] at hend ⊢
      have ih' := ih s.step.after hs.step ((getLast?_cons_state hne).1 hend)
      rw [step_source, step_of_ne_atEnd hq] at ih'
      rw [List.map_cons, List.filter_cons_of_pos (by simpa using hne)]
      rw [step_of_ne_atEnd hq]
      exact ⟨rfl, (s.state.read_bounds hs.pos_le).1, ih'⟩

/-- A scanner whose cursor lies between two characters and, where the next rule takes a byte
unseen (`afterAttributeValueQuoted`), before an ASCII byte if any. -/
structure Aligned (s : Scanner) : Prop where
  boundary : isCharBoundary s.source s.pos = true
  quote : s.state = .afterAttributeValueQuoted →
    ∀ b, byteAt? s.source s.pos = some b → b < 0x80

theorem closingQuote_of_mem_successors {label : LexState}
    (h : LexState.afterAttributeValueQuoted ∈ label.successors) :
    ∃ c, label.closingQuote = some c ∧ c < 0x80 := by
  cases label <;> simp [LexState.successors, LexState.closingQuote] at h ⊢

theorem Aligned.step {s : Scanner} (hp : s.Poised) (h : s.Aligned) : s.step.after.Aligned := by
  by_cases hq : s.state = .atEnd
  · rwa [step_atEnd hq]
  rw [step_of_ne_atEnd hq]
  refine ⟨s.state.read_isCharBoundary hp.pos_le h.boundary h.quote, fun hn b hb => ?_⟩
  -- the closing quote state starts on the quote the value before it stopped at
  have hmem := s.state.read_next_mem s.source s.pos
  dsimp only at hn hb
  rw [hn] at hmem
  obtain ⟨c, hc, hlt⟩ := closingQuote_of_mem_successors hmem
  have hentry : (s.state.read s.source s.pos).next.entryByte
      (s.state.read s.source s.pos).label = some c := by
    rw [hn]
    exact hc
  rw [s.state.read_entryByte hentry, Option.some.injEq] at hb
  exact hb ▸ hlt

/-- Every token of a run from an aligned scanner starts and stops between two characters. -/
theorem isCharBoundary_of_mem_stepsWithin (fuel : Nat) (s : Scanner) (hp : s.Poised)
    (ha : s.Aligned) : ∀ r ∈ stepsWithin fuel s,
      isCharBoundary s.source r.token.start = true ∧ isCharBoundary s.source r.token.stop = true := by
  intro r hr
  have hinv : ∀ s' : Scanner, s'.source = s.source ∧ s'.Poised ∧ s'.Aligned →
      s'.step.after.source = s.source ∧ s'.step.after.Poised ∧ s'.step.after.Aligned :=
    fun s' ⟨h₁, h₂, h₃⟩ => ⟨(step_source s').trans h₁, h₂.step, h₃.step h₂⟩
  obtain ⟨s', ⟨hsrc, hp', ha'⟩, rfl⟩ := exists_of_mem_stepsWithin hinv fuel s ⟨rfl, hp, ha⟩ r hr
  rw [← hsrc]
  by_cases hq : s'.state = .atEnd
  · rw [step_atEnd hq]
    exact ⟨isCharBoundary_size _, isCharBoundary_size _⟩
  · rw [step_of_ne_atEnd hq]
    exact ⟨ha'.boundary, s'.state.read_isCharBoundary hp'.pos_le ha'.boundary ha'.quote⟩

end Scanner

/-- The slices of tokens that span `a` to `b`, each between two characters, put together are the
slice from `a` to `b`. -/
theorem join_slices {source : String} {a b : Nat} {ts : List Token} (h : Token.Spans a b ts)
    (hb : b ≤ source.utf8ByteSize) (hbb : isCharBoundary source b = true)
    (hts : ∀ t ∈ ts, isCharBoundary source t.start = true ∧ isCharBoundary source t.stop = true) :
    String.join <$> ts.mapM (fun t => slice source t.start t.stop) = slice source a b := by
  induction ts generalizing a with
  | nil =>
    obtain rfl : a = b := h
    rw [slice_self hbb hb]
    rfl
  | cons t ts ih =>
    obtain ⟨rfl, ha, hr⟩ := h
    have ht := hts t List.mem_cons_self
    obtain ⟨u, hu⟩ := slice_isOk ha (Nat.le_trans hr.le hb) ht.1 ht.2
    obtain ⟨v, hv⟩ := slice_isOk hr.le hb ht.2 hbb
    have ih' := ih hr (fun t' ht' => hts t' (List.mem_cons_of_mem t ht'))
    rw [hv] at ih'
    cases hm : List.mapM (fun t => slice source t.start t.stop) ts with
    | error e =>
      rw [hm] at ih'
      cases ih'
    | ok vs =>
      rw [hm] at ih'
      have hv' : String.join vs = v := by injection ih'
      rw [List.mapM_cons, hu, hm, slice_append hu hv, ← hv', ← String.join_cons]
      rfl

namespace Scanner
theorem Aligned.start (source : String) (q : LexState)
    (hq : q = .afterAttributeValueQuoted → ∀ b, byteAt? source 0 = some b → b < 0x80) :
    (start source q).Aligned :=
  ⟨isCharBoundary_zero source, hq⟩

/-- A scan ends with the end token at the end of the source, in a step that every further call
gives again. -/
theorem last_step (source : String) (q : LexState) :
    ∃ last ∈ (start source q).steps.getLast?,
      last.token = ⟨.atEnd, source.utf8ByteSize, source.utf8ByteSize⟩ ∧
        last.after.state = .atEnd ∧ last.after.step = last := by
  have hend := steps_reach_end source q
  obtain ⟨last, hlast, hstate⟩ := Option.map_eq_some_iff.1 hend
  have hsrc : ∀ s' : Scanner, s'.source = source → s'.step.after.source = source :=
    fun s' h => (step_source s').trans h
  obtain ⟨s', hs', rfl⟩ := exists_of_mem_stepsWithin hsrc _ _ rfl last
    (List.mem_of_getLast? hlast)
  have hq := step_state_eq_atEnd.1 hstate
  refine ⟨s'.step, hlast, ?_⟩
  rw [step_atEnd hq, ← hs']
  exact ⟨rfl, hq, step_atEnd hq⟩

/-- The tokens of a scan from the start of a source, before its end token, tile the source. -/
theorem spans_tokens (source : String) (q : LexState) (hq : q ≠ .atEnd) :
    Token.Spans 0 source.utf8ByteSize (start source q).tokens :=
  spans_stepsWithin _ _ (Poised.start source q hq) (steps_reach_end source q)

/-- The texts of the tokens put together are the source, when the scan does not start by taking
a byte of a character of several. -/
theorem join_texts (source : String) (q : LexState) (hq : q ≠ .atEnd)
    (ha : q = .afterAttributeValueQuoted → ∀ b, byteAt? source 0 = some b → b < 0x80) :
    String.join <$> (start source q).tokens.mapM (fun t => slice source t.start t.stop) =
      .ok source := by
  rw [join_slices (spans_tokens source q hq) (Nat.le_refl _) (isCharBoundary_size source),
    slice_zero_size]
  intro t ht
  obtain ⟨r, hr, rfl⟩ := List.mem_map.1 (List.mem_filter.1 ht).1
  exact isCharBoundary_of_mem_stepsWithin _ _ (Poised.start source q hq) (Aligned.start source q ha)
    r hr

/-- The closing quote of a value takes one byte, whatever it is: on the first byte of a character
of several, the first token ends inside that character and has no text. -/
theorem mapM_slice_tokens_eq_error (source : String) {b : UInt8}
    (h0 : byteAt? source 0 = some b) (hb : 0x80 ≤ b) :
    ∃ e, (start source .afterAttributeValueQuoted).tokens.mapM
      (fun t => slice source t.start t.stop) = .error e := by
  have hfirst : (start source .afterAttributeValueQuoted).step.token =
      ⟨.afterAttributeValueQuoted, 0, 1⟩ := by
    rw [step_of_ne_atEnd (by simp [start])]
    simp [start, LexState.read, readAfterAttributeValueQuoted, h0]
  have hsteps : (start source .afterAttributeValueQuoted).steps =
      (start source .afterAttributeValueQuoted).step ::
        stepsWithin (6 * source.utf8ByteSize + 5) (start source .afterAttributeValueQuoted).step.after :=
    stepsWithin_succ_of_ne _ (by simp [start])
  have hslice : ∀ u, slice source 0 1 ≠ .ok u := fun u hu =>
    absurd (slice_eq_ok_iff.1 hu).2.2.2.1 (by simp [isCharBoundary_one_eq_false h0 hb])
  cases hs : slice source 0 1 with
  | ok u => exact absurd hs (hslice u)
  | error e =>
    refine ⟨e, ?_⟩
    rw [tokens, hsteps, List.map_cons, hfirst, List.filter_cons_of_pos (by decide), List.mapM_cons]
    simp only [hs]
    rfl

/-- What a user of a scanner does: read the next token, or switch the scanner to a state. -/
inductive Call where
  | next
  | setState (q : LexState)

/-- The tokens that a sequence of calls reads. -/
def run : Scanner → List Call → List Token
  | _, [] => []
  | s, .next :: calls => s.step.token :: run s.step.after calls
  | s, .setState q :: calls => run { s with state := q } calls

/-- Whatever states the calls switch to, the tokens read but the end tokens follow one another
from the cursor within the source, and every end token is the one at the end of the source. -/
theorem run_spans (s : Scanner) (hp : s.pos ≤ s.source.utf8ByteSize) (calls : List Call) :
    ∃ e ≤ s.source.utf8ByteSize, Token.Spans s.pos e ((s.run calls).filter (·.state != .atEnd)) ∧
      ∀ t ∈ s.run calls, t.state = .atEnd →
        t = ⟨.atEnd, s.source.utf8ByteSize, s.source.utf8ByteSize⟩ := by
  induction calls generalizing s with
  | nil => exact ⟨s.pos, hp, rfl, by simp [run]⟩
  | cons call calls ih =>
    cases call with
    | setState q => exact ih { s with state := q } hp
    | next =>
      by_cases hq : s.state = .atEnd
      · obtain ⟨e, he, hspans, hend⟩ := ih s hp
        refine ⟨e, he, ?_, ?_⟩
        · simpa [run, step_atEnd hq] using hspans
        · simp only [run, step_atEnd hq, List.mem_cons, forall_eq_or_imp]
          exact ⟨fun _ => trivial, hend⟩
      · have hne : s.step.token.state ≠ .atEnd := fun h => hq (step_state_eq_atEnd.1 h)
        have hb := s.state.read_bounds hp
        obtain ⟨e, he, hspans, hend⟩ := ih s.step.after (step_pos_le hp)
        rw [step_source] at he hend
        refine ⟨e, he, ?_, ?_⟩
        · rw [run, List.filter_cons_of_pos (by simpa using hne)]
          rw [step_of_ne_atEnd hq] at hspans ⊢
          exact ⟨rfl, hb.1, hspans⟩
        · simp only [run, List.mem_cons, forall_eq_or_imp]
          exact ⟨fun h => absurd h hne, hend⟩

end Scanner

/-- What a scan of `source` started in state `q` gives, read by read. -/
structure ScanPartitions (source : String) (q : LexState) : Prop where
  /-- The steps end with the end token at the end of the source, and every further call gives
  it again. -/
  ends : ∃ last ∈ (Scanner.start source q).steps.getLast?,
    last.token = ⟨.atEnd, source.utf8ByteSize, source.utf8ByteSize⟩ ∧
      last.after.state = .atEnd ∧ last.after.step = last
  /-- No step before the last gives the end token. -/
  ends_once : ∀ r ∈ (Scanner.start source q).steps.dropLast, r.token.state ≠ .atEnd
  /-- The tokens before it follow one another from offset 0 to the end of the source. -/
  spans : Token.Spans 0 source.utf8ByteSize (Scanner.start source q).tokens
  /-- Their texts put together are the source, unless the scan starts on the closing quote of a
  value and the first byte begins a character of several. -/
  texts : String.join <$> (Scanner.start source q).tokens.mapM
      (fun t => slice source t.start t.stop) = .ok source ↔
    ¬(q = .afterAttributeValueQuoted ∧ ∃ b, byteAt? source 0 = some b ∧ 0x80 ≤ b)
  /-- Whatever states calls switch to between reads, the tokens read but the end tokens follow
  one another from offset 0 within the source, and every end token is at the end of it. -/
  calls : ∀ calls : List Scanner.Call, ∃ e ≤ source.utf8ByteSize,
    Token.Spans 0 e (((Scanner.start source q).run calls).filter (·.state != .atEnd)) ∧
      ∀ t ∈ (Scanner.start source q).run calls, t.state = .atEnd →
        t = ⟨.atEnd, source.utf8ByteSize, source.utf8ByteSize⟩

/-- Started anywhere but at the end, a scan partitions its source. -/
theorem scan_partitions (source : String) (q : LexState) (hq : q ≠ .atEnd) :
    ScanPartitions source q where
  ends := Scanner.last_step source q
  ends_once := Scanner.state_ne_atEnd_of_mem_dropLast _ _
  spans := Scanner.spans_tokens source q hq
  texts := by
    constructor
    · rintro h ⟨rfl, b, h0, hb⟩
      obtain ⟨e, he⟩ := Scanner.mapM_slice_tokens_eq_error source h0 hb
      rw [he] at h
      cases h
    · intro h
      refine Scanner.join_texts source q hq fun hq b h0 => ?_
      exact UInt8.not_le.1 fun hb => h ⟨hq, b, h0, hb⟩
  calls := Scanner.run_spans (Scanner.start source q) (Nat.zero_le _)

theorem scan_partitions_tag : LexState.content ≠ .atEnd ∧ ScanPartitions "<a href=x>" .content :=
  ⟨by decide, scan_partitions _ _ (by decide)⟩

end HtmlTemplates.Markup
