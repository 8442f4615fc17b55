import HtmlTemplates.Proofs.Markup.Grammar
/-!
A scanner driven by calls.

A user reads tokens from a scanner with `next` and may switch its state between reads
(`Scanner.Call`, `Scanner.run`).

Reading on with `next` always reaches the end token. Every read before it lowers the scanner's
progress measure (`Scanner.progress_step_lt`), four for each byte left and at most three for the
empty tokens that may come before the next byte is taken, so the end token comes within
`4 * size + 4` reads (`Scanner.next_reaches_end`). The steps a scan takes with its bound of fuel are
exactly those reads.

The tokens lie between two characters of the source, so their texts can be taken, as long as
no read takes the closing quote of a value from the first byte of a character of several: that
rule takes one byte, whatever it is (`Scanner.QuoteSafe`, `BetweenChars`). A scan that only reads
on enters that state only in front of the quote a value stopped at, unless it starts there; the
scan of a sequence of literals never starts there, and never fails (`tokens_between_chars`).
-/
namespace HtmlTemplates

namespace Text

/-- The offset after the first byte of a character of several lies inside that character. -/
theorem isCharBoundary_succ_eq_false {s : String} {i : Nat} {b : UInt8}
    (hi : isCharBoundary s i = true) (h : byteAt? s i = some b) (hb : 0x80 ≤ b) :
    isCharBoundary s (i + 1) = false := by
  have hlt := lt_of_byteAt?_eq_some h
  have hsize : i < s.toByteArray.size := by simpa using hlt
  apply Bool.eq_false_iff.2
  intro hbd
  -- between two char boundaries the bytes are valid UTF-8, here the one byte `b`
  have hvalid := (String.Pos.Raw.isValidUTF8_extract_iff ⟨i⟩ ⟨i + 1⟩
    (by simp [String.Pos.Raw.le_iff]) (by simp [String.Pos.Raw.le_iff]; omega)).2
    (.inr ⟨isCharBoundary_iff_isValid.1 hi, isCharBoundary_iff_isValid.1 hbd⟩)
  rw [ByteArray.extract_add_one hsize, getElem_toByteArray_of_byteAt? h hsize] at hvalid
  exact absurd (lt_of_isValidUTF8_singleton hvalid) (by simpa using hb)

end Text

namespace Markup
open HtmlTemplates.Text

namespace Scanner

theorem length_run_replicate (s : Scanner) (n : Nat) :
    (s.run (List.replicate n .next)).length = n := by
  induction n generalizing s with
  | zero => rfl
  | succ n ih => rw [List.replicate_succ, run, List.length_cons, ih]

theorem dropLast_run_replicate (s : Scanner) (n : Nat) :
    (s.run (List.replicate (n + 1) .next)).dropLast = s.run (List.replicate n .next) := by
  induction n generalizing s with
  | zero => rfl
  | succ n ih =>
    have hne : s.step.after.run (List.replicate (n + 1) .next) ≠ [] := by
      rw [← List.length_pos_iff, length_run_replicate]
      exact Nat.succ_pos n
    rw [List.replicate_succ, run, List.dropLast_cons_of_ne_nil hne, ih, List.replicate_succ, run]

/-- The tokens of a scan's steps are the tokens of as many reads. -/
theorem map_token_stepsWithin (fuel : Nat) (s : Scanner) :
    (stepsWithin fuel s).map (·.token) =
      s.run (List.replicate (stepsWithin fuel s).length .next) := by
  induction fuel generalizing s with
  | zero => rfl
  | succ fuel ih =>
    by_cases hq : s.state = .atEnd
    · rw [stepsWithin_succ_of_atEnd fuel hq]
      rfl
    · rw [stepsWithin_succ_of_ne fuel hq, List.map_cons, List.length_cons, List.replicate_succ,
        run, ih]

/-- Each step before the end token lowers the progress measure, so a scan takes no more steps
than its progress and one. -/
theorem length_stepsWithin_le (fuel : Nat) (s : Scanner) (hp : s.pos ≤ s.source.utf8ByteSize) :
    (stepsWithin fuel s).length ≤ s.progress + 1 := by
  induction fuel generalizing s with
  | zero => simp [stepsWithin]
  | succ fuel ih =>
    by_cases hq : s.state = .atEnd
    · simp [stepsWithin_succ_of_atEnd fuel hq]
    · rw [stepsWithin_succ_of_ne fuel hq, List.length_cons]
      have hrest := ih s.step.after (step_pos_le hp)
      have hlt := progress_step_lt hp hq
      omega

theorem progress_start_le (source : String) (q : LexState) :
    (start source q).progress ≤ 4 * source.utf8ByteSize + 3 := by
  have := q.emptyRank_lt_four (ByteClass.of (byteAt? source 0))
  simp only [progress, start]
  omega

/-- Reading with `next` from the start of any source in any state reaches the end token within
four reads for each byte and four more; the first end token closes the steps the scan takes. -/
theorem next_reaches_end (source : String) (q : LexState) :
    ∃ n ≤ 4 * source.utf8ByteSize + 3,
      ((start source q).run (List.replicate (n + 1) .next)).getLast?.map (·.state) =
        some .atEnd ∧
      (∀ t ∈ (start source q).run (List.replicate n .next), t.state ≠ .atEnd) ∧
      (start source q).steps.map (·.token) = (start source q).run (List.replicate (n + 1) .next) := by
  have hend := steps_reach_end source q
  have hmap : (start source q).steps.map (·.token) =
      (start source q).run (List.replicate (start source q).steps.length .next) :=
    map_token_stepsWithin _ _
  have hlen : (start source q).steps.length ≤ (start source q).progress + 1 :=
    length_stepsWithin_le _ _ (Nat.zero_le _)
  -- the steps end with the end token, so there is at least one
  obtain ⟨n, hn⟩ : ∃ n, (start source q).steps.length = n + 1 := by
    refine Nat.exists_eq_succ_of_ne_zero fun h => ?_
    rw [List.length_eq_zero_iff.1 h] at hend
    cases hend
  rw [hn] at hmap hlen
  refine ⟨n, by have := progress_start_le source q; omega, ?_, ?_, hmap⟩
  · rw [← hmap, List.getLast?_map, Option.map_map]
    exact hend
  · intro t ht
    rw [← dropLast_run_replicate, ← hmap, ← List.map_dropLast] at ht
    obtain ⟨r, hr, rfl⟩ := List.mem_map.1 ht
    exact state_ne_atEnd_of_mem_dropLast _ _ r hr

/-- Calls that never take the closing quote of a value from the first byte of a character of
several: each `next` made in `afterAttributeValueQuoted` finds an ASCII byte at the cursor, or
none. -/
def QuoteSafe : Scanner → List Call → Prop
  | _, [] => True
  | s, .next :: calls =>
    (s.state = .afterAttributeValueQuoted → ∀ b, byteAt? s.source s.pos = some b → b < 0x80) ∧
      QuoteSafe s.step.after calls
  | s, .setState q :: calls => QuoteSafe { s with state := q } calls

/-- The closing quote of a value, taken from the first byte of a character of several, ends
inside that character. -/
theorem step_stop_eq_false {s : Scanner} (hb : isCharBoundary s.source s.pos = true)
    (hq : s.state = .afterAttributeValueQuoted) {b : UInt8}
    (hbyte : byteAt? s.source s.pos = some b) (h80 : 0x80 ≤ b) :
    isCharBoundary s.source s.step.token.stop = false := by
  rw [step_of_ne_atEnd (by simp [hq])]
  simp only [hq, LexState.read, readAfterAttributeValueQuoted, hbyte, Option.isSome_some, if_true]
  exact isCharBoundary_succ_eq_false hb hbyte h80

/-- The tokens that calls read lie between two characters exactly when the calls are safe for
closing quotes. -/
theorem run_isCharBoundary_iff (s : Scanner) (hp : s.pos ≤ s.source.utf8ByteSize)
    (hb : isCharBoundary s.source s.pos = true) (calls : List Call) :
    (∀ t ∈ s.run calls,
      isCharBoundary s.source t.start = true ∧ isCharBoundary s.source t.stop = true) ↔
        s.QuoteSafe calls := by
  induction calls generalizing s with
  | nil => simp [run, QuoteSafe]
  | cons call calls ih =>
    cases call with
    | setState q => exact ih { s with state := q } hp hb
    | next =>
      simp only [run, QuoteSafe, List.forall_mem_cons]
      by_cases hq : s.state = .atEnd
      · rw [step_atEnd hq, ih s hp hb]
        simp [isCharBoundary_size, hq]
      have ih' := ih s.step.after (step_pos_le hp)
      rw [step_source] at ih'
      by_cases hsafe : s.state = .afterAttributeValueQuoted →
          ∀ b, byteAt? s.source s.pos = some b → b < 0x80
      · have hstop := s.state.read_isCharBoundary hp hb hsafe
        have htok : isCharBoundary s.source s.step.token.start = true ∧
            isCharBoundary s.source s.step.token.stop = true := by
          rw [step_of_ne_atEnd hq]
          exact ⟨hb, hstop⟩
        have hafter : isCharBoundary s.source s.step.after.pos = true := by
          rw [step_of_ne_atEnd hq]
          exact hstop
        rw [← ih' hafter]
        exact ⟨fun h => ⟨hsafe, h.2⟩, fun h => ⟨htok, h.2⟩⟩
      · -- the first token ends inside a character
        simp only [Classical.not_imp, Classical.not_forall] at hsafe
        obtain ⟨hq', b, hbyte, h80⟩ := hsafe
        have hstop := step_stop_eq_false hb hq' hbyte (UInt8.not_lt.1 h80)
        simp [hstop, hq', hbyte, h80]


/-- Reading on with `next` alone from a poised and aligned scanner is safe for closing quotes:
the closing quote state is entered only in front of the quote a value stopped at. -/
theorem quoteSafe_replicate_next {s : Scanner} (hp : s.Poised) (ha : s.Aligned) (n : Nat) :
    s.QuoteSafe (List.replicate n .next) := by
  induction n generalizing s with
  | zero => trivial
  | succ n ih => exact ⟨ha.quote, ih hp.step (ha.step hp)⟩

theorem quoteSafe_replicate_next_of_atEnd {s : Scanner} (hq : s.state = .atEnd) (n : Nat) :
    s.QuoteSafe (List.replicate n .next) := by
  induction n with
  | zero => trivial
  | succ n ih =>
    refine ⟨fun h => absurd (hq.symm.trans h) (by decide), ?_⟩
    rw [step_atEnd hq]
    exact ih

/-- The tokens that calls read have texts when they lie between two characters. -/
theorem slice_of_run {s : Scanner} (hp : s.pos ≤ s.source.utf8ByteSize) {calls : List Call}
    (hb : ∀ t ∈ s.run calls,
      isCharBoundary s.source t.start = true ∧ isCharBoundary s.source t.stop = true) :
    ∀ t ∈ s.run calls, ∃ text, slice s.source t.start t.stop = .ok text := by
  obtain ⟨e, he, hspans, hend⟩ := run_spans s hp calls
  intro t ht
  have hbt := hb t ht
  by_cases hq : t.state = .atEnd
  · rw [hend t ht hq]
    exact slice_isOk (Nat.le_refl _) (Nat.le_refl _) (isCharBoundary_size _) (isCharBoundary_size _)
  · have hbounds := hspans.bounds t (List.mem_filter.2 ⟨ht, by simpa using hq⟩)
    exact slice_isOk hbounds.2.1 (by omega) hbt.1 hbt.2

end Scanner

/-- Where the tokens of a scan of `source` started in state `q` lie. -/
structure BetweenChars (source : String) (q : LexState) : Prop where
  /-- With states switched between reads, every token read lies between two characters exactly
  when no read takes the closing quote of a value from the first byte of a character of several. -/
  calls : ∀ calls : List Scanner.Call,
    (∀ t ∈ (Scanner.start source q).run calls,
      isCharBoundary source t.start = true ∧ isCharBoundary source t.stop = true) ↔
        (Scanner.start source q).QuoteSafe calls
  /-- Reading with `next` alone, that happens only when the scan starts on the closing quote of a
  value and the first byte begins a character of several. -/
  next : (∀ n, ∀ t ∈ (Scanner.start source q).run (List.replicate n .next),
      isCharBoundary source t.start = true ∧ isCharBoundary source t.stop = true) ↔
    ¬(q = .afterAttributeValueQuoted ∧ ∃ b, byteAt? source 0 = some b ∧ 0x80 ≤ b)
  /-- Tokens read safely have texts. -/
  texts : ∀ calls : List Scanner.Call, (Scanner.start source q).QuoteSafe calls →
    ∀ t ∈ (Scanner.start source q).run calls, ∃ text, slice source t.start t.stop = .ok text

theorem betweenChars (source : String) (q : LexState) : BetweenChars source q := by
  have hcalls := Scanner.run_isCharBoundary_iff (Scanner.start source q) (Nat.zero_le _)
    (isCharBoundary_zero source)
  refine ⟨hcalls, ⟨fun h => ?_, fun h n => ?_⟩, fun calls hsafe =>
    Scanner.slice_of_run (Nat.zero_le _) ((hcalls calls).2 hsafe)⟩
  · -- one read from the start takes the first byte
    rintro ⟨rfl, b, hbyte, h80⟩
    have := ((hcalls [.next]).1 (h 1)).1 rfl b hbyte
    exact absurd this (UInt8.not_lt.2 h80)
  · refine (hcalls _).2 ?_
    by_cases hq : q = .atEnd
    · exact Scanner.quoteSafe_replicate_next_of_atEnd hq n
    refine Scanner.quoteSafe_replicate_next (Scanner.Poised.start source q hq)
      (Scanner.Aligned.start source q fun hq' b hbyte => ?_) n
    exact UInt8.not_le.1 fun h80 => h ⟨hq', b, hbyte, h80⟩

theorem tokenizeLiterals_ok (literals : List String) :
    ∃ events, tokenizeLiterals literals = .ok events := by
  by_cases hl : literals = []
  · subst hl
    exact ⟨[], by rw [tokenizeLiterals, scanLiterals, scanFrom, eventsOf]⟩
  obtain ⟨events, htok, -⟩ := walk_tokenizeLiterals hl
  exact ⟨events, htok⟩

/-- Token ranges lie between two characters, so their texts can be taken, except where a read
takes the closing quote of a value from the first byte of a character of several; scanning
literals never does, and never fails. -/
theorem tokens_between_chars (source : String) (q : LexState) (literals : List String) :
    BetweenChars source q ∧ ∃ events, tokenizeLiterals literals = .ok events :=
  ⟨betweenChars source q, tokenizeLiterals_ok literals⟩

end Markup

end HtmlTemplates
