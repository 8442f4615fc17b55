import HtmlTemplates.Proofs.Markup.Rules
/-!
The scanner reaches its end token.

Most tokens take at least one byte, but a token may be empty: the text before a `<` that stands
at the cursor, the `illegal` token, or a name that a blank ends at once. While tokens are empty
the cursor stays on one byte, so which states follow one another depends only on that byte,
and only on its class (`ByteClass`): `LexState.emptyNext` is the table of these moves, and no
run of empty tokens in it is longer than three (`LexState.emptyRank`). A scanner's progress
measure, four for each byte left plus the rank of its state at the cursor, therefore drops at
every step before the end token (`Scanner.progress_step_lt`), and the bound `stepBound` on the
number of steps is enough for every source and every start state
(`Scanner.steps_reach_end`).
-/
namespace HtmlTemplates.Markup
open HtmlTemplates.Text

/-- The classes of bytes the rules tell apart where a token would take nothing. -/
inductive ByteClass where
  | none | lt | gt | slash | eq | dquote | squote | blank | letter | other
  deriving DecidableEq, Repr

namespace ByteClass

/-- The class of the byte under the cursor; `none` past the end of the input. -/
def of : Option UInt8 → ByteClass
  | Option.none => .none
  | some b =>
    if b = 0x3C then .lt else if b = 0x3E then .gt else if b = 0x2F then .slash
    else if b = 0x3D then .eq else if b = 0x22 then .dquote else if b = 0x27 then .squote
    else if isBlank b then .blank else if isLetter b then .letter else .other

@[simp] theorem of_none : of Option.none = ByteClass.none := rfl

theorem isLetter_of_isBlank {b : UInt8} (h : isBlank b = true) : isLetter b = false := by
  simp only [isBlank, Bool.or_eq_true, beq_iff_eq] at h
  rcases h with ((((rfl | rfl) | rfl) | rfl) | rfl) <;> decide

/-- Which class a byte falls in, with the tests it failed before. -/
theorem of_some_cases (b : UInt8) :
    (b = 0x3C ∧ of (some b) = .lt) ∨ (b = 0x3E ∧ of (some b) = .gt) ∨
      (b = 0x2F ∧ of (some b) = .slash) ∨ (b = 0x3D ∧ of (some b) = .eq) ∨
      (b = 0x22 ∧ of (some b) = .dquote) ∨ (b = 0x27 ∧ of (some b) = .squote) ∨
      (b ≠ 0x3C ∧ b ≠ 0x3E ∧ b ≠ 0x2F ∧ b ≠ 0x3D ∧ b ≠ 0x22 ∧ b ≠ 0x27 ∧
        (isBlank b = true ∧ isLetter b = false ∧ of (some b) = .blank ∨
          isBlank b = false ∧ isLetter b = true ∧ of (some b) = .letter ∨
          isBlank b = false ∧ isLetter b = false ∧ of (some b) = .other)) := by
  simp only [of]
  by_cases h₁ : b = 0x3C
  · simp [h₁]
  by_cases h₂ : b = 0x3E
  · simp [h₂]
  by_cases h₃ : b = 0x2F
  · simp [h₃]
  by_cases h₄ : b = 0x3D
  · simp [h₄]
  by_cases h₅ : b = 0x22
  · simp [h₅]
  by_cases h₆ : b = 0x27
  · simp [h₆]
  cases hbl : isBlank b
  · cases isLetter b <;> simp [*]
  · simp [*, isLetter_of_isBlank hbl]

end ByteClass

namespace LexState

/-- The state after a token of state `q` that takes no byte, at a byte of class `c`; none when
the rule of `q` always takes a byte there. -/
def emptyNext : LexState → ByteClass → Option LexState
  | content, .lt => some tagOpen
  | content, .none => some atEnd
  | tagOpen, .letter | tagOpen, .none => some tagName
  | tagOpen, .lt | tagOpen, .slash => none
  | tagOpen, _ => some illegal
  | tagName, .blank => some beforeAttributeName
  | tagName, .slash => some selfClosingStartTag
  | tagName, .gt => some tagClose
  | tagName, .none => some atEnd
  | beforeAttributeName, .blank => none
  | beforeAttributeName, .slash => some selfClosingStartTag
  | beforeAttributeName, .gt => some tagClose
  | beforeAttributeName, .none => some atEnd
  | beforeAttributeName, _ => some attributeName
  | attributeName, .blank | attributeName, .eq => some afterAttributeName
  | attributeName, .slash => some selfClosingStartTag
  | attributeName, .gt => some tagClose
  | attributeName, .none => some atEnd
  | afterAttributeName, .blank | afterAttributeName, .eq => none
  | afterAttributeName, .slash => some selfClosingStartTag
  | afterAttributeName, .gt => some tagClose
  | afterAttributeName, .none => some atEnd
  | afterAttributeName, _ => some attributeName
  | beforeAttributeValue, .blank | beforeAttributeValue, .dquote
  | beforeAttributeValue, .squote => none
  | beforeAttributeValue, .gt => some tagClose
  | beforeAttributeValue, _ => some attributeValueUnquoted
  | attributeValueDoubleQuoted, .dquote => some afterAttributeValueQuoted
  | attributeValueDoubleQuoted, .none => some atEnd
  | attributeValueSingleQuoted, .squote => some afterAttributeValueQuoted
  | attributeValueSingleQuoted, .none => some atEnd
  | attributeValueUnquoted, .blank => some beforeAttributeName
  | attributeValueUnquoted, .gt => some tagClose
  | attributeValueUnquoted, .none => some atEnd
  | afterAttributeValueQuoted, .none => some beforeAttributeName
  | selfClosingStartTag, .slash => none
  | selfClosingStartTag, .gt => some tagClose
  | selfClosingStartTag, _ => some beforeAttributeName
  | tagClose, .gt => none
  | tagClose, _ => some content
  | illegal, _ => some content
  | _, _ => none

/-- The number of empty tokens in a row from state `q` at a byte of class `c`, counting at
most `fuel` of them. -/
def emptyRun : Nat → LexState → ByteClass → Nat
  | 0, _, _ => 0
  | fuel + 1, q, c =>
    match q.emptyNext c with
    | some q' => emptyRun fuel q' c + 1
    | none => 0

/-- How many empty tokens in a row may follow from state `q` at a byte of class `c`. -/
def emptyRank (q : LexState) (c : ByteClass) : Nat := emptyRun 4 q c

theorem emptyRank_lt_four (q : LexState) (c : ByteClass) : q.emptyRank c < 4 := by
  cases q <;> cases c <;> decide

/-- The longest run: at an `=`, the rules of `/`, of blanks and of a name all read nothing. -/
example : selfClosingStartTag.emptyRank .eq = 3 := by decide

theorem emptyRank_lt_of_emptyNext {q q' : LexState} {c : ByteClass}
    (h : q.emptyNext c = some q') : q'.emptyRank c < q.emptyRank c := by
  cases q <;> cases c <;> simp only [emptyNext, reduceCtorEq, Option.some.injEq] at h <;>
    subst h <;> decide

end LexState

section Empty
variable {input : String} {pos : Nat}

theorem LexState.read_emptyNext_end (q : LexState) (hq : q ≠ .atEnd)
    (hb : byteAt? input pos = none) :
    q.emptyNext .none = some (q.read input pos).next := by
  have hff (p : UInt8 → Bool) : firstFrom p input pos = pos :=
    firstFrom_eq_self p input pos (by simp [hb])
  have hfb (c : UInt8) : findByte c input pos = none := by
    simp [findByte_eq, hff, ← byteAt?_eq_none_iff, hb]
  cases q <;> simp_all [LexState.read, readContent, readTagOpen, readTagName,
    readBeforeAttributeName, readAttributeName, readAfterAttributeName, blankRun,
    readBeforeAttributeValue, readQuotedValue, readUnquotedValue, readAfterAttributeValueQuoted,
    readSelfClosingStartTag, readTagClose, consumeIf, afterRun, LexState.emptyNext]

theorem LexState.read_emptyNext_byte (q : LexState) (hq : q ≠ .atEnd) {b : UInt8}
    (hb : byteAt? input pos = some b) (h : (q.read input pos).stop = pos) :
    q.emptyNext (ByteClass.of (some b)) = some (q.read input pos).next := by
  have hlt := lt_of_byteAt?_eq_some hb
  cases q
  case content | attributeValueDoubleQuoted | attributeValueSingleQuoted =>
    -- an empty token stands right before the byte searched for
    dsimp only [LexState.read, readContent, readQuotedValue] at h ⊢
    cases hf : findByte _ input pos with
    | none => simp only [hf] at h; omega
    | some i =>
      simp only [hf] at h ⊢
      subst h
      have := byteAt?_of_findByte hf
      rw [hb, Option.some.injEq] at this
      subst this
      rfl
  case atEnd => exact absurd rfl hq
  case illegal => rfl
  case afterAttributeValueQuoted =>
    simp [LexState.read, readAfterAttributeValueQuoted, hb] at h
  -- the other rules come down to tests of the byte at `pos`
  case' tagOpen =>
    dsimp only [LexState.read, readTagOpen] at h ⊢
    have h₁ : (consumeIf 0x3C input pos).1 = pos := by
      have := (consumeIf_bounds 0x3C (Nat.le_of_lt hlt)).1
      have := (consumeIf_bounds 0x2F (consumeIf_bounds 0x3C (Nat.le_of_lt hlt)).2).1
      omega
    rw [h₁] at h ⊢
    have hlt' := consumeIf_fst_eq_self_iff.1 h₁
    have hsl := consumeIf_fst_eq_self_iff.1 h
    rw [h, hb]
    rw [hb] at hlt' hsl
  case' tagName | beforeAttributeName | attributeName | attributeValueUnquoted =>
    dsimp only [LexState.read, readTagName, readBeforeAttributeName, readAttributeName,
      readUnquotedValue] at h ⊢
    have hp := firstFrom_eq_self_iff.1 h b hb
    rw [h, hb]
  case' afterAttributeName =>
    by_cases he : byteAt? input (pos + blankRun input pos) = some 0x3D
    · obtain ⟨hs, -, -⟩ := readAfterAttributeName_of_eq input pos he
      simp only [LexState.read, hs] at h
      omega
    obtain ⟨hs, -, hn⟩ := readAfterAttributeName_of_ne input pos he
    simp only [LexState.read, hs, hn] at h ⊢
    dsimp only [readBeforeAttributeName] at h ⊢
    have hp := firstFrom_eq_self_iff.1 h b hb
    have hk : blankRun input pos = 0 := by simp [blankRun, h]
    rw [hk, Nat.add_zero, hb] at he
    rw [h, hb]
  case' beforeAttributeValue =>
    dsimp only [LexState.read, readBeforeAttributeValue] at h ⊢
    have hle := le_firstFrom (fun c => !isBlank c) input pos
    have hf : firstFrom (fun c => !isBlank c) input pos = pos := by
      split at h <;> dsimp only at h <;> omega
    have hp := firstFrom_eq_self_iff.1 hf b hb
    rw [hf, hb] at h ⊢
  case' selfClosingStartTag =>
    dsimp only [LexState.read, readSelfClosingStartTag] at h ⊢
    have hc := consumeIf_fst_eq_self_iff.1 h
    rw [h, hb]
    rw [hb] at hc
  case' tagClose =>
    dsimp only [LexState.read, readTagClose] at h ⊢
    have hc := consumeIf_fst_eq_self_iff.1 h
    rw [hb] at hc
  all_goals
    rcases ByteClass.of_some_cases b with ⟨rfl, hc⟩ | ⟨rfl, hc⟩ | ⟨rfl, hc⟩ | ⟨rfl, hc⟩ |
      ⟨rfl, hc⟩ | ⟨rfl, hc⟩ | ⟨_, _, _, _, _, _, ⟨_, _, hc⟩ | ⟨_, _, hc⟩ | ⟨_, _, hc⟩⟩ <;>
      simp_all +decide [LexState.emptyNext, afterRun]

/-- A token that takes no byte leads to the state the table gives for the byte at the cursor. -/
theorem LexState.read_emptyNext (q : LexState) (hq : q ≠ .atEnd)
    (h : (q.read input pos).stop = pos) :
    q.emptyNext (ByteClass.of (byteAt? input pos)) = some (q.read input pos).next := by
  cases hb : byteAt? input pos with
  | none => exact q.read_emptyNext_end hq hb
  | some b => exact q.read_emptyNext_byte hq hb h

end Empty

namespace Scanner

/-- How far a scanner is from its end token: four for each byte left, and the empty tokens that
may still come before the next byte is taken. -/
def progress (s : Scanner) : Nat :=
  4 * (s.source.utf8ByteSize - s.pos) + s.state.emptyRank (ByteClass.of (byteAt? s.source s.pos))

theorem step_of_ne_atEnd {s : Scanner} (hq : s.state ≠ .atEnd) :
    s.step = ⟨⟨(s.state.read s.source s.pos).label, s.pos, (s.state.read s.source s.pos).stop⟩,
      { s with pos := (s.state.read s.source s.pos).stop, state := (s.state.read s.source s.pos).next },
      (s.state.read s.source s.pos).probes⟩ := by
  unfold step
  split
  · contradiction
  · rfl

theorem progress_step_lt {s : Scanner} (hp : s.pos ≤ s.source.utf8ByteSize)
    (hq : s.state ≠ .atEnd) : s.step.after.progress < s.progress := by
  rw [step_of_ne_atEnd hq]
  have hb := s.state.read_bounds hp
  have hr := LexState.emptyRank_lt_four (s.state.read s.source s.pos).next
    (ByteClass.of (byteAt? s.source (s.state.read s.source s.pos).stop))
  unfold progress
  dsimp only
  by_cases he : (s.state.read s.source s.pos).stop = s.pos
  · -- an empty token: the cursor stays and the rank drops
    have hlt := LexState.emptyRank_lt_of_emptyNext (s.state.read_emptyNext hq he)
    rw [he]
    omega
  · omega

theorem step_atEnd {s : Scanner} (hq : s.state = .atEnd) :
    s.step = ⟨⟨.atEnd, s.source.utf8ByteSize, s.source.utf8ByteSize⟩, s, []⟩ := by
  unfold step
  rw [hq]

theorem step_source (s : Scanner) : s.step.after.source = s.source := by
  unfold step
  split <;> rfl

theorem step_pos_le {s : Scanner} (hp : s.pos ≤ s.source.utf8ByteSize) :
    s.step.after.pos ≤ s.step.after.source.utf8ByteSize := by
  rw [step_source]
  by_cases hq : s.state = .atEnd
  · rwa [step_atEnd hq]
  · rw [step_of_ne_atEnd hq]
    exact (s.state.read_bounds hp).2

theorem step_state_eq_atEnd {s : Scanner} : s.step.token.state = .atEnd ↔ s.state = .atEnd := by
  refine ⟨fun h => ?_, fun h => by rw [step_atEnd h]⟩
  by_cases hq : s.state = .atEnd
  · exact hq
  rw [step_of_ne_atEnd hq] at h
  rcases s.state.read_label s.source s.pos with hl | ⟨-, hl⟩
  · exact hl ▸ h
  · simp [hl] at h

theorem stepsWithin_succ_of_atEnd {s : Scanner} (fuel : Nat) (h : s.state = .atEnd) :
    stepsWithin (fuel + 1) s = [s.step] := by
  simp [stepsWithin, step_state_eq_atEnd.2 h]

theorem stepsWithin_succ_of_ne {s : Scanner} (fuel : Nat) (h : s.state ≠ .atEnd) :
    stepsWithin (fuel + 1) s = s.step :: stepsWithin fuel s.step.after := by
  simp [stepsWithin, step_state_eq_atEnd, h]

theorem getLast?_cons_state {r : Step} {rest : List Step} (hr : r.token.state ≠ .atEnd) :
    ((r :: rest).getLast?.map (·.token.state)) = some .atEnd ↔
      rest.getLast?.map (·.token.state) = some .atEnd := by
  rw [List.getLast?_cons]
  cases rest.getLast? <;> simp [hr]

/-- With more fuel than its progress measure, a scanner reaches its end token. -/
theorem stepsWithin_reaches_end (fuel : Nat) (s : Scanner)
    (hp : s.pos ≤ s.source.utf8ByteSize) (hf : s.progress < fuel) :
    ((stepsWithin fuel s).getLast?.map (·.token.state)) = some .atEnd := by
  induction fuel generalizing s with
  | zero => omega
  | succ fuel ih =>
    by_cases hq : s.state = .atEnd
    · simp [stepsWithin_succ_of_atEnd fuel hq, step_state_eq_atEnd.2 hq]
    · have hne : s.step.token.state ≠ .atEnd := fun h => hq (step_state_eq_atEnd.1 h)
      rw [stepsWithin_succ_of_ne fuel hq, getLast?_cons_state hne]
      exact ih s.step.after (step_pos_le hp) (by have := progress_step_lt hp hq; omega)

theorem progress_start_lt (source : String) (q : LexState) :
    (start source q).progress < (start source q).stepBound := by
  have := q.emptyRank_lt_four (ByteClass.of (byteAt? source 0))
  simp only [progress, stepBound, start]
  omega

/-- The steps of a scanner started anywhere in a source end with the end token. -/
theorem steps_reach_end (source : String) (q : LexState) :
    ((start source q).steps.getLast?.map (·.token.state)) = some .atEnd :=
  stepsWithin_reaches_end _ _ (Nat.zero_le _) (progress_start_lt source q)

end Scanner
end HtmlTemplates.Markup
