import HtmlTemplates.Markup.Scanner
import HtmlTemplates.Proofs.Text.CharBoundary
/-!
What one rule of the markup scanner does.

Each state's rule reads a token from an offset `pos` of its input. The token ends between `pos`
and the end of the input (`LexState.read_bounds`); it is tagged with the state itself, except
that the rule after a name may read its blanks again as the start of the next attribute
(`LexState.read_label`); the state that reads on is one of the successors of the token's state
(`LexState.read_next_mem`). The rules look only at ASCII bytes, so where a state begins with
a byte it expects (`<`, `/`, `>` or a closing quote) the token before found it there
(`LexState.read_entryByte`), only a token that reads up to the end leads to `atEnd`, and a token
that starts between two characters ends between two characters (`LexState.read_isCharBoundary`).
-/
namespace HtmlTemplates.Markup
open HtmlTemplates.Text

theorem le_firstFrom (p : UInt8 → Bool) (input : String) (pos : Nat) :
    pos ≤ firstFrom p input pos := by
  fun_induction firstFrom p input pos with
  | case1 pos h hp => exact Nat.le_refl _
  | case2 pos h hp ih => omega
  | case3 pos h => exact Nat.le_refl _

theorem firstFrom_le (p : UInt8 → Bool) (input : String) (pos : Nat)
    (h : pos ≤ input.utf8ByteSize) : firstFrom p input pos ≤ input.utf8ByteSize := by
  fun_induction firstFrom p input pos with
  | case1 pos h hp => omega
  | case2 pos h hp ih => exact ih (by omega)
  | case3 pos h => omega

theorem byteAt?_firstFrom (p : UInt8 → Bool) (input : String) (pos : Nat) {b : UInt8}
    (hb : byteAt? input (firstFrom p input pos) = some b) : p b = true := by
  fun_induction firstFrom p input pos with
  | case1 pos h hp =>
    simp only [byteAt?, h, dite_true, Option.some.injEq] at hb
    exact hb ▸ hp
  | case2 pos h hp ih => exact ih hb
  | case3 pos h => simp [byteAt?, h] at hb

theorem not_of_lt_firstFrom (p : UInt8 → Bool) (input : String) (pos : Nat) {j : Nat}
    (hj : pos ≤ j) (hlt : j < firstFrom p input pos) :
    ∃ b, byteAt? input j = some b ∧ p b = false := by
  fun_induction firstFrom p input pos with
  | case1 pos h hp => omega
  | case2 pos h hp ih =>
    by_cases hjp : j = pos
    · subst hjp
      exact ⟨input.getUTF8Byte ⟨j⟩ h, by simp [byteAt?, h], by simpa using hp⟩
    · exact ih (by omega) hlt
  | case3 pos h => omega

theorem firstFrom_eq_self (p : UInt8 → Bool) (input : String) (pos : Nat)
    (h : ∀ b, byteAt? input pos = some b → p b = true) : firstFrom p input pos = pos := by
  rw [firstFrom]
  split
  · rename_i hlt
    rw [if_pos (h _ (by simp [byteAt?, hlt]))]
  · rfl

theorem firstFrom_eq_self_iff {p : UInt8 → Bool} {input : String} {pos : Nat} :
    firstFrom p input pos = pos ↔ ∀ b, byteAt? input pos = some b → p b = true := by
  refine ⟨fun h b hb => ?_, firstFrom_eq_self p input pos⟩
  rw [← h] at hb
  exact byteAt?_firstFrom p input pos hb

/-- Where a run stops: at the end of the input, or at a byte of the class. -/
theorem firstFrom_stop (p : UInt8 → Bool) (input : String) (pos : Nat)
    (h : pos ≤ input.utf8ByteSize) :
    firstFrom p input pos = input.utf8ByteSize ∨
      ∃ b, byteAt? input (firstFrom p input pos) = some b ∧ p b = true := by
  cases hb : byteAt? input (firstFrom p input pos) with
  | none =>
    left
    have := byteAt?_eq_none_iff.1 hb
    have := firstFrom_le p input pos h
    omega
  | some b => exact Or.inr ⟨b, rfl, byteAt?_firstFrom p input pos hb⟩

theorem findByte_eq (b : UInt8) (input : String) (pos : Nat) :
    findByte b input pos =
      if firstFrom (· == b) input pos < input.utf8ByteSize then some (firstFrom (· == b) input pos)
      else none := rfl

theorem consumeIf_fst (b : UInt8) (input : String) (pos : Nat) :
    (consumeIf b input pos).1 = if byteAt? input pos = some b then pos + 1 else pos := by
  unfold consumeIf
  split <;> simp_all

theorem consumeIf_fst_eq_self_iff {b : UInt8} {input : String} {pos : Nat} :
    (consumeIf b input pos).1 = pos ↔ byteAt? input pos ≠ some b := by
  rw [consumeIf_fst]
  split <;> simp_all

section Bounds
variable {input : String} {pos : Nat}

theorem consumeIf_bounds (b : UInt8) (h : pos ≤ input.utf8ByteSize) :
    pos ≤ (consumeIf b input pos).1 ∧ (consumeIf b input pos).1 ≤ input.utf8ByteSize := by
  rw [consumeIf_fst]
  split
  · rename_i hb
    have := lt_of_byteAt?_eq_some hb
    omega
  · omega

theorem findByte_bounds {b : UInt8} {i : Nat} (h : findByte b input pos = some i) :
    pos ≤ i ∧ i < input.utf8ByteSize := by
  rw [findByte_eq] at h
  split at h
  · cases h
    exact ⟨le_firstFrom _ _ _, by assumption⟩
  · cases h

theorem firstFrom_bounds (p : UInt8 → Bool) (h : pos ≤ input.utf8ByteSize) :
    pos ≤ firstFrom p input pos ∧ firstFrom p input pos ≤ input.utf8ByteSize :=
  ⟨le_firstFrom p input pos, firstFrom_le p input pos h⟩

theorem LexState.read_bounds (q : LexState) (h : pos ≤ input.utf8ByteSize) :
    pos ≤ (q.read input pos).stop ∧ (q.read input pos).stop ≤ input.utf8ByteSize := by
  cases q with
  | content | attributeValueDoubleQuoted | attributeValueSingleQuoted =>
    simp only [LexState.read, readContent, readQuotedValue]
    split
    · have hb := findByte_bounds ‹_›
      exact ⟨hb.1, Nat.le_of_lt hb.2⟩
    · exact ⟨h, Nat.le_refl _⟩
  | tagOpen =>
    have h₁ : pos ≤ (consumeIf 0x3C input pos).1 ∧
        (consumeIf 0x3C input pos).1 ≤ input.utf8ByteSize := consumeIf_bounds 0x3C h
    have h₂ := consumeIf_bounds 0x2F h₁.2
    exact ⟨by simp only [LexState.read, readTagOpen]; omega, h₂.2⟩
  | tagName | beforeAttributeName | attributeName | attributeValueUnquoted =>
    exact firstFrom_bounds _ h
  | afterAttributeName =>
    simp only [LexState.read, readAfterAttributeName]
    split
    · rename_i heq
      have := lt_of_byteAt?_eq_some (eq_of_beq heq)
      dsimp only
      omega
    · exact firstFrom_bounds _ h
  | beforeAttributeValue =>
    simp only [LexState.read, readBeforeAttributeValue]
    have hf := firstFrom_bounds (fun c => !isBlank c) h
    split
    · rename_i heq
      have := lt_of_byteAt?_eq_some heq
      dsimp only
      omega
    · rename_i heq
      have := lt_of_byteAt?_eq_some heq
      dsimp only
      omega
    all_goals exact hf
  | afterAttributeValueQuoted =>
    simp only [LexState.read, readAfterAttributeValueQuoted]
    split
    · rename_i hc
      obtain ⟨b, hb⟩ := Option.isSome_iff_exists.1 hc
      have := lt_of_byteAt?_eq_some hb
      omega
    · omega
  | selfClosingStartTag => exact consumeIf_bounds 0x2F h
  | tagClose => exact consumeIf_bounds 0x3E h
  | atEnd => exact ⟨h, Nat.le_refl _⟩
  | illegal => exact ⟨Nat.le_refl _, h⟩

end Bounds

namespace LexState

/-- The states that can read on after a token of state `q`. -/
def successors : LexState → List LexState
  | content => [tagOpen, atEnd]
  | tagOpen => [tagName, illegal]
  | tagName => [selfClosingStartTag, tagClose, beforeAttributeName, atEnd]
  | beforeAttributeName => [selfClosingStartTag, tagClose, attributeName, atEnd]
  | attributeName => [selfClosingStartTag, tagClose, afterAttributeName, atEnd]
  | afterAttributeName => [beforeAttributeValue]
  | beforeAttributeValue =>
    [attributeValueDoubleQuoted, attributeValueSingleQuoted, tagClose, attributeValueUnquoted]
  | attributeValueDoubleQuoted | attributeValueSingleQuoted => [afterAttributeValueQuoted, atEnd]
  | attributeValueUnquoted => [tagClose, beforeAttributeName, atEnd]
  | afterAttributeValueQuoted => [selfClosingStartTag, tagClose, beforeAttributeName]
  | selfClosingStartTag => [tagClose, beforeAttributeName]
  | tagClose => [content]
  | atEnd => [atEnd]
  | illegal => [content]

/-- The quote that ends a value read in state `q`. -/
def closingQuote : LexState → Option UInt8
  | attributeValueDoubleQuoted => some 0x22
  | attributeValueSingleQuoted => some 0x27
  | _ => none

/-- The byte a state finds where it starts reading, when it follows a token of state `label`:
the `<` of a tag, the `/` and the `>` that end one, and the closing quote of a value. -/
def entryByte (q label : LexState) : Option UInt8 :=
  match q with
  | tagOpen => some 0x3C
  | selfClosingStartTag => some 0x2F
  | tagClose => some 0x3E
  | afterAttributeValueQuoted => label.closingQuote
  | _ => none

end LexState

theorem isBlank_lt {b : UInt8} (h : isBlank b = true) : b < 0x80 := by
  simp only [isBlank, Bool.or_eq_true, beq_iff_eq] at h
  rcases h with ((((rfl | rfl) | rfl) | rfl) | rfl) <;> decide

theorem afterRun_mem (b : Option UInt8) (other : LexState) :
    afterRun b other ∈ [.selfClosingStartTag, .tagClose, other, .atEnd] := by
  unfold afterRun
  split <;> simp

theorem afterRun_eq_atEnd {b : Option UInt8} {other : LexState} (h : other ≠ .atEnd)
    (he : afterRun b other = .atEnd) : b = none := by
  unfold afterRun at he
  split at he <;> simp_all

theorem entryByte_afterRun {b : Option UInt8} {other label : LexState} {x : UInt8}
    (hother : other.entryByte label = none)
    (h : (afterRun b other).entryByte label = some x) : b = some x := by
  unfold afterRun at h
  split at h <;> simp_all [LexState.entryByte]


section Labels
variable (input : String) (pos : Nat)

@[simp] theorem readContent_label : (readContent input pos).label = .content := by
  unfold readContent
  split <;> rfl

@[simp] theorem readQuotedValue_label (b : UInt8) (label : LexState) :
    (readQuotedValue b label input pos).label = label := by
  unfold readQuotedValue
  split <;> rfl

@[simp] theorem readBeforeAttributeValue_label :
    (readBeforeAttributeValue input pos).label = .beforeAttributeValue := by
  dsimp only [readBeforeAttributeValue]
  split <;> rfl

/-- After a name, `=` past the blanks leads to a value. -/
theorem readAfterAttributeName_of_eq (h : byteAt? input (pos + blankRun input pos) = some 0x3D) :
    (readAfterAttributeName input pos).stop = pos + blankRun input pos + 1 ∧
      (readAfterAttributeName input pos).label = .afterAttributeName ∧
      (readAfterAttributeName input pos).next = .beforeAttributeValue := by
  dsimp only [readAfterAttributeName]
  rw [if_pos (by simp [h])]
  exact ⟨rfl, rfl, rfl⟩

/-- Without `=` the blanks are read again as the start of the next attribute. -/
theorem readAfterAttributeName_of_ne (h : byteAt? input (pos + blankRun input pos) ≠ some 0x3D) :
    (readAfterAttributeName input pos).stop = (readBeforeAttributeName input pos).stop ∧
      (readAfterAttributeName input pos).label = .beforeAttributeName ∧
      (readAfterAttributeName input pos).next = (readBeforeAttributeName input pos).next := by
  dsimp only [readAfterAttributeName]
  rw [if_neg (by simpa using h)]
  exact ⟨rfl, rfl, rfl⟩

theorem LexState.read_label (q : LexState) :
    (q.read input pos).label = q ∨
      (q = .afterAttributeName ∧ (q.read input pos).label = .beforeAttributeName) := by
  cases q
  case afterAttributeName =>
    by_cases h : byteAt? input (pos + blankRun input pos) = some 0x3D
    · exact Or.inl (readAfterAttributeName_of_eq input pos h).2.1
    · exact Or.inr ⟨rfl, (readAfterAttributeName_of_ne input pos h).2.1⟩
  all_goals exact Or.inl (by
    simp [LexState.read, readTagOpen, readTagName, readBeforeAttributeName, readAttributeName,
      readUnquotedValue, readAfterAttributeValueQuoted, readSelfClosingStartTag, readTagClose])

end Labels

section Successors
variable (input : String) (pos : Nat)

theorem LexState.read_next_mem (q : LexState) :
    (q.read input pos).next ∈ (q.read input pos).label.successors := by
  cases q
  case afterAttributeName =>
    by_cases h : byteAt? input (pos + blankRun input pos) = some 0x3D
    · obtain ⟨-, hl, hn⟩ := readAfterAttributeName_of_eq input pos h
      simp [LexState.read, hl, hn, LexState.successors]
    · obtain ⟨-, hl, hn⟩ := readAfterAttributeName_of_ne input pos h
      simpa [LexState.read, hl, hn, LexState.successors, readBeforeAttributeName]
        using afterRun_mem _ _
  case tagName | beforeAttributeName | attributeName =>
    simpa [LexState.read, readTagName, readBeforeAttributeName, readAttributeName,
      LexState.successors] using afterRun_mem _ _
  all_goals
    dsimp only [LexState.read, readContent, readTagOpen, readBeforeAttributeValue,
      readQuotedValue, readUnquotedValue, readAfterAttributeValueQuoted, readSelfClosingStartTag,
      readTagClose]
    repeat' split
  all_goals simp [LexState.successors]

end Successors

section Entry
variable {input : String} {pos : Nat}

theorem byteAt?_of_findByte {b : UInt8} {i : Nat} (h : findByte b input pos = some i) :
    byteAt? input i = some b := by
  rw [findByte_eq] at h
  split at h
  · cases h
    rename_i hlt
    cases hc : byteAt? input (firstFrom (fun x => x == b) input pos) with
    | none =>
      have := byteAt?_eq_none_iff.1 hc
      omega
    | some c => rw [eq_of_beq (byteAt?_firstFrom (fun x => x == b) input pos hc)]
  · cases h

theorem LexState.read_entryByte (q : LexState) {x : UInt8}
    (h : (q.read input pos).next.entryByte (q.read input pos).label = some x) :
    byteAt? input (q.read input pos).stop = some x := by
  cases q
  case afterAttributeName =>
    by_cases he : byteAt? input (pos + blankRun input pos) = some 0x3D
    · obtain ⟨-, hl, hn⟩ := readAfterAttributeName_of_eq input pos he
      simp [LexState.read, hn, LexState.entryByte] at h
    · obtain ⟨hs, hl, hn⟩ := readAfterAttributeName_of_ne input pos he
      simp only [LexState.read, hs, hl, hn] at h ⊢
      exact entryByte_afterRun rfl h
  case tagName | beforeAttributeName | attributeName =>
    exact entryByte_afterRun rfl h
  all_goals
    dsimp only [LexState.read, readContent, readTagOpen, readBeforeAttributeValue,
      readQuotedValue, readUnquotedValue, readAfterAttributeValueQuoted, readSelfClosingStartTag,
      readTagClose] at h ⊢
    repeat' split at h
  all_goals simp_all [LexState.entryByte, LexState.closingQuote]
  all_goals
    subst_vars
    exact byteAt?_of_findByte ‹_›


theorem LexState.read_stop_of_next_eq_atEnd (q : LexState) (hp : pos ≤ input.utf8ByteSize)
    (h : (q.read input pos).next = .atEnd) : (q.read input pos).stop = input.utf8ByteSize := by
  have hb := q.read_bounds hp
  cases q
  case afterAttributeName =>
    by_cases he : byteAt? input (pos + blankRun input pos) = some 0x3D
    · obtain ⟨-, -, hn⟩ := readAfterAttributeName_of_eq input pos he
      simp [LexState.read, hn] at h
    · obtain ⟨hs, -, hn⟩ := readAfterAttributeName_of_ne input pos he
      simp only [LexState.read, hs, hn] at h hb ⊢
      dsimp only [readBeforeAttributeName] at h hb ⊢
      have := byteAt?_eq_none_iff.1 (afterRun_eq_atEnd (by decide) h)
      omega
  case tagName | beforeAttributeName | attributeName =>
    dsimp only [LexState.read, readTagName, readBeforeAttributeName, readAttributeName] at h hb ⊢
    have := byteAt?_eq_none_iff.1 (afterRun_eq_atEnd (by decide) h)
    omega
  all_goals
    dsimp only [LexState.read, readContent, readTagOpen, readBeforeAttributeValue,
      readQuotedValue, readUnquotedValue, readAfterAttributeValueQuoted, readSelfClosingStartTag,
      readTagClose] at h hb ⊢
    repeat' split at h
  all_goals simp_all
  -- an unquoted value that runs to the end of the input
  have := byteAt?_eq_none_iff.1 ‹_›
  omega

end Entry

section Boundaries
variable {input : String} {pos : Nat}

theorem isCharBoundary_firstFrom_of_lt (p : UInt8 → Bool) (hp : ∀ b, p b = true → b < 0x80)
    (h : pos ≤ input.utf8ByteSize) : isCharBoundary input (firstFrom p input pos) = true := by
  rcases firstFrom_stop p input pos h with he | ⟨b, hb, hpb⟩
  · rw [he]
    exact isCharBoundary_size input
  · exact isCharBoundary_of_byteAt?_lt hb (hp b hpb)

/-- A run of blanks ends between two characters: where it started, or after a blank. -/
theorem isCharBoundary_firstFrom_notBlank (h : isCharBoundary input pos = true) :
    isCharBoundary input (firstFrom (fun c => !isBlank c) input pos) = true := by
  by_cases he : firstFrom (fun c => !isBlank c) input pos = pos
  · rw [he]
    exact h
  · have hlt : pos < firstFrom (fun c => !isBlank c) input pos :=
      Nat.lt_of_le_of_ne (le_firstFrom _ _ _) (Ne.symm he)
    obtain ⟨b, hb, hnb⟩ := not_of_lt_firstFrom (fun c => !isBlank c) input pos
      (j := firstFrom (fun c => !isBlank c) input pos - 1) (by omega) (by omega)
    have hs := isCharBoundary_succ hb (isBlank_lt (by simpa using hnb))
    rwa [Nat.sub_add_cancel (by omega)] at hs

theorem isCharBoundary_consumeIf {b : UInt8} (hb : b < 0x80) (h : isCharBoundary input pos = true) :
    isCharBoundary input (consumeIf b input pos).1 = true := by
  rw [consumeIf_fst]
  split
  · exact isCharBoundary_succ ‹_› hb
  · exact h

theorem LexState.read_isCharBoundary (q : LexState) (hp : pos ≤ input.utf8ByteSize)
    (h : isCharBoundary input pos = true)
    (hq : q = .afterAttributeValueQuoted → ∀ b, byteAt? input pos = some b → b < 0x80) :
    isCharBoundary input (q.read input pos).stop = true := by
  cases q
  case content | attributeValueDoubleQuoted | attributeValueSingleQuoted =>
    dsimp only [LexState.read, readContent, readQuotedValue]
    split
    · exact isCharBoundary_of_byteAt?_lt (byteAt?_of_findByte ‹_›) (by decide)
    · exact isCharBoundary_size input
  case tagOpen =>
    exact isCharBoundary_consumeIf (by decide) (isCharBoundary_consumeIf (by decide) h)
  case tagName =>
    refine isCharBoundary_firstFrom_of_lt _ (fun b hb => ?_) hp
    simp only [Bool.or_eq_true, beq_iff_eq] at hb
    rcases hb with (hb | rfl) | rfl
    · exact isBlank_lt hb
    all_goals decide
  case attributeName =>
    refine isCharBoundary_firstFrom_of_lt _ (fun b hb => ?_) hp
    simp only [Bool.or_eq_true, beq_iff_eq] at hb
    rcases hb with ((hb | rfl) | rfl) | rfl
    · exact isBlank_lt hb
    all_goals decide
  case attributeValueUnquoted =>
    refine isCharBoundary_firstFrom_of_lt _ (fun b hb => ?_) hp
    simp only [Bool.or_eq_true, beq_iff_eq] at hb
    rcases hb with hb | rfl
    · exact isBlank_lt hb
    · decide
  case beforeAttributeName => exact isCharBoundary_firstFrom_notBlank h
  case afterAttributeName =>
    by_cases he : byteAt? input (pos + blankRun input pos) = some 0x3D
    · obtain ⟨hs, -, -⟩ := readAfterAttributeName_of_eq input pos he
      simp only [LexState.read, hs]
      exact isCharBoundary_succ he (by decide)
    · obtain ⟨hs, -, -⟩ := readAfterAttributeName_of_ne input pos he
      simp only [LexState.read, hs]
      exact isCharBoundary_firstFrom_notBlank h
  case beforeAttributeValue =>
    have hf := isCharBoundary_firstFrom_notBlank h
    dsimp only [LexState.read, readBeforeAttributeValue]
    split
    · exact isCharBoundary_succ ‹_› (by decide)
    · exact isCharBoundary_succ ‹_› (by decide)
    all_goals exact hf
  case afterAttributeValueQuoted =>
    cases hb : byteAt? input pos with
    | none => simpa [LexState.read, readAfterAttributeValueQuoted, hb] using h
    | some b =>
      simp only [LexState.read, readAfterAttributeValueQuoted, hb, Option.isSome_some, if_true]
      exact isCharBoundary_succ hb (hq rfl b hb)
  case selfClosingStartTag => exact isCharBoundary_consumeIf (by decide) h
  case tagClose => exact isCharBoundary_consumeIf (by decide) h
  case atEnd => exact isCharBoundary_size input
  case illegal => exact h

end Boundaries

end HtmlTemplates.Markup
