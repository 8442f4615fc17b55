import HtmlTemplates.Proofs.Markup.Grammar
/-!
The rules of the markup scanner on two texts joined.

A rule reads the bytes from its offset on and stops at the first byte of some class, or at the
end of its input. On `a ++ b` it therefore reads as on `a` while it stops inside `a`
(`LexState.read_append_of_stop_lt`), and as on `b`, shifted by the length of `a`, once it starts
in `b` (`LexState.read_append_right`). A rule of a live state that runs to the end of `a` runs on
into `b` as if it had started there (`LexState.read_append_of_live`). A rule that stops right at
the end of `a` reads as on `a` when the state it leads to was decided before that end
(`LexState.read_append_of_stop_eq`).
-/
namespace HtmlTemplates.Markup
open HtmlTemplates.Text

section Bytes
variable {a b : String}

theorem byteAt?_append_left {i : Nat} (h : i < a.utf8ByteSize) :
    byteAt? (a ++ b) i = byteAt? a i := by
  have h' : i < a.toByteArray.size := by simpa using h
  have hab : i < a.utf8ByteSize + b.utf8ByteSize := by omega
  simp [byteAt?, hab, h, String.getUTF8Byte_eq_getElem, ByteArray.getElem_append_left h']

theorem byteAt?_append_right (j : Nat) :
    byteAt? (a ++ b) (a.utf8ByteSize + j) = byteAt? b j := by
  by_cases hj : j < b.utf8ByteSize
  · have hle : a.toByteArray.size ≤ a.utf8ByteSize + j := by simp
    simp [byteAt?, hj, String.getUTF8Byte_eq_getElem, ByteArray.getElem_append_right hle]
  · simp [byteAt?, hj]

theorem firstFrom_eq (p : UInt8 → Bool) (input : String) (pos : Nat) :
    firstFrom p input pos = match byteAt? input pos with
      | some c => if p c then pos else firstFrom p input (pos + 1)
      | none => pos := by
  rw [firstFrom]
  unfold byteAt?
  split <;> rfl

/-- A run that starts in `b` reads as in `b` alone. -/
theorem firstFrom_append_right (p : UInt8 → Bool) (j : Nat) :
    firstFrom p (a ++ b) (a.utf8ByteSize + j) = a.utf8ByteSize + firstFrom p b j := by
  fun_induction firstFrom p b j with
  | case1 j h hp =>
    have hb : byteAt? b j = some (b.getUTF8Byte ⟨j⟩ h) := by simp [byteAt?, h]
    rw [firstFrom_eq, byteAt?_append_right, hb]
    simp [hp]
  | case2 j h hp ih =>
    have hb : byteAt? b j = some (b.getUTF8Byte ⟨j⟩ h) := by simp [byteAt?, h]
    rw [firstFrom_eq, byteAt?_append_right, hb]
    simp only [hp, Bool.false_eq_true, if_false]
    rw [Nat.add_assoc, ih]
  | case3 j h =>
    rw [firstFrom_eq, byteAt?_append_right, byteAt?_eq_none_iff.2 (by omega)]

/-- A run that stops inside `a` stops there in `a ++ b` too. -/
theorem firstFrom_append_of_lt {p : UInt8 → Bool} {pos : Nat}
    (h : firstFrom p a pos < a.utf8ByteSize) : firstFrom p (a ++ b) pos = firstFrom p a pos := by
  fun_induction firstFrom p a pos with
  | case1 pos hlt hp =>
    rw [firstFrom_eq, byteAt?_append_left hlt]
    simp [byteAt?, hlt, hp]
  | case2 pos hlt hp ih =>
    rw [firstFrom_eq, byteAt?_append_left hlt]
    simp only [byteAt?, hlt, dite_true, hp, Bool.false_eq_true, if_false]
    exact ih h
  | case3 pos hge => omega

/-- A run that reaches the end of `a` goes on as a run from the start of `b`. -/
theorem firstFrom_append_of_eq {p : UInt8 → Bool} {pos : Nat} (hpos : pos ≤ a.utf8ByteSize)
    (h : firstFrom p a pos = a.utf8ByteSize) :
    firstFrom p (a ++ b) pos = a.utf8ByteSize + firstFrom p b 0 := by
  fun_induction firstFrom p a pos with
  | case1 pos hlt hp => omega
  | case2 pos hlt hp ih =>
    rw [firstFrom_eq, byteAt?_append_left hlt]
    simp only [byteAt?, hlt, dite_true, hp, Bool.false_eq_true, if_false]
    exact ih (by omega) h
  | case3 pos hge =>
    have hp : pos = a.utf8ByteSize := by omega
    rw [hp, ← Nat.add_zero a.utf8ByteSize, firstFrom_append_right, Nat.add_zero]

theorem findByte_append_of_some {c : UInt8} {pos i : Nat} (h : findByte c a pos = some i) :
    findByte c (a ++ b) pos = some i := by
  rw [findByte_eq] at h ⊢
  split at h
  · cases h
    rw [firstFrom_append_of_lt ‹_›, if_pos (by rw [String.utf8ByteSize_append]; omega)]
  · cases h

theorem findByte_append_of_none {c : UInt8} {pos : Nat} (hpos : pos ≤ a.utf8ByteSize)
    (h : findByte c a pos = none) :
    findByte c (a ++ b) pos = (findByte c b 0).map (a.utf8ByteSize + ·) := by
  rw [findByte_eq] at h
  split at h
  · cases h
  · rename_i hge
    have heq : firstFrom (· == c) a pos = a.utf8ByteSize :=
      Nat.le_antisymm (firstFrom_le _ _ _ hpos) (Nat.le_of_not_lt hge)
    rw [findByte_eq, findByte_eq, firstFrom_append_of_eq hpos heq, String.utf8ByteSize_append]
    split <;> split <;> first | rfl | omega

theorem findByte_append_right (c : UInt8) (j : Nat) :
    findByte c (a ++ b) (a.utf8ByteSize + j) = (findByte c b j).map (a.utf8ByteSize + ·) := by
  rw [findByte_eq, findByte_eq, firstFrom_append_right, String.utf8ByteSize_append]
  split <;> split <;> first | rfl | omega

theorem consumeIf_append_left (c : UInt8) {pos : Nat} (h : pos < a.utf8ByteSize) :
    consumeIf c (a ++ b) pos = consumeIf c a pos := by
  simp only [consumeIf, byteAt?_append_left h]

theorem consumeIf_append_right (c : UInt8) (j : Nat) :
    consumeIf c (a ++ b) (a.utf8ByteSize + j) =
      (a.utf8ByteSize + (consumeIf c b j).1, (consumeIf c b j).2) := by
  simp only [consumeIf, byteAt?_append_right]
  split <;> rfl

theorem blankRun_append_right (j : Nat) :
    blankRun (a ++ b) (a.utf8ByteSize + j) = blankRun b j := by
  simp only [blankRun, firstFrom_append_right]
  omega

theorem isCharBoundary_append_right (j : Nat) :
    isCharBoundary (a ++ b) (a.utf8ByteSize + j) = isCharBoundary b j := by
  unfold isCharBoundary
  rw [byteAt?_append_right]
  split
  · rfl
  · rw [String.utf8ByteSize_append, Bool.eq_iff_iff, beq_iff_eq, beq_iff_eq]
    omega

theorem isCharBoundary_append_left {i : Nat} (h : i ≤ a.utf8ByteSize) :
    isCharBoundary (a ++ b) i = isCharBoundary a i := by
  by_cases hi : i < a.utf8ByteSize
  · unfold isCharBoundary
    rw [byteAt?_append_left hi]
    cases hb : byteAt? a i with
    | none => exact absurd (byteAt?_eq_none_iff.1 hb) (Nat.not_le_of_lt hi)
    | some c => rfl
  · -- the end of `a` is the start of `b`
    have hi : i = a.utf8ByteSize + 0 := by omega
    rw [hi, isCharBoundary_append_right, Nat.add_zero, isCharBoundary_zero, isCharBoundary_size]

/-- A piece of `a` is the same piece of `a ++ b`. -/
theorem slice_append_left {i j : Nat} {x : String} (h : slice a i j = .ok x) :
    slice (a ++ b) i j = .ok x := by
  obtain ⟨hij, hj, hi', hj', hx⟩ := slice_eq_ok_iff.1 h
  have hempty : b.toByteArray.extract (i - a.toByteArray.size) (j - a.toByteArray.size) =
      ByteArray.empty := ByteArray.extract_eq_empty_iff.2 (by simp; omega)
  refine slice_eq_ok_iff.2 ⟨hij, by rw [String.utf8ByteSize_append]; omega, ?_, ?_, ?_⟩
  · rwa [isCharBoundary_append_left (by omega)]
  · rwa [isCharBoundary_append_left hj]
  · rw [hx, String.toByteArray_append, ByteArray.extract_append, hempty, ByteArray.append_empty]

/-- A piece of `b` is the same piece of `a ++ b`, past the bytes of `a`. -/
theorem slice_append_right {i j : Nat} {y : String} (h : slice b i j = .ok y) :
    slice (a ++ b) (a.utf8ByteSize + i) (a.utf8ByteSize + j) = .ok y := by
  obtain ⟨hij, hj, hi', hj', hy⟩ := slice_eq_ok_iff.1 h
  have hempty : a.toByteArray.extract (a.utf8ByteSize + i) (a.utf8ByteSize + j) =
      ByteArray.empty := ByteArray.extract_eq_empty_iff.2 (by simp)
  refine slice_eq_ok_iff.2 ⟨by omega, by rw [String.utf8ByteSize_append]; omega, ?_, ?_, ?_⟩
  · rwa [isCharBoundary_append_right]
  · rwa [isCharBoundary_append_right]
  · rw [hy, String.toByteArray_append, ByteArray.extract_append, hempty, ByteArray.empty_append]
    simp

end Bytes

/-- A move as it reads when `k` more bytes stand in front of its input. -/
def Move.shift (k : Nat) (m : Move) : Move := { m with stop := k + m.stop }

section Rules
variable {a b : String}

/-- A rule that starts in `b` reads as on `b` alone. -/
theorem LexState.read_append_right (q : LexState) (j : Nat) :
    q.read (a ++ b) (a.utf8ByteSize + j) = (q.read b j).shift a.utf8ByteSize := by
  cases q
  case content | attributeValueDoubleQuoted | attributeValueSingleQuoted =>
    simp only [LexState.read, readContent, readQuotedValue, findByte_append_right]
    split
    · rename_i heq
      obtain ⟨i, hi, rfl⟩ := Option.map_eq_some_iff.1 heq
      simp [hi, Move.shift]
    · rename_i heq
      simp [Option.map_eq_none_iff.1 heq, Move.shift, String.utf8ByteSize_append]
  case tagOpen =>
    simp only [LexState.read, readTagOpen, consumeIf_append_right, byteAt?_append_right]
    rfl
  case tagName | beforeAttributeName | attributeName | attributeValueUnquoted =>
    simp only [LexState.read, readTagName, readBeforeAttributeName, readAttributeName,
      readUnquotedValue, firstFrom_append_right, byteAt?_append_right]
    rfl
  case afterAttributeName =>
    simp only [LexState.read, readAfterAttributeName, readBeforeAttributeName,
      blankRun_append_right, Nat.add_assoc, byteAt?_append_right, firstFrom_append_right]
    split <;> rfl
  case beforeAttributeValue =>
    simp only [LexState.read, readBeforeAttributeValue, firstFrom_append_right,
      byteAt?_append_right]
    split <;> simp [Move.shift, Nat.add_assoc]
  case afterAttributeValueQuoted =>
    simp only [LexState.read, readAfterAttributeValueQuoted, byteAt?_append_right]
    cases hc : byteAt? b j <;> simp [Move.shift, Nat.add_assoc, byteAt?_append_right]
  case selfClosingStartTag | tagClose =>
    simp only [LexState.read, readSelfClosingStartTag, readTagClose, consumeIf_append_right,
      byteAt?_append_right]
    rfl
  case atEnd => simp [LexState.read, Move.shift, String.utf8ByteSize_append]
  case illegal => rfl

theorem le_consumeIf_fst (c : UInt8) (input : String) (pos : Nat) :
    pos ≤ (consumeIf c input pos).1 := by
  rw [consumeIf_fst]
  split <;> omega

theorem readAfterAttributeName_append_left {pos : Nat}
    (h : firstFrom (fun c => !isBlank c) a pos < a.utf8ByteSize) :
    readAfterAttributeName (a ++ b) pos = readAfterAttributeName a pos := by
  have hrun : firstFrom (fun c => !isBlank c) a pos = pos + blankRun a pos := by
    have := le_firstFrom (fun c => !isBlank c) a pos
    simp only [blankRun]
    omega
  have hblank : blankRun (a ++ b) pos = blankRun a pos := by
    simp only [blankRun, firstFrom_append_of_lt h]
  -- every byte the rule looks ahead at lies before the end of `a`
  have hlooks : ∀ j ∈ List.range (blankRun a pos + 1),
      Probe.lookahead (byteAt? (a ++ b) (pos + j)) = Probe.lookahead (byteAt? a (pos + j)) := by
    intro j hj
    rw [byteAt?_append_left (by rw [List.mem_range] at hj; omega)]
  have hbyte : byteAt? (a ++ b) (pos + blankRun a pos) = byteAt? a (pos + blankRun a pos) :=
    byteAt?_append_left (by omega)
  simp only [readAfterAttributeName, readBeforeAttributeName, hblank,
    List.map_congr_left hlooks, hbyte, firstFrom_append_of_lt h, byteAt?_append_left h]

theorem readBeforeAttributeValue_append_left {pos : Nat}
    (h : firstFrom (fun c => !isBlank c) a pos < a.utf8ByteSize) :
    readBeforeAttributeValue (a ++ b) pos = readBeforeAttributeValue a pos := by
  simp only [readBeforeAttributeValue, firstFrom_append_of_lt h, byteAt?_append_left h]

/-- A rule that stops before the end of `a` reads as on `a` alone. -/
theorem LexState.read_append_of_stop_lt (q : LexState) {pos : Nat}
    (h : (q.read a pos).stop < a.utf8ByteSize) : q.read (a ++ b) pos = q.read a pos := by
  cases q
  case content | attributeValueDoubleQuoted | attributeValueSingleQuoted =>
    simp only [LexState.read, readContent, readQuotedValue] at h ⊢
    split at h
    · rename_i i heq
      rw [findByte_append_of_some heq]
    · exact absurd h (Nat.lt_irrefl _)
  case tagOpen =>
    simp only [LexState.read, readTagOpen] at h ⊢
    have h₁ := le_consumeIf_fst 0x3C a pos
    have h₂ := le_consumeIf_fst 0x2F a (consumeIf 0x3C a pos).1
    rw [consumeIf_append_left 0x3C (show pos < a.utf8ByteSize by omega),
      consumeIf_append_left 0x2F (show (consumeIf 0x3C a pos).1 < a.utf8ByteSize by omega),
      byteAt?_append_left h]
  case tagName | beforeAttributeName | attributeName | attributeValueUnquoted =>
    simp only [LexState.read, readTagName, readBeforeAttributeName, readAttributeName,
      readUnquotedValue] at h ⊢
    rw [firstFrom_append_of_lt h, byteAt?_append_left h]
  case afterAttributeName =>
    -- both branches stop at or after the blanks, so the blanks end inside `a`
    have hrun : firstFrom (fun c => !isBlank c) a pos < a.utf8ByteSize := by
      have := le_firstFrom (fun c => !isBlank c) a pos
      by_cases he : byteAt? a (pos + blankRun a pos) = some 0x3D
      · rw [LexState.read, (readAfterAttributeName_of_eq a pos he).1] at h
        simp only [blankRun] at h
        omega
      · rwa [LexState.read, (readAfterAttributeName_of_ne a pos he).1] at h
    exact readAfterAttributeName_append_left hrun
  case beforeAttributeValue =>
    have hrun : firstFrom (fun c => !isBlank c) a pos < a.utf8ByteSize := by
      simp only [LexState.read, readBeforeAttributeValue] at h
      split at h <;> (dsimp only at h; omega)
    exact readBeforeAttributeValue_append_left hrun
  case afterAttributeValueQuoted =>
    simp only [LexState.read, readAfterAttributeValueQuoted] at h ⊢
    by_cases hc : (byteAt? a pos).isSome
    · obtain ⟨c, hcb⟩ := Option.isSome_iff_exists.1 hc
      rw [if_pos hc] at h
      rw [byteAt?_append_left (lt_of_byteAt?_eq_some hcb), if_pos hc, byteAt?_append_left h]
    · -- with no byte at the cursor the rule stops at the end of `a`
      rw [if_neg hc] at h
      exact absurd (Option.isSome_iff_ne_none.2 (by rw [Ne, byteAt?_eq_none_iff]; omega)) hc
  case selfClosingStartTag | tagClose =>
    simp only [LexState.read, readSelfClosingStartTag, readTagClose] at h ⊢
    have := le_consumeIf_fst 0x2F a pos
    have := le_consumeIf_fst 0x3E a pos
    rw [consumeIf_append_left _ (by omega)]
    try rw [byteAt?_append_left h]
  case atEnd => exact absurd h (Nat.lt_irrefl _)
  case illegal => rfl

/-- A rule that stops at the end of `a` reads as on `a` alone when the state it leads to was
decided before that end: only a quoted value, the text after a tag and the value after `=`
are. -/
theorem LexState.read_append_of_stop_eq (q : LexState) {prev : LexState} {pos : Nat}
    (hentry : ∀ x, q.entryByte prev = some x → byteAt? a pos = some x)
    (h : (q.read a pos).stop = a.utf8ByteSize)
    (hn : (q.read a pos).next ∉
      [.atEnd, .tagName, .attributeValueUnquoted, .beforeAttributeName]) :
    q.read (a ++ b) pos = q.read a pos := by
  have hnone : byteAt? a a.utf8ByteSize = none := byteAt?_eq_none_iff.2 (Nat.le_refl _)
  cases q
  case content | attributeValueDoubleQuoted | attributeValueSingleQuoted =>
    simp only [LexState.read, readContent, readQuotedValue] at h hn
    split at hn
    · rename_i i heq
      have := findByte_bounds heq
      simp only [heq] at h
      omega
    · simp at hn
  case tagOpen =>
    simp only [LexState.read, readTagOpen] at h hn
    rw [h, hnone] at hn
    simp at hn
  case tagName | beforeAttributeName | attributeName | attributeValueUnquoted =>
    simp only [LexState.read, readTagName, readBeforeAttributeName, readAttributeName,
      readUnquotedValue] at h hn
    rw [h, hnone] at hn
    simp [afterRun] at hn
  case afterAttributeName =>
    by_cases he : byteAt? a (pos + blankRun a pos) = some 0x3D
    · -- the `=` lies inside `a`, and so do the blanks before it
      have hlt := lt_of_byteAt?_eq_some he
      have : firstFrom (fun c => !isBlank c) a pos < a.utf8ByteSize := by
        have := le_firstFrom (fun c => !isBlank c) a pos
        simp only [blankRun] at hlt
        omega
      exact readAfterAttributeName_append_left this
    · obtain ⟨hs, -, hnext⟩ := readAfterAttributeName_of_ne a pos he
      simp only [LexState.read, hs, hnext, readBeforeAttributeName] at h hn
      rw [h, hnone] at hn
      simp [afterRun] at hn
  case beforeAttributeValue =>
    by_cases hrun : firstFrom (fun c => !isBlank c) a pos < a.utf8ByteSize
    · exact readBeforeAttributeValue_append_left hrun
    · have hb : byteAt? a (firstFrom (fun c => !isBlank c) a pos) = none :=
        byteAt?_eq_none_iff.2 (Nat.le_of_not_lt hrun)
      simp [LexState.read, readBeforeAttributeValue, hb] at hn
  case afterAttributeValueQuoted | selfClosingStartTag =>
    simp only [LexState.read, readAfterAttributeValueQuoted, readSelfClosingStartTag] at h hn
    rw [h, hnone] at hn
    simp at hn
  case tagClose =>
    have hb := hentry 0x3E rfl
    simp only [LexState.read, readTagClose]
    rw [consumeIf_append_left 0x3E (lt_of_byteAt?_eq_some hb)]
  case atEnd => simp [LexState.read] at hn
  case illegal => rfl

/-- A rule that stops inside `a`, or at its end in a state decided before it, reads as on `a`
alone. -/
theorem LexState.read_append_left (q : LexState) {prev : LexState} {pos : Nat}
    (hentry : ∀ x, q.entryByte prev = some x → byteAt? a pos = some x)
    (hpos : pos ≤ a.utf8ByteSize)
    (h : (q.read a pos).stop < a.utf8ByteSize ∨ (q.read a pos).next ∉
      [.atEnd, .tagName, .attributeValueUnquoted, .beforeAttributeName]) :
    q.read (a ++ b) pos = q.read a pos := by
  by_cases hlt : (q.read a pos).stop < a.utf8ByteSize
  · exact q.read_append_of_stop_lt hlt
  · have heq := Nat.le_antisymm (q.read_bounds hpos).2 (Nat.le_of_not_lt hlt)
    exact q.read_append_of_stop_eq hentry heq (h.resolve_left hlt)

/-- A live rule that runs to the end of `a` runs on into `b` as if it had started there. -/
theorem LexState.read_append_of_live (q : LexState) (hq : q.isLive = true) {pos : Nat}
    (hpos : pos ≤ a.utf8ByteSize) (hn : (q.read a pos).next = .atEnd) :
    q.read (a ++ b) pos = (q.read b 0).shift a.utf8ByteSize := by
  have hstop := q.read_stop_of_next_eq_atEnd hpos hn
  rw [← q.read_append_right 0]
  cases q
  case content | attributeValueDoubleQuoted | attributeValueSingleQuoted =>
    simp only [LexState.read, readContent, readQuotedValue] at hn ⊢
    split at hn
    · cases hn
    · rename_i heq
      rw [findByte_append_of_none hpos heq, findByte_append_right]
  case tagName | beforeAttributeName | attributeName | attributeValueUnquoted =>
    simp only [LexState.read, readTagName, readBeforeAttributeName, readAttributeName,
      readUnquotedValue] at hstop ⊢
    rw [firstFrom_append_of_eq hpos hstop, firstFrom_append_right]
  all_goals simp [LexState.isLive] at hq

end Rules

end HtmlTemplates.Markup
