import HtmlTemplates.Text.Slice
/-!
Pieces of a text between char boundaries.

Offsets whose byte is ASCII, and the offsets just after such a byte, lie between two
characters; offset `1` of a text that starts with a byte from `0x80` on does not. A piece of a
text is its bytes between the two offsets, so pieces that meet join to the piece that spans
them, and the piece of one ASCII byte is the character it encodes.
-/
namespace HtmlTemplates.Text

theorem isUTF8FirstByte_of_lt {b : UInt8} (hb : b < 0x80) : b.IsUTF8FirstByte := by
  left
  have key : ∀ n < 128, n &&& 128 = 0 := by decide
  apply UInt8.toNat_inj.1
  simpa [UInt8.toNat_and] using key b.toNat (by simpa [UInt8.lt_iff_toNat_lt] using hb)

theorem lt_of_byteAt?_eq_some {s : String} {i : Nat} {b : UInt8} (h : byteAt? s i = some b) :
    i < s.utf8ByteSize := by
  unfold byteAt? at h
  split at h
  · assumption
  · cases h

theorem byteAt?_eq_none_iff {s : String} {i : Nat} : byteAt? s i = none ↔ s.utf8ByteSize ≤ i := by
  unfold byteAt?
  split <;> simp <;> omega

theorem getElem_toByteArray_of_byteAt? {s : String} {i : Nat} {b : UInt8}
    (h : byteAt? s i = some b) (hi : i < s.toByteArray.size) : s.toByteArray[i] = b := by
  rw [byteAt?_eq, getElem?_pos s.toByteArray i hi] at h
  exact Option.some.inj h

/-- The character of an ASCII byte. -/
def asciiChar (b : UInt8) : Char :=
  ⟨b.toUInt32, Or.inl (by have h := b.toNat_lt_size; simp [UInt8.size] at h ⊢; omega)⟩

theorem utf8Size_asciiChar {b : UInt8} (hb : b < 0x80) : (asciiChar b).utf8Size = 1 := by
  have hn : b.toNat < 128 := by simpa [UInt8.lt_iff_toNat_lt] using hb
  rw [Char.utf8Size_eq_one_iff]
  simp [asciiChar, UInt32.le_iff_toNat_le]
  omega

theorem toUInt8_asciiChar (b : UInt8) : (asciiChar b).toUInt8 = b := by
  simp [asciiChar, ← Char.toUInt8_val]

theorem toByteArray_singleton_asciiChar {b : UInt8} (hb : b < 0x80) :
    (String.singleton (asciiChar b)).toByteArray = [b].toByteArray := by
  rw [String.toByteArray_singleton, List.utf8Encode_singleton,
    String.utf8EncodeChar_eq_singleton (utf8Size_asciiChar hb), Char.toUInt8_val, toUInt8_asciiChar]

theorem isValidUTF8_singleton_of_lt {b : UInt8} (hb : b < 0x80) :
    ByteArray.IsValidUTF8 [b].toByteArray := by
  rw [← toByteArray_singleton_asciiChar hb]
  exact (String.singleton (asciiChar b)).isValidUTF8

theorem lt_of_isValidUTF8_singleton {b : UInt8} (h : ByteArray.IsValidUTF8 [b].toByteArray) :
    b < 0x80 := by
  rcases h with ⟨m, hm⟩
  cases m with
  | nil => simp at hm
  | cons c m =>
    rw [List.utf8Encode_cons, List.utf8Encode_singleton] at hm
    have hsize := congrArg ByteArray.size hm
    simp at hsize
    have hc : c.utf8Size = 1 := by have := c.utf8Size_pos; omega
    rw [String.utf8EncodeChar_eq_singleton hc] at hm
    have hm0 : m.utf8Encode.size = 0 := by omega
    rw [ByteArray.size_eq_zero_iff.1 hm0, ByteArray.append_empty] at hm
    have hbc : b = c.toUInt8 := by simpa using congrArg ByteArray.data hm
    have hval : c.val.toNat ≤ 127 := by
      simpa [UInt32.le_iff_toNat_le] using Char.utf8Size_eq_one_iff.1 hc
    have hcn : c.toNat = c.val.toNat := rfl
    subst hbc
    simp [UInt8.lt_iff_toNat_lt, ← Char.toUInt8_val]
    omega

theorem isCharBoundary_of_byteAt?_lt {s : String} {i : Nat} {b : UInt8}
    (h : byteAt? s i = some b) (hb : b < 0x80) : isCharBoundary s i = true := by
  simp only [isCharBoundary, h, decide_eq_true_eq]
  exact isUTF8FirstByte_of_lt hb

theorem isCharBoundary_size (s : String) : isCharBoundary s s.utf8ByteSize = true := by
  simp [isCharBoundary, byteAt?_eq_none_iff.2 (Nat.le_refl _)]

theorem isCharBoundary_zero (s : String) : isCharBoundary s 0 = true := by
  rw [isCharBoundary_iff_isValid]
  exact String.Pos.Raw.isValid_zero

/-- The offset after an ASCII byte lies between two characters. -/
theorem isCharBoundary_succ {s : String} {i : Nat} {b : UInt8}
    (h : byteAt? s i = some b) (hb : b < 0x80) : isCharBoundary s (i + 1) = true := by
  have hlt := lt_of_byteAt?_eq_some h
  have hsize : i < s.toByteArray.size := by simpa using hlt
  have hvalid := isCharBoundary_iff_isValid.1 (isCharBoundary_of_byteAt?_lt h hb)
  rw [isCharBoundary_iff_isValid, String.Pos.Raw.isValid_iff_isValidUTF8_extract_zero]
  refine ⟨by simp [String.Pos.Raw.le_iff]; omega, ?_⟩
  rw [ByteArray.extract_eq_extract_append_extract i (Nat.zero_le _) (Nat.le_succ _),
    ByteArray.extract_add_one (by omega), getElem_toByteArray_of_byteAt? h hsize]
  exact hvalid.isValidUTF8_extract_zero.append (isValidUTF8_singleton_of_lt hb)

/-- A text that starts with a byte from `0x80` on starts with a character of several bytes, so
its offset `1` lies inside that character. -/
theorem isCharBoundary_one_eq_false {s : String} {b : UInt8}
    (h : byteAt? s 0 = some b) (hb : 0x80 ≤ b) : isCharBoundary s 1 = false := by
  have hlt := lt_of_byteAt?_eq_some h
  have hsize : 0 < s.toByteArray.size := by simpa using hlt
  apply Bool.eq_false_iff.2
  intro hbd
  have hvalid := (String.Pos.Raw.isValid_iff_isValidUTF8_extract_zero.1
    (isCharBoundary_iff_isValid.1 hbd)).2
  rw [ByteArray.extract_add_one (by simp at hsize ⊢; omega), getElem_toByteArray_of_byteAt? h hsize]
    at hvalid
  exact absurd (lt_of_isValidUTF8_singleton hvalid) (by simpa using hb)
theorem slice_eq_ok_iff {s : String} {a b : Nat} {t : String} :
    slice s a b = .ok t ↔ a ≤ b ∧ b ≤ s.utf8ByteSize ∧ isCharBoundary s a = true ∧
      isCharBoundary s b = true ∧ t.toByteArray = s.toByteArray.extract a b := by
  unfold slice
  split
  · simp only [reduceCtorEq, false_iff]
    omega
  split
  · simp only [reduceCtorEq, false_iff]
    omega
  split
  · simp only [reduceCtorEq, false_iff]
    omega
  split
  · rename_i ha
    split
    · rename_i hb
      simp only [Except.ok.injEq, ha, hb, true_and]
      constructor
      · rintro rfl
        exact ⟨by omega, by omega, by simp⟩
      · rintro ⟨-, -, ht⟩
        apply String.toByteArray_inj.1
        simp [ht]
    · rename_i hb
      simp [hb]
  · rename_i ha
    simp [ha]

theorem utf8ByteSize_of_slice {s : String} {a b : Nat} {t : String} (h : slice s a b = .ok t) :
    t.utf8ByteSize = b - a := by
  obtain ⟨hab, hb, -, -, ht⟩ := slice_eq_ok_iff.1 h
  rw [← String.size_toByteArray, ht, ByteArray.size_extract]
  simp
  omega

theorem slice_append {s : String} {a b c : Nat} {t u : String}
    (h₁ : slice s a b = .ok t) (h₂ : slice s b c = .ok u) : slice s a c = .ok (t ++ u) := by
  obtain ⟨hab, hb, ha, -, ht⟩ := slice_eq_ok_iff.1 h₁
  obtain ⟨hbc, hc, -, hcb, hu⟩ := slice_eq_ok_iff.1 h₂
  refine slice_eq_ok_iff.2 ⟨by omega, hc, ha, hcb, ?_⟩
  rw [String.toByteArray_append, ht, hu, ← ByteArray.extract_eq_extract_append_extract b hab hbc]

theorem slice_self {s : String} {a : Nat} (ha : isCharBoundary s a = true)
    (hs : a ≤ s.utf8ByteSize) : slice s a a = .ok "" :=
  slice_eq_ok_iff.2 ⟨Nat.le_refl _, hs, ha, ha, by simp⟩

/-- A range between two characters, in order and within the text, has a slice. -/
theorem slice_isOk {s : String} {a b : Nat} (hab : a ≤ b) (hb : b ≤ s.utf8ByteSize)
    (ha' : isCharBoundary s a = true) (hb' : isCharBoundary s b = true) :
    ∃ t, slice s a b = .ok t := by
  unfold slice
  rw [if_neg (by omega), if_neg (by omega), if_neg (by omega), dif_pos ha', dif_pos hb']
  exact ⟨_, rfl⟩

/-- The piece of one ASCII byte is the one character it encodes. -/
theorem slice_succ {s : String} {i : Nat} {b : UInt8} (h : byteAt? s i = some b)
    (hb : b < 0x80) : slice s i (i + 1) = .ok (String.singleton (asciiChar b)) := by
  have hlt := lt_of_byteAt?_eq_some h
  refine slice_eq_ok_iff.2 ⟨Nat.le_succ _, hlt, isCharBoundary_of_byteAt?_lt h hb,
    isCharBoundary_succ h hb, ?_⟩
  rw [ByteArray.extract_add_one (by simp; omega),
    getElem_toByteArray_of_byteAt? h (by simpa using hlt), toByteArray_singleton_asciiChar hb]

theorem slice_zero_size (s : String) : slice s 0 s.utf8ByteSize = .ok s :=
  slice_eq_ok_iff.2 ⟨Nat.zero_le _, Nat.le_refl _, isCharBoundary_zero s, isCharBoundary_size s,
    by simp [← String.size_toByteArray]⟩

theorem asciiChar_injective {b c : UInt8} (h : asciiChar b = asciiChar c) : b = c := by
  rw [← toUInt8_asciiChar b, h, toUInt8_asciiChar]

theorem eq_empty_of_slice_self {s : String} {a : Nat} {t : String} (h : slice s a a = .ok t) :
    t = "" := by
  obtain ⟨-, ha, hb, -, -⟩ := slice_eq_ok_iff.1 h
  have := slice_self hb ha
  rw [this] at h
  injection h with h
  exact h.symm

/-- A slice that ends after an ASCII byte ends with the character of that byte. -/
theorem getLast?_toList_of_slice {s : String} {a i : Nat} {t : String} {b : UInt8}
    (h : slice s a (i + 1) = .ok t) (hb : byteAt? s i = some b) (hlt : b < 0x80) (hai : a ≤ i) :
    t.toList.getLast? = some (asciiChar b) := by
  obtain ⟨-, hsize, ha, -, -⟩ := slice_eq_ok_iff.1 h
  obtain ⟨u, hu⟩ := slice_isOk hai (by omega) ha (isCharBoundary_of_byteAt?_lt hb hlt)
  rw [slice_append hu (slice_succ hb hlt)] at h
  injection h with h
  rw [← h, String.toList_append, String.toList_singleton, List.getLast?_concat]

end HtmlTemplates.Text
