import HtmlTemplates.Text.Quoted
/-!
Pieces of a text cut at byte offsets.

A text is stored as UTF-8, so a byte offset names a place between two characters only when
it is a *char boundary*: the start, the end, or an offset whose byte begins a character.
`slice` cuts the piece between two offsets and refuses offsets past the end, offsets in the
wrong order, and offsets inside a character. The refusal names its cause. The message of an
offset inside a character names the character and its bytes; the other messages show the
text, cut after at most 256 bytes.
-/
namespace HtmlTemplates.Text

/-- Why a byte range is no piece of a text. -/
inductive SliceError where
  /-- An offset lies past the end of the text. -/
  | outOfBounds (index : Nat) (source : String)
  /-- The range starts after it ends. -/
  | reversed (start stop : Nat) (source : String)
  /-- An offset falls inside the character `c`, which starts at byte `charStart`; `atEnd` tells
  whether it is the range's end rather than its start. -/
  | insideChar (atEnd : Bool) (index : Nat) (c : Char) (charStart : Nat)
  deriving Repr, DecidableEq

/-- The byte at offset `i` of the UTF-8 form of `s`, if the text is that long. -/
def byteAt? (s : String) (i : Nat) : Option UInt8 :=
  if h : i < s.utf8ByteSize then some (s.getUTF8Byte ⟨i⟩ h) else none

theorem byteAt?_eq (s : String) (i : Nat) : byteAt? s i = s.toByteArray[i]? := by
  unfold byteAt?
  split <;> simp_all [String.getUTF8Byte_eq_getElem, String.size_toByteArray]

/-- Whether byte offset `i` of `s` lies between two characters: it is the end of the text, or
its byte can begin the UTF-8 form of a character. -/
def isCharBoundary (s : String) (i : Nat) : Bool :=
  match byteAt? s i with
  | some b => decide b.IsUTF8FirstByte
  | none => i == s.utf8ByteSize

theorem isCharBoundary_iff_isValid {s : String} {i : Nat} :
    isCharBoundary s i = true ↔ (⟨i⟩ : String.Pos.Raw).IsValid s := by
  rw [String.Pos.Raw.isValid_iff_isUTF8FirstByte]
  unfold isCharBoundary byteAt?
  split
  · rename_i b hb
    split at hb
    · rename_i h
      cases hb
      simp only [decide_eq_true_eq]
      constructor
      · intro hf
        exact Or.inr ⟨h, hf⟩
      · rintro (he | ⟨_, hf⟩)
        · simp [String.Pos.Raw.ext_iff] at he
          omega
        · exact hf
    · cases hb
  · rename_i hb
    split at hb
    · cases hb
    · rename_i h
      simp [String.Pos.Raw.ext_iff, String.Pos.Raw.lt_iff]
      omega

/-- The character whose bytes hold offset `i`, with the offset of its first byte, given that
the characters in `cs` start at offset `offset`. -/
def charAt (i offset : Nat) : List Char → Option (Nat × Char)
  | [] => none
  | c :: cs =>
    if i < offset + c.utf8Size then some (offset, c) else charAt i (offset + c.utf8Size) cs

/-- The longest run of leading characters that fits in `budget` bytes. -/
def prefixWithin (budget : Nat) : List Char → List Char
  | [] => []
  | c :: cs => if c.utf8Size ≤ budget then c :: prefixWithin (budget - c.utf8Size) cs else []

/-- The text as a message shows it: its first 256 bytes, cut between characters, and `[...]`
after them when that is not all of it. -/
def shownSource (s : String) : String :=
  let shown := prefixWithin 256 s.toList
  "`" ++ String.ofList shown ++ "`" ++ (if shown.length < s.length then "[...]" else "")

/-- The text of a refusal. -/
def SliceError.message : SliceError → String
  | .outOfBounds i s => "byte index " ++ toString i ++ " is out of bounds of " ++ shownSource s
  | .reversed a b s =>
    "begin <= end (" ++ toString a ++ " <= " ++ toString b ++ ") when slicing " ++ shownSource s
  | .insideChar atEnd i c start =>
    (if atEnd then "end" else "start") ++ " byte index " ++ toString i ++
      " is not a char boundary; it is inside " ++ quoteChar c ++ " (bytes " ++ toString start ++
      ".." ++ toString (start + c.utf8Size) ++ " of string)"

/-- The refusal for offset `i`, which is not a char boundary of `s`; `atEnd` tells whether it
ends the range. -/
def insideCharAt (s : String) (atEnd : Bool) (i : Nat) : SliceError :=
  match charAt i 0 s.toList with
  | some (start, c) => .insideChar atEnd i c start
  | none => .outOfBounds i s

/-- The piece of `s` from byte `start` to byte `stop`. -/
def slice (s : String) (start stop : Nat) : Except SliceError String :=
  if start > s.utf8ByteSize then .error (.outOfBounds start s)
  else if stop > s.utf8ByteSize then .error (.outOfBounds stop s)
  else if start > stop then .error (.reversed start stop s)
  else if h₁ : isCharBoundary s start then
    if h₂ : isCharBoundary s stop then
      .ok (s.extract ⟨⟨start⟩, isCharBoundary_iff_isValid.1 h₁⟩
        ⟨⟨stop⟩, isCharBoundary_iff_isValid.1 h₂⟩)
    else .error (insideCharAt s true stop)
  else .error (insideCharAt s false start)

example : (slice "aéb" 1 3).toOption = some "é" := by decide
example : (slice "aéb" 0 2).toOption = none := by decide

end HtmlTemplates.Text
