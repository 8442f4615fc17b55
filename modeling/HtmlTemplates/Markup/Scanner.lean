import HtmlTemplates.Markup.LexState
import HtmlTemplates.Text.Quoted
import HtmlTemplates.Text.Slice
/-!
The markup scanner: one literal, read byte by byte.

A scanner holds a source, a byte offset into it and a state. `Scanner.step` reads one token:
the state's rule decides how far the token reaches and which state reads on after it. The
rules look only at ASCII bytes (`<`, `/`, `>`, `=`, quotes and blanks), so a scanner reads
UTF-8 text without decoding it. Once the input is exhausted the scanner is in `atEnd`, and
every further step gives the same empty token at the end of the source.

Each step also reports the *probes* it made of the input, in order: the bytes it peeked at,
consumed or looked ahead to, and the runs it skipped. They are what a trace of the scanner
shows; the tokens do not depend on them.
-/
namespace HtmlTemplates.Markup

open HtmlTemplates.Text

/-- The blanks of markup: space, line feed, carriage return, tab and form feed. -/
def isBlank (b : UInt8) : Bool :=
  b == 0x20 || b == 0x0A || b == 0x0D || b == 0x09 || b == 0x0C

/-- An ASCII letter. -/
def isLetter (b : UInt8) : Bool :=
  (0x41 ≤ b && b ≤ 0x5A) || (0x61 ≤ b && b ≤ 0x7A)

/-- One look of the scanner at its input. -/
inductive Probe where
  /-- The byte at the cursor, left in place. -/
  | peek (b : Option UInt8)
  /-- The byte at the cursor, taken. -/
  | consume (b : Option UInt8)
  /-- A run of bytes of one class, taken. -/
  | consumeWhile
  /-- A counted number of bytes, taken. -/
  | consumeSeveral
  /-- The rest of the input, taken. -/
  | consumeToEnd
  /-- A byte ahead of the cursor, left in place. -/
  | lookahead (b : Option UInt8)
  deriving DecidableEq, Repr

/-- A byte as a probe shows it: read as a Latin-1 character and quoted, or `None` past the
end of the input. -/
def showByte : Option UInt8 → String
  | some b => "Some(" ++ quoteChar (Char.ofNat b.toNat) ++ ")"
  | none => "None"

/-- The trace line of a probe. -/
def Probe.text : Probe → String
  | .peek b => ">peek: " ++ showByte b
  | .consume b => ">consume: " ++ showByte b
  | .consumeWhile => ">consume while"
  | .consumeSeveral => ">consume several"
  | .consumeToEnd => ">consume to end"
  | .lookahead b => ">lookahead: " ++ showByte b

/-- The first offset from `pos` on whose byte `p` holds, or the end of the input. -/
def firstFrom (p : UInt8 → Bool) (input : String) (pos : Nat) : Nat :=
  if h : pos < input.utf8ByteSize then
    if p (input.getUTF8Byte ⟨pos⟩ h) then pos else firstFrom p input (pos + 1)
  else pos
termination_by input.utf8ByteSize - pos

/-- The offset of the first byte `b` from `pos` on. -/
def findByte (b : UInt8) (input : String) (pos : Nat) : Option Nat :=
  let i := firstFrom (· == b) input pos
  if i < input.utf8ByteSize then some i else none

/-- What one state's rule makes of the input at the cursor: where the token stops, the
state it is tagged with, the state that reads on, and the probes made. -/
structure Move where
  stop : Nat
  label : LexState
  next : LexState
  probes : List Probe

/-- Takes byte `b` if it is the one at `pos`. -/
def consumeIf (b : UInt8) (input : String) (pos : Nat) : Nat × List Probe :=
  if byteAt? input pos == some b then (pos + 1, [.consume (some b)]) else (pos, [])

/-- Text runs up to the next `<`, which opens a tag, or to the end of the input. -/
def readContent (input : String) (pos : Nat) : Move :=
  match findByte 0x3C input pos with
  | some i => ⟨i, .content, .tagOpen, [.consumeSeveral]⟩
  | none => ⟨input.utf8ByteSize, .content, .atEnd, [.consumeToEnd]⟩

/-- `<` or `</` opens a tag when a letter or the end of the input follows. -/
def readTagOpen (input : String) (pos : Nat) : Move :=
  let (p₁, r₁) := consumeIf 0x3C input pos
  let (p₂, r₂) := consumeIf 0x2F input p₁
  let b := byteAt? input p₂
  let next := match b with
    | some c => if isLetter c then .tagName else .illegal
    | none => .tagName
  ⟨p₂, .tagOpen, next, r₁ ++ r₂ ++ [.peek b]⟩

/-- The state that follows a name or a blank run, by the byte after it: `/`, `>`, another
byte, or the end of the input. -/
def afterRun (b : Option UInt8) (other : LexState) : LexState :=
  match b with
  | some 0x2F => .selfClosingStartTag
  | some 0x3E => .tagClose
  | some _ => other
  | none => .atEnd

/-- A tag name runs up to a blank, `/` or `>`. -/
def readTagName (input : String) (pos : Nat) : Move :=
  let p := firstFrom (fun c => isBlank c || c == 0x2F || c == 0x3E) input pos
  let b := byteAt? input p
  ⟨p, .tagName, afterRun b .beforeAttributeName, [.consumeWhile, .peek b]⟩

/-- Blanks before an attribute name. -/
def readBeforeAttributeName (input : String) (pos : Nat) : Move :=
  let p := firstFrom (fun c => !isBlank c) input pos
  let b := byteAt? input p
  ⟨p, .beforeAttributeName, afterRun b .attributeName, [.consumeWhile, .peek b]⟩

/-- An attribute name runs up to a blank, `=`, `/` or `>`. -/
def readAttributeName (input : String) (pos : Nat) : Move :=
  let p := firstFrom (fun c => isBlank c || c == 0x3D || c == 0x2F || c == 0x3E) input pos
  let b := byteAt? input p
  ⟨p, .attributeName, afterRun b .afterAttributeName, [.consumeWhile, .peek b]⟩

/-- The number of blank bytes from `pos` on. -/
def blankRun (input : String) (pos : Nat) : Nat :=
  firstFrom (fun c => !isBlank c) input pos - pos

/-- After a name, blanks and `=` lead to a value. Without `=` the attribute has no value,
and the blanks are read again as the start of the next attribute. -/
def readAfterAttributeName (input : String) (pos : Nat) : Move :=
  let k := blankRun input pos
  let looks := (List.range (k + 1)).map fun j => Probe.lookahead (byteAt? input (pos + j))
  let b := byteAt? input (pos + k)
  if b == some 0x3D then
    ⟨pos + k + 1, .afterAttributeName, .beforeAttributeValue,
      looks ++ [.lookahead b, .consumeSeveral]⟩
  else
    let m := readBeforeAttributeName input pos
    { m with probes := looks ++ [.lookahead b] ++ m.probes }

/-- Blanks before a value, and its opening quote if it has one. -/
def readBeforeAttributeValue (input : String) (pos : Nat) : Move :=
  let p := firstFrom (fun c => !isBlank c) input pos
  let b := byteAt? input p
  let r := [Probe.consumeWhile, .peek b]
  match b with
  | some 0x22 => ⟨p + 1, .beforeAttributeValue, .attributeValueDoubleQuoted, r ++ [.consume b]⟩
  | some 0x27 => ⟨p + 1, .beforeAttributeValue, .attributeValueSingleQuoted, r ++ [.consume b]⟩
  | some 0x3E => ⟨p, .beforeAttributeValue, .tagClose, r⟩
  | _ => ⟨p, .beforeAttributeValue, .attributeValueUnquoted, r⟩

/-- A quoted value runs up to its closing quote `q`, or to the end of the input. -/
def readQuotedValue (q : UInt8) (label : LexState) (input : String) (pos : Nat) : Move :=
  match findByte q input pos with
  | some i => ⟨i, label, .afterAttributeValueQuoted, [.consumeSeveral]⟩
  | none => ⟨input.utf8ByteSize, label, .atEnd, [.consumeToEnd]⟩

/-- The closing quote of a value: one byte, whatever it is. -/
def readAfterAttributeValueQuoted (input : String) (pos : Nat) : Move :=
  let c := byteAt? input pos
  let p := if c.isSome then pos + 1 else pos
  let b := byteAt? input p
  let next := match b with
    | some 0x2F => .selfClosingStartTag
    | some 0x3E => .tagClose
    | _ => .beforeAttributeName
  ⟨p, .afterAttributeValueQuoted, next, [.consume c, .peek b]⟩

/-- An unquoted value runs up to a blank or `>`. -/
def readUnquotedValue (input : String) (pos : Nat) : Move :=
  let p := firstFrom (fun c => isBlank c || c == 0x3E) input pos
  let b := byteAt? input p
  let next := match b with
    | some 0x3E => .tagClose
    | some _ => .beforeAttributeName
    | none => .atEnd
  ⟨p, .attributeValueUnquoted, next, [.consumeWhile, .peek b]⟩

/-- The `/` of a self-closing tag; it closes the tag only when `>` follows. -/
def readSelfClosingStartTag (input : String) (pos : Nat) : Move :=
  let (p, r) := consumeIf 0x2F input pos
  let b := byteAt? input p
  let next := if b == some 0x3E then .tagClose else .beforeAttributeName
  ⟨p, .selfClosingStartTag, next, r ++ [.peek b]⟩

/-- The `>` that ends a tag; text follows it. -/
def readTagClose (input : String) (pos : Nat) : Move :=
  let (p, r) := consumeIf 0x3E input pos
  ⟨p, .tagClose, .content, r⟩

/-- The rule of state `q` at offset `pos`. `atEnd` reads nothing and stays. -/
def LexState.read (q : LexState) (input : String) (pos : Nat) : Move :=
  match q with
  | .content => readContent input pos
  | .tagOpen => readTagOpen input pos
  | .tagName => readTagName input pos
  | .beforeAttributeName => readBeforeAttributeName input pos
  | .attributeName => readAttributeName input pos
  | .afterAttributeName => readAfterAttributeName input pos
  | .beforeAttributeValue => readBeforeAttributeValue input pos
  | .attributeValueDoubleQuoted => readQuotedValue 0x22 .attributeValueDoubleQuoted input pos
  | .attributeValueSingleQuoted => readQuotedValue 0x27 .attributeValueSingleQuoted input pos
  | .attributeValueUnquoted => readUnquotedValue input pos
  | .afterAttributeValueQuoted => readAfterAttributeValueQuoted input pos
  | .selfClosingStartTag => readSelfClosingStartTag input pos
  | .tagClose => readTagClose input pos
  | .atEnd => ⟨input.utf8ByteSize, .atEnd, .atEnd, []⟩
  | .illegal => ⟨pos, .illegal, .content, []⟩

/-- A span of the source, tagged with the state that read it. -/
structure Token where
  state : LexState
  start : Nat
  stop : Nat
  deriving DecidableEq, Repr

/-- A scanner over one source. -/
structure Scanner where
  source : String
  /-- The byte offset of the cursor. -/
  pos : Nat := 0
  state : LexState := .content
  deriving Repr

/-- One step of a scanner: the token, the scanner after it, and the probes made. -/
structure Step where
  token : Token
  after : Scanner
  probes : List Probe

namespace Scanner

/-- A scanner at the start of `source` in state `q`. -/
def start (source : String) (q : LexState) : Scanner := ⟨source, 0, q⟩

/-- Reads one token. In `atEnd` the token is the empty one at the end of the source and the
scanner stays as it is. -/
def step (s : Scanner) : Step :=
  match s.state with
  | .atEnd =>
    ⟨⟨.atEnd, s.source.utf8ByteSize, s.source.utf8ByteSize⟩, s, []⟩
  | q =>
    let m := q.read s.source s.pos
    ⟨⟨m.label, s.pos, m.stop⟩, { s with pos := m.stop, state := m.next }, m.probes⟩

/-- The next token and the scanner after it. -/
def next (s : Scanner) : Token × Scanner :=
  let r := s.step
  (r.token, r.after)

/-- A bound on the number of steps before a scanner reaches the end of its source: no
more than four tokens in a row are empty, and every other token takes a byte. -/
def stepBound (s : Scanner) : Nat := 6 * (s.source.utf8ByteSize + 1)

/-- The steps of a scanner up to and including the first that gives the end token, within
`fuel` steps. -/
def stepsWithin : Nat → Scanner → List Step
  | 0, _ => []
  | fuel + 1, s =>
    let r := s.step
    if r.token.state == .atEnd then [r] else r :: stepsWithin fuel r.after

/-- The steps of a scanner up to and including the first that gives the end token. -/
def steps (s : Scanner) : List Step := stepsWithin s.stepBound s

/-- The tokens of a scanner before the end token. -/
def tokens (s : Scanner) : List Token :=
  (s.steps.map (·.token)).filter (·.state != .atEnd)

end Scanner

end HtmlTemplates.Markup
