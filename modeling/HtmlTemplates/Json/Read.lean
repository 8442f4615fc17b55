import HtmlTemplates.Json.Basic
import HtmlTemplates.Number.Read
/-!
Reading JSON text.

`Json.parse` reads one value surrounded by optional blanks, and stops at the first fault. A
fault is reported with its place as `line L column C`, where the column counts the bytes of
the line before the place. The reader looks at one character at a time; a fault that it
finds by looking at the next character without taking it is placed just after that
character.

Arrays and objects nest at most 127 deep. An integer literal keeps its kind: a non-negative
one within 64 bits is `posInt`, a negative one within 64 bits is `negInt`, and `-0` and the
other negative ones within 64 bits become the nearest double. Any other literal is read as a
fast reader reads it: its leading digits, while they fit in a 64-bit word, are rounded to a
double, which is then scaled by the double nearest the power of ten that the literal's
exponent and remaining digits call for. The result can miss the nearest double by a unit in
the last place (`9e-32` reads as `8.999999999999999e-32`). A literal too large for a double
is refused. Strings take the escapes of JSON, and a `\u` escape of a surrogate must pair
with a second one.
-/
namespace HtmlTemplates

open HtmlTemplates.Number

/-- Why a text is no JSON value. -/
inductive JsonFault where
  | eofWhileParsingValue
  | eofWhileParsingList
  | eofWhileParsingObject
  | eofWhileParsingString
  | expectedColon
  | expectedListCommaOrEnd
  | expectedObjectCommaOrEnd
  | expectedIdent
  | expectedValue
  | invalidEscape
  | invalidNumber
  | numberOutOfRange
  | controlCharacter
  | keyMustBeAString
  | loneLeadingSurrogate
  | trailingComma
  | trailingCharacters
  | unexpectedEndOfHexEscape
  | recursionLimitExceeded
  deriving DecidableEq, Repr

/-- The text of a fault. -/
def JsonFault.text : JsonFault → String
  | .eofWhileParsingValue => "EOF while parsing a value"
  | .eofWhileParsingList => "EOF while parsing a list"
  | .eofWhileParsingObject => "EOF while parsing an object"
  | .eofWhileParsingString => "EOF while parsing a string"
  | .expectedColon => "expected `:`"
  | .expectedListCommaOrEnd => "expected `,` or `]`"
  | .expectedObjectCommaOrEnd => "expected `,` or `\x7d`"
  | .expectedIdent => "expected ident"
  | .expectedValue => "expected value"
  | .invalidEscape => "invalid escape"
  | .invalidNumber => "invalid number"
  | .numberOutOfRange => "number out of range"
  | .controlCharacter => "control character (\\u0000-\\u001F) found while parsing a string"
  | .keyMustBeAString => "key must be a string"
  | .loneLeadingSurrogate => "lone leading surrogate in hex escape"
  | .trailingComma => "trailing comma"
  | .trailingCharacters => "trailing characters"
  | .unexpectedEndOfHexEscape => "unexpected end of hex escape"
  | .recursionLimitExceeded => "recursion limit exceeded"

/-- A fault and its place: `extra` bytes into the text `rest` that was still to be read. -/
structure JsonError where
  fault : JsonFault
  rest : List Char
  extra : Nat := 0
  deriving Repr

/-- The line and column of byte offset `index` of `s`: lines are counted from one, and the
column is the number of bytes after the last line feed before the offset. -/
def lineColumn (s : String) (index : Nat) : Nat × Nat :=
  let bytes := (s.toUTF8.toList.take index)
  let step := fun ((line, column) : Nat × Nat) (b : UInt8) =>
    if b == 0x0A then (line + 1, 0) else (line, column + 1)
  bytes.foldl step (1, 0)

/-- The number of bytes of the UTF-8 form of characters. -/
def utf8Length (cs : List Char) : Nat := (cs.map Char.utf8Size).foldr (· + ·) 0

/-- The text of an error in reading `s`, with its place. -/
def JsonError.message (e : JsonError) (s : String) : String :=
  let size := s.utf8ByteSize
  let index := Nat.min size (size - utf8Length e.rest + e.extra)
  let (line, column) := lineColumn s index
  e.fault.text ++ " at line " ++ toString line ++ " column " ++ toString column

namespace JsonReader

/-- A fault found before `rest`. -/
def fail {α : Type} (f : JsonFault) (rest : List Char) : Except JsonError α :=
  .error ⟨f, rest, 0⟩

/-- A fault found by looking at the first byte of `rest`, or taking it. -/
def failAt {α : Type} (f : JsonFault) (rest : List Char) : Except JsonError α :=
  .error ⟨f, rest, 1⟩

/-- Drops leading JSON blanks. -/
def skipBlanks : List Char → List Char
  | c :: rest =>
    if c = ' ' ∨ c = '\n' ∨ c = '\r' ∨ c = '\t' then skipBlanks rest else c :: rest
  | [] => []

/-- The value of a hexadecimal digit. -/
def hexValue (c : Char) : Option Nat :=
  if '0' ≤ c ∧ c ≤ '9' then some (c.toNat - '0'.toNat)
  else if 'a' ≤ c ∧ c ≤ 'f' then some (c.toNat - 'a'.toNat + 10)
  else if 'A' ≤ c ∧ c ≤ 'F' then some (c.toNat - 'A'.toNat + 10)
  else none

/-- The value of four hexadecimal digits. -/
def hex4 (a b c d : Char) : Option Nat := do
  let high := (← hexValue a) * 16 + (← hexValue b)
  pure ((high * 16 + (← hexValue c)) * 16 + (← hexValue d))

/-- Whether the text holds at least `n` bytes. -/
def hasBytes : Nat → List Char → Bool
  | 0, _ => true
  | _ + 1, [] => false
  | n + 1, c :: cs => c.utf8Size ≥ n + 1 || hasBytes (n + 1 - c.utf8Size) cs

/-- The four bytes after `\u` read as hexadecimal digits. -/
def hexEscape (cs : List Char) :
    Except JsonError (Nat × List Char) :=
  if !hasBytes 4 cs then fail .eofWhileParsingString []
  else match cs with
    | a :: b :: c :: d :: rest =>
      match hex4 a b c d with
      | some n => .ok (n, rest)
      | none => .error ⟨.invalidEscape, cs, 4⟩
    | _ => .error ⟨.invalidEscape, cs, 4⟩

/-- The character of a `\u` escape whose four digits gave `n`, after which `cs` follows. A
leading surrogate must be followed by `\u` and a trailing one. -/
def unicodeEscape (n : Nat) (cs : List Char) :
    Except JsonError (Char × List Char) :=
  if 0xDC00 ≤ n ∧ n ≤ 0xDFFF then fail .loneLeadingSurrogate cs
  else if n < 0xD800 ∨ 0xDBFF < n then .ok (Char.ofNat n, cs)
  else
    match cs with
    | [] => fail .eofWhileParsingString []
    | '\\' :: rest =>
      match rest with
      | [] => fail .eofWhileParsingString []
      | 'u' :: rest' => do
        let (m, after) ← hexEscape rest'
        if 0xDC00 ≤ m ∧ m ≤ 0xDFFF then
          .ok (Char.ofNat (0x10000 + (n - 0xD800) * 0x400 + (m - 0xDC00)), after)
        else fail .loneLeadingSurrogate after
      | other => failAt .unexpectedEndOfHexEscape other
    | other => failAt .unexpectedEndOfHexEscape other

/-- The rest of a string literal after its opening quote, with the characters read so far
in `acc`, last first, within `fuel` steps. -/
def readString : Nat → List Char → List Char →
    Except JsonError (String × List Char)
  | 0, _, cs => fail .eofWhileParsingString cs
  | fuel + 1, acc, cs =>
    match cs with
    | [] => fail .eofWhileParsingString []
    | '"' :: rest => .ok (String.ofList acc.reverse, rest)
    | '\\' :: rest =>
      match rest with
      | [] => fail .eofWhileParsingString []
      | '"' :: r => readString fuel ('"' :: acc) r
      | '\\' :: r => readString fuel ('\\' :: acc) r
      | '/' :: r => readString fuel ('/' :: acc) r
      | 'b' :: r => readString fuel ('\x08' :: acc) r
      | 'f' :: r => readString fuel ('\x0c' :: acc) r
      | 'n' :: r => readString fuel ('\n' :: acc) r
      | 'r' :: r => readString fuel ('\r' :: acc) r
      | 't' :: r => readString fuel ('\t' :: acc) r
      | 'u' :: r => do
        let (n, afterDigits) ← hexEscape r
        let (c, after) ← unicodeEscape n afterDigits
        readString fuel (c :: acc) after
      | other => failAt .invalidEscape other
    | c :: rest =>
      if c.toNat < 0x20 then failAt .controlCharacter (c :: rest)
      else readString fuel (c :: acc) rest

/-- A word such as `null` after its first letter: `word` holds the letters still expected. -/
def readWord (word : List Char) (cs : List Char) :
    Except JsonError (Unit × List Char) :=
  match word, cs with
  | [], cs => .ok ((), cs)
  | _ :: _, [] => fail .eofWhileParsingValue []
  | w :: ws, c :: rest => if c = w then readWord ws rest else failAt .expectedIdent (c :: rest)

/-- The largest value of a 64-bit word, the most a literal's digits are kept in. -/
def wordMax : Nat := Nat.pow 2 64 - 1

/-- The largest exponent a literal may write: the largest 32-bit signed integer. -/
def exponentMax : Nat := Nat.pow 2 31 - 1

/-- The double nearest a value that fits in a word. -/
def wordToDouble (n : Nat) : Float := n.toUInt64.toFloat

/-- Digits joined to `acc` while the value fits in a word: the value, the number of digits
joined, and the digits from the first one that would not fit. -/
def joinDigits (acc : Nat) : List Char → Nat × Nat × List Char
  | [] => (acc, 0, [])
  | d :: ds =>
    let v := acc * 10 + (d.toNat - '0'.toNat)
    if v ≤ wordMax then
      let (a, n, rest) := joinDigits v ds
      (a, n + 1, rest)
    else (acc, 0, d :: ds)

/-- The double nearest `10 ^ k`. -/
def powerOfTen (k : Nat) : Float := Float.ofScientific 1 false k

/-- `x` divided by `10 ^ k`: in one step by the double nearest `10 ^ k` when `k` is at most
308, else first by the double nearest `10 ^ 308`. Zero stays zero. -/
def divideByPowerOfTen (x : Float) (k : Nat) : Float :=
  if k ≤ 308 then x / powerOfTen k
  else if x == 0 then x
  else divideByPowerOfTen (x / powerOfTen 308) (k - 308)
termination_by k

/-- The double of `m * 10 ^ e` for `m` within a word: `m` rounded to a double, then multiplied
by the double nearest `10 ^ e`, or divided by the one nearest `10 ^ -e`. Each step rounds, so
the result can miss the nearest double by a unit in the last place. A value too large for a
double is refused. -/
def scaledDouble (m : Nat) (e : Int) : Option Float :=
  let x := wordToDouble m
  if e < 0 then some (divideByPowerOfTen x e.natAbs)
  else if e.toNat ≤ 308 then
    let y := x * powerOfTen e.toNat
    if y.isInf then none else some y
  else if x == 0 then some x
  else none

/-- An exponent held in 32 signed bits: values beyond them are taken as the nearest end. -/
def clampExponent (e : Int) : Int :=
  if e > Int.ofNat exponentMax then Int.ofNat exponentMax
  else if e < -Int.ofNat exponentMax - 1 then -Int.ofNat exponentMax - 1
  else e

/-- The number of an integer literal of magnitude `n`, at most a word, by the kind rules. -/
def integerNumber (negative : Bool) (n : Nat) : JsonNumber :=
  if negative then
    if n = 0 then .float (-0.0)
    else if n ≤ Nat.pow 2 63 then .negInt (-(n : Int))
    else .float (-(wordToDouble n))
  else .posInt n

/-- The double of digits `m` and exponent `e`, placed before `rest`. -/
def scaledNumber (negative : Bool) (m : Nat) (e : Int) (rest : List Char) :
    Except JsonError (JsonNumber × List Char) :=
  match scaledDouble m e with
  | some x => .ok (.float (withSign negative x), rest)
  | none => fail .numberOutOfRange rest

/-- The digits of an exponent after the first one, `k` being the value so far. From the digit
that takes the value beyond 32 bits on, the digits are skipped and `none` marks it, with the
text after that digit; the text after all of them follows. -/
def exponentDigits (k : Nat) : List Char → Option Nat × List Char × List Char
  | [] => (some k, [], [])
  | d :: ds =>
    if d.isDigit then
      let v := k * 10 + (d.toNat - '0'.toNat)
      if v > exponentMax then (none, ds, ds.dropWhile Char.isDigit)
      else exponentDigits v ds
    else (some k, d :: ds, d :: ds)

/-- An exponent part after `e` or `E`, for digits `m` with exponent `e0` so far. -/
def readExponent (negative : Bool) (m : Nat) (e0 : Int) (cs : List Char) :
    Except JsonError (JsonNumber × List Char) :=
  let (minus, afterSign) := match cs with
    | '+' :: r => (false, r)
    | '-' :: r => (true, r)
    | r => (false, r)
  match afterSign with
  | [] => fail .eofWhileParsingValue []
  | d :: ds =>
    if !d.isDigit then failAt .invalidNumber (d :: ds)
    else
      match exponentDigits (d.toNat - '0'.toNat) ds with
      | (none, atOverflow, after) =>
        if m ≠ 0 && !minus then fail .numberOutOfRange atOverflow
        else .ok (.float (withSign negative 0), after)
      | (some k, _, after) =>
        let e := if minus then e0 - Int.ofNat k else e0 + Int.ofNat k
        scaledNumber negative m (clampExponent e) after

/-- What follows the digits `m` of a number whose exponent is `e0` so far: a fraction, an
exponent, or the end of the number. -/
def readAfterFraction (negative : Bool) (m : Nat) (e : Int) : List Char →
    Except JsonError (JsonNumber × List Char)
  | c :: rest => if c = 'e' ∨ c = 'E' then readExponent negative m e rest
    else scaledNumber negative m e (c :: rest)
  | [] => scaledNumber negative m e []

/-- A fraction after the point, for digits `m` with exponent `e0` so far; digits that do not
fit in a word are skipped. -/
def readFraction (negative : Bool) (m : Nat) (e0 : Int) (cs : List Char) :
    Except JsonError (JsonNumber × List Char) :=
  let fraction := cs.takeWhile Char.isDigit
  let after := cs.dropWhile Char.isDigit
  match fraction, cs with
  | [], [] => failAt .eofWhileParsingValue []
  | [], _ => failAt .invalidNumber cs
  | _, _ =>
    let (m, joined, _) := joinDigits m fraction
    readAfterFraction negative m (e0 - Int.ofNat joined) after

/-- A number after its optional minus. The integer part has no leading zero; its digits are
kept while they fit in a word, and the later ones raise the exponent. -/
def readNumber (negative : Bool) (cs : List Char) :
    Except JsonError (JsonNumber × List Char) :=
  match cs with
  | [] => fail .eofWhileParsingValue []
  | c :: rest =>
    if !c.isDigit then failAt .invalidNumber (c :: rest)
    else if c = '0' && (rest.head?.map Char.isDigit).getD false then failAt .invalidNumber rest
    else
      let whole := cs.takeWhile Char.isDigit
      let after := cs.dropWhile Char.isDigit
      let (m, _, dropped) := joinDigits 0 whole
      match after with
      | '.' :: r => readFraction negative m (Int.ofNat dropped.length) r
      | e :: r =>
        if e = 'e' ∨ e = 'E' then readExponent negative m (Int.ofNat dropped.length) r
        else if dropped.isEmpty then .ok (integerNumber negative m, after)
        else scaledNumber negative m (Int.ofNat dropped.length) after
      | [] =>
        if dropped.isEmpty then .ok (integerNumber negative m, [])
        else scaledNumber negative m (Int.ofNat dropped.length) []

mutual
/-- A value after optional blanks, inside `depth - 1` enclosing arrays and objects of at most
127, within `fuel` steps. -/
def readValue : Nat → Nat → List Char →
    Except JsonError (Json × List Char)
  | 0, _, cs => fail .recursionLimitExceeded cs
  | fuel + 1, depth, cs =>
    match skipBlanks cs with
    | [] => failAt .eofWhileParsingValue []
    | 'n' :: r => (readWord "ull".toList r).map fun (_, r) => (.null, r)
    | 't' :: r => (readWord "rue".toList r).map fun (_, r) => (.bool true, r)
    | 'f' :: r => (readWord "alse".toList r).map fun (_, r) => (.bool false, r)
    | '"' :: r => (readString (r.length + 1) [] r).map fun (s, r) => (.string s, r)
    | '-' :: r => (readNumber true r).map fun (n, r) => (.number n, r)
    | '[' :: r =>
      if depth ≤ 1 then failAt .recursionLimitExceeded ('[' :: r)
      else readItems fuel (depth - 1) true [] r
    | '\x7b' :: r =>
      if depth ≤ 1 then failAt .recursionLimitExceeded ('\x7b' :: r)
      else readFields fuel (depth - 1) true [] r
    | c :: r =>
      if c.isDigit then (readNumber false (c :: r)).map fun (n, r) => (.number n, r)
      else failAt .expectedValue (c :: r)

/-- Array items after `[`, the items read so far in `acc`, last first. -/
def readItems : Nat → Nat → Bool → List Json → List Char →
    Except JsonError (Json × List Char)
  | 0, _, _, _, cs => fail .recursionLimitExceeded cs
  | fuel + 1, depth, first, acc, cs =>
    match skipBlanks cs with
    | [] => failAt .eofWhileParsingList []
    | ']' :: r => .ok (.array acc.reverse, r)
    | ',' :: r =>
      if first then failAt .expectedValue (',' :: r)
      else
        match skipBlanks r with
        | ']' :: r' => failAt .trailingComma (']' :: r')
        | [] => failAt .eofWhileParsingValue []
        | next => do
          let (v, rest) ← readValue fuel depth next
          readItems fuel depth false (v :: acc) rest
    | next =>
      if first then do
        let (v, rest) ← readValue fuel depth next
        readItems fuel depth false (v :: acc) rest
      else failAt .expectedListCommaOrEnd next

/-- Object fields after the opening brace, the fields read so far in `acc`, last first. -/
def readFields : Nat → Nat → Bool → List (String × Json) → List Char →
    Except JsonError (Json × List Char)
  | 0, _, _, _, cs => fail .recursionLimitExceeded cs
  | fuel + 1, depth, first, acc, cs =>
    let key : Except JsonError (List Char) := match skipBlanks cs with
      | [] => failAt .eofWhileParsingObject []
      | '\x7d' :: r => .ok ('\x7d' :: r)
      | ',' :: r => if first then .ok (',' :: r) else .ok (skipBlanks r)
      | next => if first then .ok next else failAt .expectedObjectCommaOrEnd next
    match skipBlanks cs, key with
    | '\x7d' :: r, _ => .ok (Json.ofFields acc.reverse, r)
    | _, .error e => .error e
    | _, .ok next =>
      match next with
      | '"' :: keyStart => do
        let (k, afterKey) ← readString (keyStart.length + 1) [] keyStart
        match skipBlanks afterKey with
        | ':' :: afterColon => do
          let (v, rest) ← readValue fuel depth afterColon
          readFields fuel depth false ((k, v) :: acc) rest
        | [] => failAt .eofWhileParsingObject []
        | other => failAt .expectedColon other
      | '\x7d' :: r => failAt .trailingComma ('\x7d' :: r)
      | [] => failAt .eofWhileParsingValue []
      | other => failAt .keyMustBeAString other
end

end JsonReader

/-- The value of a JSON text: one value, with nothing but blanks around it, or the text of
the first fault with its place. -/
def Json.parse (s : String) : Except String Json :=
  let cs := s.toList
  let result : Except JsonError Json := do
    let (v, rest) ← JsonReader.readValue (2 * cs.length + 300) 128 cs
    match JsonReader.skipBlanks rest with
    | [] => pure v
    | other => JsonReader.failAt .trailingCharacters other
  result.mapError (·.message s)

end HtmlTemplates
