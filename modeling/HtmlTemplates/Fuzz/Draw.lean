import HtmlTemplates.Template.Store
/-!
Drawing templates and values from a stream of bytes.

Each draw takes bytes from the front of the stream; an exhausted stream gives the byte `1`
forever. A source is a sequence of pieces, each a snippet of markup from a fixed list or a
short random string. A random string maps each byte below 128 to that character and each
other byte `b` to the character `33 * b`, which lies outside ASCII. Split positions are
char boundaries of the source, and the literals are the pieces between them.
-/
namespace HtmlTemplates.Fuzz

/-- A draw from the byte stream. -/
abbrev Draw := StateM (List UInt8)

/-- Snippets of markup that sources are built from. -/
def snippets : List String :=
  ["<", "/>", "</", "\"", "'", " = ", "=", "<p>", "</p>", "<br>", "<br/>", "<svg>", "<!--",
    "-->", "<!DOCTYPE html>", " = \"", "&amp;", "<p id=foo>", "<p foo=x>", "<p", "foo=BAR",
    "<a", "id=myid", "class='warning ", "class=\"", "       ", "\n\r\n\r\r\t", "/", ">"]

/-- The snippet at an index taken modulo their number. -/
def snippet (n : Nat) : String := snippets.getD (n % snippets.length) ""

/-- The next byte, or `1` when the stream is exhausted. -/
def byte : Draw UInt8 := modifyGet fun
  | [] => (1, [])
  | b :: rest => (b, rest)

/-- The character a byte of a random string stands for. -/
def charOfByte (b : UInt8) : Char :=
  if b < 128 then Char.ofNat b.toNat else Char.ofNat (b.toNat * 33)

/-- A random string of at least `minLen` characters and at most fifteen more, as long as the
stream lasts. -/
def string (minLen : Nat) : Draw String := do
  let len := minLen + ((← byte) % 16).toNat
  modifyGet fun data => (String.ofList ((data.take len).map charOfByte), data.drop len)

/-- `n` pieces of a source. -/
def pieces : Nat → Draw String
  | 0 => pure ""
  | n + 1 => do
    let b := (← byte).toNat
    let piece ← if b % 2 == 0 then pure (snippet (b / 2)) else string 0
    pure (piece ++ (← pieces n))

/-- A source of up to twenty-three pieces. -/
def source : Draw String := do pieces ((← byte) % 24).toNat

/-- The byte offsets at which the characters of `s` after the first start. -/
def innerBoundaries (s : String) : List Nat :=
  ((s.toList.map Char.utf8Size).scanl (· + ·) 0).drop 1 |>.dropLast

/-- `n` positions drawn from `bounds`, which is not empty. -/
def positions (bounds : List Nat) : Nat → Draw (List Nat)
  | 0 => pure []
  | n + 1 => do
    let p := bounds.getD ((← byte).toNat % bounds.length) 0
    pure (p :: (← positions bounds n))

/-- Up to seven split positions of a source, in increasing order. -/
def splitPositions (s : String) : Draw (List Nat) := do
  let bounds := innerBoundaries s
  if bounds.isEmpty then return []
  let n := ((← byte) % 8).toNat
  let ps ← positions bounds n
  pure (ps.mergeSort (· ≤ ·))

/-- The pieces of a source between split positions, in order. -/
def splitAt (s : String) : List Nat → Nat → List String
  | [], start => [String.Pos.Raw.extract s ⟨start⟩ ⟨s.utf8ByteSize⟩]
  | p :: ps, start => String.Pos.Raw.extract s ⟨start⟩ ⟨p⟩ :: splitAt s ps p

/-- The literals that `html` builds a drawn nested value into. -/
def nestingLiterals : List String := ["<b class=\"", "\"></b>"]

/-- A value of one of the kinds that hold no other value, by the drawn kind `k`; other kinds
give the empty string. -/
def leaf (k : UInt8) : Draw Value :=
  match k with
  | 0 => pure .null
  | 1 => pure (.bool false)
  | 2 => pure (.bool true)
  | 3 => do pure (.int (Int64.ofInt (((← byte).toNat : Int) - 128)))
  | 4 => do pure (.float (Float.ofNat (← byte).toNat / 7.0))
  | 5 => do pure (.str (← string 0))
  | 6 => do pure (.str (snippet (← byte).toNat))
  | _ => pure (.str "")

/-- A value nested in at most `levels` more lists or markups. -/
def value : Nat → Draw Value
  | 0 => do leaf ((← byte) % 9)
  | l + 1 => do
    let k := (← byte) % 9
    if k == 7 then
      let n := ((← byte) % 4).toNat
      pure (.list (← (List.range n).mapM fun _ => value l))
    else if k == 8 then
      let v ← value l
      pure <| match html nestingLiterals [v] with
        | .ok (.ok b) => b.toValue
        | _ => .null
    else leaf k

end HtmlTemplates.Fuzz
