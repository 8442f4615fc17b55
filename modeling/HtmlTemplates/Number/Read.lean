/-!
Reading decimal numbers.

`nearestDouble` gives the double nearest `m * 10 ^ e`, rounding half to even, and infinity
beyond the largest double. `readDouble?` reads the decimal text of a double: an optional sign,
then `inf`, `infinity` or `nan` in any case, or digits with an optional point and an optional
exponent, with at least one digit before or after the point. `readInt?` reads an optional
sign and decimal digits.
-/
namespace HtmlTemplates.Number

/-- Positive infinity. -/
def infinity : Float := Float.ofBits 0x7FF0000000000000

/-- A quiet NaN. -/
def notANumber : Float := Float.ofBits 0x7FF8000000000000

/-- The number of decimal digits of `m`. -/
def digitCount (m : Nat) : Nat := (Nat.toDigits 10 m).length

/-- The double nearest `m * 10 ^ e`. Values beyond the largest double become infinity and
values far below the least one become zero, without computing the power. -/
def nearestDouble (m : Nat) (e : Int) : Float :=
  if m = 0 then 0
  else if e + digitCount m > 310 then infinity
  else if e + digitCount m < -400 then 0
  else if 0 ≤ e then Float.ofScientific m false e.toNat
  else Float.ofScientific m true e.natAbs

/-- A value and its sign. -/
def withSign (negative : Bool) (x : Float) : Float := if negative then -x else x

/-- The value of a run of decimal digits. -/
def digitsValue (ds : List Char) : Nat :=
  ds.foldl (fun n c => 10 * n + (c.toNat - '0'.toNat)) 0

/-- Splits off the leading decimal digits. -/
def spanDigits (cs : List Char) : List Char × List Char :=
  (cs.takeWhile Char.isDigit, cs.dropWhile Char.isDigit)

/-- An optional sign: whether it is a minus, and the rest. -/
def readSign : List Char → Bool × List Char
  | '-' :: rest => (true, rest)
  | '+' :: rest => (false, rest)
  | cs => (false, cs)

/-- An optional exponent `e` or `E` with an optional sign and at least one digit; it must
end the text. -/
def readExponent? : List Char → Option Int
  | [] => some 0
  | c :: rest =>
    if c = 'e' ∨ c = 'E' then
      let (negative, afterSign) := readSign rest
      let (ds, tail) := spanDigits afterSign
      if ds.isEmpty || !tail.isEmpty then none
      else some (if negative then -(digitsValue ds : Int) else digitsValue ds)
    else none

/-- The value of unsigned decimal text: digits, an optional point with digits, an optional
exponent. -/
def readUnsignedDecimal? (cs : List Char) : Option Float := do
  let (whole, afterWhole) := spanDigits cs
  let (fraction, afterFraction) := match afterWhole with
    | '.' :: rest => spanDigits rest
    | rest => ([], rest)
  if whole.isEmpty && fraction.isEmpty then none
  let e ← readExponent? afterFraction
  pure (nearestDouble (digitsValue (whole ++ fraction)) (e - fraction.length))

/-- The double of a decimal text, or of a spelling of infinity or NaN. -/
def readDouble? (s : String) : Option Float :=
  let (negative, rest) := readSign s.toList
  let word := String.ofList (rest.map Char.toLower)
  if word == "inf" || word == "infinity" then some (withSign negative infinity)
  else if word == "nan" then some notANumber
  else (readUnsignedDecimal? rest).map (withSign negative)

/-- An integer written as an optional sign and at least one decimal digit. -/
def readInt? (s : String) : Option Int :=
  let (negative, rest) := readSign s.toList
  if rest.isEmpty || !rest.all Char.isDigit then none
  else
    let n : Int := digitsValue rest
    some (if negative then -n else n)

end HtmlTemplates.Number
