import HtmlTemplates.Number.Shortest
/-!
Writing a double as text.

The digits are the shortest that read back (`Binary.shortest`); a `Notation` lays them out.
With `e` the exponent of the leading digit, a decimal is written positionally when
`plainFrom ≤ e < plainBelow` and in scientific form `d.ddde<e>` otherwise. The notation also
fixes whether an integral value keeps a `.0`, whether a non-negative exponent gets a `+`, the
tie rule of the digits, whether zero shows its sign, and the texts of NaN and infinity.
-/
namespace HtmlTemplates.Number

/-- The layout decisions of a text form of doubles. -/
structure Notation where
  /-- The least exponent of the leading digit written positionally. -/
  plainFrom : Int
  /-- Exponents from here on are written in scientific form. -/
  plainBelow : Int
  /-- An integral value written positionally ends in `.0`, and zero is `0.0`. -/
  pointZero : Bool
  /-- A non-negative exponent is written with `+`. -/
  expPlus : Bool
  tie : Tie
  /-- Negative zero is written with its sign. -/
  signedZero : Bool
  nan : String
  infinity : String

/-- `n` zero digits. -/
def zeros (n : Nat) : List Char := List.replicate n '0'

/-- The digits `ds` of a decimal whose last digit has exponent `exp`, laid out by `nt`. -/
def Notation.layout (nt : Notation) (ds : List Char) (exp : Int) : String :=
  let e := exp + ds.length - 1
  if nt.plainFrom ≤ e ∧ e < nt.plainBelow then
    if 0 ≤ exp then
      String.ofList (ds ++ zeros exp.toNat ++ (if nt.pointZero then ['.', '0'] else []))
    else if 0 ≤ e then
      String.ofList (ds.take (e + 1).toNat ++ '.' :: ds.drop (e + 1).toNat)
    else
      String.ofList ('0' :: '.' :: zeros (-e - 1).toNat ++ ds)
  else
    let mantissa := match ds with
      | d :: rest@(_ :: _) => d :: '.' :: rest
      | _ => ds
    let sign := if e < 0 then "-" else if nt.expPlus then "+" else ""
    String.ofList mantissa ++ "e" ++ sign ++ toString e.natAbs

/-- The text of a double in notation `nt`. -/
def Notation.format (nt : Notation) (x : Float) : String :=
  let bits := x.toBits
  let negative := bits >>> 63 == 1
  let sign := if negative then "-" else ""
  let expField := (bits >>> 52) &&& 0x7FF
  let fraction := bits &&& 0xFFFFFFFFFFFFF
  if expField == 0x7FF then
    if fraction == 0 then sign ++ nt.infinity else nt.nan
  else if expField == 0 && fraction == 0 then
    (if negative && nt.signedZero then "-" else "") ++ (if nt.pointZero then "0.0" else "0")
  else
    let d := (Binary.ofBits bits).shortest nt.tie
    sign ++ nt.layout (Nat.toDigits 10 d.digits) d.exp

end HtmlTemplates.Number
