/-!
The shortest decimal that reads back as a given double.

A finite double stands for every real that rounds to it: the interval from halfway to the
double below to halfway to the double above, both ends included exactly when its significand
is even. `Binary.shortest` picks from that interval a decimal with the fewest significant
digits and, of those, the one nearest the double. It tries the grids of one digit, two digits
and so on below the leading digit. On each grid the only candidates are the two grid points
around the double, since a grid point inside the interval implies one of them is. When the
double lies exactly halfway between the two, a `Tie` rule decides. All arithmetic is on
natural numbers.
-/
namespace HtmlTemplates.Number

/-- A finite non-negative double as `m * 2 ^ q`. -/
structure Binary where
  m : Nat
  q : Int
  /-- The gap to the double below is half the gap to the double above. -/
  narrowBelow : Bool
  deriving Repr, DecidableEq

/-- The magnitude of the finite double with bits `b`; the sign bit is ignored. -/
def Binary.ofBits (b : UInt64) : Binary :=
  let e := ((b >>> 52) &&& 0x7FF).toNat
  let f := (b &&& 0xFFFFFFFFFFFFF).toNat
  if e == 0 then ⟨f, -1074, false⟩
  else ⟨Nat.pow 2 52 + f, Int.ofNat e - 1075, f == 0 && e > 1⟩

/-- The decimal `digits * 10 ^ exp`. -/
structure Dec where
  digits : Nat
  exp : Int
  deriving Repr, DecidableEq

/-- Which of two equally near candidates is taken. -/
inductive Tie where
  /-- The larger one. -/
  | up
  /-- The one whose last digit is even. -/
  | even
  deriving Repr, DecidableEq

/-- Compares `a * 10 ^ i` with `n * 2 ^ j`, exactly. -/
def cmpScaled (a : Nat) (i : Int) (n : Nat) (j : Int) : Ordering :=
  compare (a * Nat.pow 10 i.toNat * Nat.pow 2 (-j).toNat)
    (n * Nat.pow 2 j.toNat * Nat.pow 10 (-i).toNat)

/-- Whether decimal `d` lies among the reals that round to `x`. -/
def Binary.readsBack (x : Binary) (d : Dec) : Bool :=
  let lo := if x.narrowBelow then 4 * x.m - 1 else 4 * x.m - 2
  let hi := 4 * x.m + 2
  let incl := x.m % 2 == 0
  let cl := cmpScaled d.digits d.exp lo (x.q - 2)
  let ch := cmpScaled d.digits d.exp hi (x.q - 2)
  (cl == .gt || (incl && cl == .eq)) && (ch == .lt || (incl && ch == .eq))

/-- Whether `x` is below `10 ^ k`. -/
def Binary.below (x : Binary) (k : Int) : Bool :=
  cmpScaled 1 k x.m x.q == .gt

/-- Moves the guess `k` to the least `k` with `x` below `10 ^ k`, within `fuel` moves. -/
def Binary.fixScale (x : Binary) : Nat → Int → Int
  | 0, k => k
  | fuel + 1, k =>
    if x.below k then
      if x.below (k - 1) then x.fixScale fuel (k - 1) else k
    else x.fixScale fuel (k + 1)

/-- The least `k` with `x` below `10 ^ k`, for `x` not zero: the binary logarithm gives a
guess within two of it. -/
def Binary.scale (x : Binary) : Int :=
  let e2 : Int := (Nat.log2 x.m : Int) + x.q
  x.fixScale 16 ((e2 * 30103) / 100000)

/-- `x` divided by `10 ^ g`, rounded down. -/
def Binary.floorGrid (x : Binary) (g : Int) : Nat :=
  (x.m * Nat.pow 2 x.q.toNat * Nat.pow 10 (-g).toNat) /
    (Nat.pow 2 (-x.q).toNat * Nat.pow 10 g.toNat)

/-- Of the grid points `lo` and `lo + 1` (of spacing `10 ^ g`) the one nearer `x`, with
`tie` for a double exactly between them. -/
def Binary.nearer (x : Binary) (tie : Tie) (lo : Nat) (g : Int) : Nat :=
  match cmpScaled (2 * lo + 1) g (2 * x.m) x.q with
  | .gt => lo
  | .lt => lo + 1
  | .eq =>
    match tie with
    | .up => lo + 1
    | .even => if lo % 2 == 0 then lo else lo + 1

/-- The candidate of `n` significant digits that reads back, if there is one: of the two
grid points around `x`, those inside its interval, and of two the nearer. -/
def Binary.candidate (x : Binary) (tie : Tie) (k : Int) (n : Nat) : Option Dec :=
  let g := k - n
  let lo := x.floorGrid g
  match x.readsBack ⟨lo, g⟩, x.readsBack ⟨lo + 1, g⟩ with
  | true, true => some ⟨x.nearer tie lo g, g⟩
  | true, false => some ⟨lo, g⟩
  | false, true => some ⟨lo + 1, g⟩
  | false, false => none

/-- The decimal with its trailing zeros moved into the exponent. -/
def Dec.trim (d : Dec) : Dec :=
  if h : d.digits ≠ 0 ∧ d.digits % 10 = 0 then
    Dec.trim ⟨d.digits / 10, d.exp + 1⟩
  else d
termination_by d.digits
decreasing_by exact Nat.div_lt_self (Nat.pos_of_ne_zero h.1) (by decide)

/-- The shortest decimal that reads back as `x`, nearest `x` among those, with no trailing
zeros; `x` must not be zero. Seventeen digits always read back; should the search find
nothing, the nearest seventeen-digit decimal stands in. -/
def Binary.shortest (x : Binary) (tie : Tie) : Dec :=
  let k := x.scale
  match (List.range 17).findSome? fun i => x.candidate tie k (i + 1) with
  | some d => d.trim
  | none => (Dec.mk (x.nearer tie (x.floorGrid (k - 17)) (k - 17)) (k - 17)).trim

example : (Binary.ofBits (0.1 : Float).toBits).shortest .up = ⟨1, -1⟩ := by decide +kernel
example : (Binary.ofBits (123.0 : Float).toBits).shortest .up = ⟨123, 0⟩ := by decide +kernel

end HtmlTemplates.Number
