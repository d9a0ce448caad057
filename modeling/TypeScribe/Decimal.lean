/-!
# Floating-point numbers as decimals

A finite number is `m * 2 ^ q`, and every real near enough rounds to it. Among the decimals near enough, `shortest`
takes the one with the fewest digits, of two the nearer one. A number from `0.00001` up to `10 ^ 16` is written out with
at least one decimal, any other in powers of ten.
-/

namespace TypeScribe

/-- The number `coefficient * 10 ^ exponent`. -/
structure Decimal where
  coefficient : Nat
  exponent : Int
deriving DecidableEq, Repr, Inhabited

/-- A binary number `significand * 2 ^ exponent`. `lowest` marks the lowest significand of its exponent, below which
the numbers lie twice as close. -/
structure Binary where
  significand : Nat
  exponent : Int
  lowest : Bool

def Binary.power (base : Nat) (n : Int) : Nat × Nat :=
  if 0 ≤ n then (Nat.pow base n.toNat, 1) else (1, Nat.pow base (-n).toNat)

/-- The multiple of `10 ^ exponent` that stands for `x`, if one rounds to `x`. -/
def Binary.onGrid? (x : Binary) (exponent : Int) : Option Decimal :=
  let (unit, unitBelow) := power 2 (x.exponent - 2)
  let (step, stepBelow) := power 10 exponent
  -- all quantities are multiples of one quarter of the last place of `x`
  let scaled (quarters : Nat) : Nat := quarters * unit * stepBelow
  let point (c : Nat) : Nat := c * step * unitBelow
  let value := scaled (4 * x.significand)
  let low := scaled (4 * x.significand - (if x.lowest then 1 else 2))
  let high := scaled (4 * x.significand + 2)
  let ends := x.significand % 2 = 0
  let near (c : Nat) : Bool :=
    c != 0 && (low < point c || (ends && low == point c)) && (point c < high || (ends && point c == high))
  let below := value / (step * unitBelow)
  let above := below + 1
  let choice :=
    if near below && near above then
      let down := value - point below
      let up := point above - value
      if down < up ∨ (down = up ∧ below % 2 = 0) then some below else some above
    else if near below then some below
    else if near above then some above
    else none
  choice.map fun c => ⟨c, exponent⟩

/-- The coarsest decimal grid with a point that rounds to `x` gives the fewest digits. -/
def Binary.shortest (x : Binary) : Decimal :=
  ((List.range 700).findSome? fun (i : Nat) => x.onGrid? (309 - (i : Int))).getD ⟨0, 0⟩

def Binary.signBit : Nat := 0x8000000000000000

/-- The lowest bit of the exponent of a floating-point number. -/
def Binary.exponentBit : Nat := 0x10000000000000

/-- The parts of a floating-point number without its sign, if it is finite and not zero. -/
def Binary.ofFloat? (x : Float) : Option Binary :=
  let bits : Nat := x.toBits.toNat % signBit
  let fraction : Nat := bits % exponentBit
  let biased : Nat := bits / exponentBit
  if bits = 0 ∨ biased = 2047 then none
  else if biased = 0 then some ⟨fraction, -1074, false⟩
  else some ⟨exponentBit + fraction, (biased : Int) - 1075, fraction == 0 && biased != 1⟩

/-! ## Writing -/

namespace Decimal

/-- The exponent of a power of ten: always a sign, and as few digits as it has. -/
def exponentText (n : Int) : String :=
  (if n < 0 then "e-" else "e+") ++ toString n.natAbs

def text (d : Decimal) : String :=
  let digits := (toString d.coefficient).toList
  let leading := d.exponent + digits.length - 1
  if -5 ≤ leading ∧ leading ≤ 15 then
    if leading < 0 then
      "0." ++ String.ofList (List.replicate (-leading - 1).toNat '0' ++ digits)
    else
      let places := leading.toNat + 1
      let whole := digits.take places ++ List.replicate (places - digits.length) '0'
      let decimals := digits.drop places
      String.ofList whole ++ "." ++ (if decimals.isEmpty then "0" else String.ofList decimals)
  else
    let decimals := digits.drop 1
    String.ofList (digits.take 1) ++ (if decimals.isEmpty then "" else "." ++ String.ofList decimals) ++
      exponentText leading

def floatText (x : Float) : String :=
  let sign := if x.toBits.toNat < Binary.signBit then "" else "-"
  sign ++ match Binary.ofFloat? x with
    | some parts => parts.shortest.text
    | none => "0.0"

end Decimal

end TypeScribe
