namespace DebugAdapter.Decimal

/-- The number `mantissa * 2 ^ exponent`. `lowerGapHalved` holds where the next smaller number is
only half as far away as the next larger one. -/
structure Binary where
  mantissa : Nat
  exponent : Int
  lowerGapHalved : Bool

structure Scaled where
  digits : Nat
  exponent : Int

namespace Binary

def ofFloat (x : Float) : Binary :=
  let bits := x.toBits.toNat
  let fraction : Nat := bits % Nat.pow 2 52
  let scale : Nat := bits / Nat.pow 2 52 % Nat.pow 2 11
  if scale = 0 then ⟨fraction, -1074, false⟩
  else ⟨Nat.pow 2 52 + fraction, (scale : Int) - 1075, fraction = 0 && scale != 1⟩

/-- The point of the grid of step `10 ^ step` that lies closest to the value, of those that round to
it. Of two points as close the even one is taken. -/
def onGrid? (b : Binary) (step : Int) : Option Nat :=
  let numerator := Nat.pow 2 (b.exponent - 2).toNat * Nat.pow 10 (-step).toNat
  let unit := Nat.pow 2 (2 - b.exponent).toNat * Nat.pow 10 step.toNat
  let value := 4 * b.mantissa * numerator
  let low := (4 * b.mantissa - if b.lowerGapHalved then 1 else 2) * numerator
  let high := (4 * b.mantissa + 2) * numerator
  let roundsBack (d : Nat) : Bool :=
    if b.mantissa % 2 = 0 then low ≤ d * unit && d * unit ≤ high
    else low < d * unit && d * unit < high
  let below := value / unit
  let above := below + 1
  match roundsBack below, roundsBack above with
  | false, false => none
  | true, false => some below
  | false, true => some above
  | true, true =>
    let twice := 2 * (value - below * unit)
    if twice < unit ∨ (twice = unit ∧ below % 2 = 0) then some below else some above

/-- Tries `tries` grids, from the step `10 ^ step` to finer ones. -/
def firstOnGrid (b : Binary) : Nat → Int → Scaled
  | 0, step => ⟨0, step⟩
  | tries + 1, step =>
    match b.onGrid? step with
    | some d => ⟨d, step⟩
    | none => firstOnGrid b tries (step - 1)

def ceiling (b : Binary) : Int :=
  ((b.mantissa.log2 : Int) + b.exponent + 1) * 30103 / 100000 + 1

/-- The shortest decimal that reads back; twenty grids below the value always hold one. -/
def shortest (b : Binary) : Scaled :=
  if b.mantissa = 0 then ⟨0, 0⟩ else b.firstOnGrid 24 b.ceiling

end Binary

namespace Scaled

def scientific (d : Scaled) : List Char × Int :=
  let all := Nat.toDigits 10 d.digits
  let kept := (all.reverse.dropWhile (· = '0')).reverse
  (if kept.isEmpty then ['0'] else kept, d.exponent + all.length - 1)

end Scaled

/-- How decimals are laid out: exponents from `leastPositional` to `greatestPositional` are written
with a point and no exponent. -/
structure Layout where
  leastPositional : Int
  greatestPositional : Int

namespace Layout

/-- Writes digits with a point after the one of exponent zero; at least one digit follows it. -/
def positional (digits : List Char) (exponent : Int) : List Char :=
  if exponent < 0 then
    '0' :: '.' :: List.replicate (-exponent - 1).toNat '0' ++ digits
  else
    let whole := exponent.toNat + 1
    let before := digits.take whole
    let after := digits.drop whole
    before ++ List.replicate (whole - before.length) '0' ++
      '.' :: (if after.isEmpty then ['0'] else after)

def exponential (digits : List Char) (exponent : Int) : List Char :=
  let mantissa :=
    match digits with
    | [] => ['0']
    | [d] => [d]
    | d :: more => d :: '.' :: more
  mantissa ++ 'e' :: (if exponent < 0 then '-' else '+') :: Nat.toDigits 10 exponent.natAbs

def text (layout : Layout) (x : Float) : List Char :=
  let (digits, exponent) := (Binary.ofFloat x).shortest.scientific
  let unsigned :=
    if layout.leastPositional ≤ exponent ∧ exponent ≤ layout.greatestPositional then
      positional digits exponent
    else exponential digits exponent
  if x.toBits.toNat / Nat.pow 2 63 = 1 then '-' :: unsigned else unsigned

end Layout
end DebugAdapter.Decimal
