/-!
# Shortest decimals

`shortest` gives the decimal with the fewest digits that still reads back as the same double;
among several of that length it is the one nearest to the double, and of two equally near ones
the one with the even last digit.

A double is `significand * 2 ^ exponent`.  The reals that round to it form an interval whose
ends belong to it when the significand is even.  For each number of digits only the two
neighbours of the double on that decimal grid need a look, and all of it is exact arithmetic
on natural numbers.
-/

namespace Chip8Launcher

/-- The number `digits * 10 ^ exponent`. -/
structure Decimal where
  digits : Nat
  exponent : Int
  deriving DecidableEq, Repr

/-- A finite double without its sign. -/
structure Binary where
  significand : Nat
  exponent : Int
  /-- The double is the least of its binade, so the one below it is only half as far away. -/
  narrowBelow : Bool
  deriving DecidableEq, Repr

namespace Binary

def ofBits (bits : UInt64) : Binary :=
  let fraction : Nat := bits.toNat % 0x10000000000000
  let biased : Nat := bits.toNat / 0x10000000000000 % 0x800
  if biased = 0 then ⟨fraction, -1074, false⟩
  else ⟨0x10000000000000 + fraction, (biased : Int) - 1075, fraction = 0 && 1 < biased⟩

/-- Four times the double, as a fraction; the ends of its interval differ from it by whole
multiples of `unit`. -/
def fourfold (b : Binary) : Nat × Nat :=
  if 0 ≤ b.exponent then (4 * b.significand * Nat.pow 2 b.exponent.toNat, 1)
  else (4 * b.significand, Nat.pow 2 (-b.exponent).toNat)

def unit (b : Binary) : Nat := if 0 ≤ b.exponent then Nat.pow 2 b.exponent.toNat else 1

/-- The double lies in `[10 ^ k, 10 ^ (k + 1))` for this `k`. -/
def magnitude (b : Binary) : Int :=
  let (top, bottom) := b.fourfold
  let whole := top / (4 * bottom)
  if 0 < whole then ((Nat.toDigits 10 whole).length : Int) - 1
  else match (List.range 400).find? fun k => 4 * bottom ≤ top * Nat.pow 10 k with
    | some k => -(k : Int)
    | none => 0

/-- Both neighbours of the double among the multiples of `10 ^ step`, each with its distance
if it lies in the interval. -/
def neighbours (b : Binary) (step : Int) : List (Nat × Nat) :=
  let (top, bottom) := b.fourfold
  let up := 4 * bottom * (if 0 ≤ step then Nat.pow 10 step.toNat else 1)
  let down := if 0 ≤ step then 1 else Nat.pow 10 (-step).toNat
  let value := top * down
  let low := value - (if b.narrowBelow then 1 else 2) * b.unit * down
  let high := value + 2 * b.unit * down
  let floor := value / up
  [floor, floor + 1].filterMap fun n =>
    let scaled := n * up
    let inside :=
      if b.significand % 2 = 0 then low ≤ scaled ∧ scaled ≤ high
      else low < scaled ∧ scaled < high
    if inside then some (n, (scaled - value) + (value - scaled)) else none

def nearest : List (Nat × Nat) → Option Nat
  | [] => none
  | [(n, _)] => some n
  | (n, d) :: (m, e) :: _ => some (if d < e ∨ d = e ∧ n % 2 = 0 then n else m)

end Binary

/-- The same number without zeros at the end of its digits. -/
def Decimal.trim : Nat → Decimal → Decimal
  | 0, d => d
  | fuel + 1, d =>
    if d.digits ≠ 0 ∧ d.digits % 10 = 0 then trim fuel ⟨d.digits / 10, d.exponent + 1⟩ else d

/-- Seventeen digits always suffice. -/
def Binary.shortest (b : Binary) : Decimal :=
  let found := (List.range 17).findSome? fun more =>
    let step := b.magnitude - Int.ofNat more
    (nearest (b.neighbours step)).map fun n => (⟨n, step⟩ : Decimal)
  match found with
  | some d => d.trim 17
  | none => ⟨0, 0⟩

end Chip8Launcher
