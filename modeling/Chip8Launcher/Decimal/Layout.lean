import Chip8Launcher.Decimal.Shortest

/-!
# Layouts for decimals

How the digits of a double are laid out as text: positionally near one, with an exponent far
from it.  A layout says where one ends and the other begins, and the details of both.
-/

namespace Chip8Launcher

structure Layout where
  /-- The least and the greatest power of ten of a first digit that is written positionally. -/
  least : Int
  greatest : Int
  /-- A whole number ends in `.0`. -/
  marksWhole : Bool
  /-- An exponent has at least this many digits. -/
  exponentWidth : Nat
  /-- A negative zero shows its sign. -/
  signsZero : Bool

namespace Layout

def fill (width : Nat) (digits : List Char) : List Char :=
  List.replicate (width - digits.length) '0' ++ digits

/-- The first of the digits stands for `10 ^ power`. -/
def positional (layout : Layout) (digits : List Char) (power : Int) : List Char :=
  if power < 0 then ['0', '.'] ++ List.replicate (-power - 1).toNat '0' ++ digits
  else
    let whole := power.toNat + 1
    if digits.length ≤ whole then
      digits ++ List.replicate (whole - digits.length) '0'
        ++ (if layout.marksWhole then ['.', '0'] else [])
    else digits.take whole ++ ['.'] ++ digits.drop whole

def exponential (layout : Layout) (digits : List Char) (power : Int) : List Char :=
  let fraction := digits.drop 1
  digits.take 1 ++ (if fraction.isEmpty then [] else '.' :: fraction)
    ++ ['e', if power < 0 then '-' else '+']
    ++ fill layout.exponentWidth (Nat.toDigits 10 power.natAbs)

def unsigned (layout : Layout) (bits : UInt64) : List Char :=
  let d := (Binary.ofBits bits).shortest
  let digits := Nat.toDigits 10 d.digits
  if d.digits = 0 then layout.positional ['0'] 0
  else
    let power := d.exponent + (digits.length : Int) - 1
    if layout.least ≤ power ∧ power ≤ layout.greatest then layout.positional digits power
    else layout.exponential digits power

def write (layout : Layout) (x : Float) : String :=
  if x.isNaN then "NaN"
  else
    let isZero := x == 0
    let sign := if x.toBits < 0x8000000000000000 ∨ isZero ∧ !layout.signsZero then "" else "-"
    sign ++ (if x.isInf then "inf" else String.ofList (layout.unsigned x.toBits))

end Layout

end Chip8Launcher
