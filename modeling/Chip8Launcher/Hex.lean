/-!
# Hexadecimal digits

`padded w n` is `n` in lower-case digits, filled up with zeros to at least `w` of them.
`value?` reads one digit of either case, and `word?` four of them as one number.
-/

namespace Chip8Launcher.Hex

/-- Longer numbers keep all their digits. -/
def padded (width n : Nat) : List Char :=
  let digits := Nat.toDigits 16 n
  List.replicate (width - digits.length) '0' ++ digits

/-- A byte has always two digits. -/
def byte (b : UInt8) : List Char := padded 2 b.toNat

def ofBytes (bytes : List UInt8) : String := String.ofList (bytes.flatMap byte)

def value? (c : Char) : Option Nat :=
  if '0' ≤ c ∧ c ≤ '9' then some (c.toNat - '0'.toNat)
  else if 'a' ≤ c ∧ c ≤ 'f' then some (c.toNat - 'a'.toNat + 10)
  else if 'A' ≤ c ∧ c ≤ 'F' then some (c.toNat - 'A'.toNat + 10)
  else none

def word? (a b c d : Char) : Option Nat := do
  let a ← value? a
  let b ← value? b
  let c ← value? c
  let d ← value? d
  return ((a * 16 + b) * 16 + c) * 16 + d

end Chip8Launcher.Hex
