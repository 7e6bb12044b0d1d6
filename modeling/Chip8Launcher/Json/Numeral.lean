/-!
# Numbers of JSON

A numeral is a number as it is written.  `scan?` reads one from the front of a text, and
`value?` says which number it is: an integer if it has neither fraction nor exponent and fits
64 bits, and a double otherwise.  A minus zero is a double, because no integer has its sign.

The double is found from a 64-bit significand and a power of ten.  Digits that no longer fit
the significand are dropped, those before the point counting as powers of ten.  The result may
differ from the nearest double in its last bits, and a numeral beyond the largest double has
no value.
-/

namespace Chip8Launcher.Json

inductive Number where
  | integer (n : Int)
  | float (x : Float)

structure Numeral where
  negative : Bool
  /-- The digits before the point. -/
  whole : List Char
  /-- The digits after the point, if there is one. -/
  fraction : Option (List Char)
  /-- The sign and digits of the exponent, if there is one. -/
  exponent : Option (Bool × List Char)
  deriving DecidableEq, Repr

namespace Numeral

def digitRun (s : List Char) : List Char × List Char :=
  (s.takeWhile Char.isDigit, s.dropWhile Char.isDigit)

/-- A run of digits that is not empty. -/
def digits? (s : List Char) : Option (List Char × List Char) :=
  if (digitRun s).1.isEmpty then none else some (digitRun s)

theorem digits?_length {s ds r : List Char} (h : digits? s = some (ds, r)) :
    r.length < s.length := by
  unfold digits? at h
  split at h
  · contradiction
  · rename_i hDigits
    simp only [digitRun, Option.some.injEq, Prod.mk.injEq] at h
    simp only [digitRun, List.isEmpty_iff] at hDigits
    have := congrArg List.length (List.takeWhile_append_dropWhile (p := Char.isDigit) (l := s))
    have := List.length_pos_iff.2 hDigits
    rw [List.length_append] at *
    rw [← h.2]
    omega

/-- A lone zero, or digits that do not begin with one. -/
def whole? (s : List Char) : Option (List Char × List Char) := do
  let (ds, r) ← digits? s
  if ds.head? = some '0' ∧ 1 < ds.length then none else some (ds, r)

def fraction? (s : List Char) : Option (Option (List Char) × List Char) :=
  match s with
  | '.' :: r => (digits? r).map fun (ds, r) => (some ds, r)
  | _ => some (none, s)

def exponentSign (s : List Char) : Bool × List Char :=
  match s with
  | '+' :: r => (false, r)
  | '-' :: r => (true, r)
  | _ => (false, s)

def exponent? (s : List Char) : Option (Option (Bool × List Char) × List Char) :=
  match s with
  | [] => some (none, [])
  | c :: r =>
    if c = 'e' ∨ c = 'E' then
      let (negative, r) := exponentSign r
      (digits? r).map fun (ds, r) => (some (negative, ds), r)
    else some (none, s)

def sign (s : List Char) : Bool × List Char :=
  match s with
  | '-' :: r => (true, r)
  | _ => (false, s)

/-- Reads the longest numeral at the front of `s`. -/
def scan? (s : List Char) : Option (Numeral × List Char) := do
  let (negative, r) := sign s
  let (whole, r) ← whole? r
  let (fraction, r) ← fraction? r
  let (exponent, r) ← exponent? r
  return (⟨negative, whole, fraction, exponent⟩, r)

theorem sign_length (s : List Char) : (sign s).2.length ≤ s.length := by
  unfold sign
  split <;> simp

theorem whole?_length {s ds r : List Char} (h : whole? s = some (ds, r)) :
    r.length < s.length := by
  simp only [whole?, Option.bind_eq_bind, Option.bind_eq_some_iff] at h
  obtain ⟨⟨ds', r'⟩, hDigits, h⟩ := h
  split at h
  · contradiction
  · simp only [Option.some.injEq, Prod.mk.injEq] at h
    rw [← h.2]
    exact digits?_length hDigits

theorem fraction?_length {s r : List Char} {f : Option (List Char)}
    (h : fraction? s = some (f, r)) : r.length ≤ s.length := by
  unfold fraction? at h
  split at h
  · simp only [Option.map_eq_some_iff, Prod.mk.injEq, Prod.exists] at h
    obtain ⟨_, _, hDigits, _, rfl⟩ := h
    have := digits?_length hDigits
    simp only [List.length_cons]
    omega
  · simp only [Option.some.injEq, Prod.mk.injEq] at h
    simp [h.2]

theorem exponentSign_length (s : List Char) : (exponentSign s).2.length ≤ s.length := by
  unfold exponentSign
  split <;> simp

theorem exponent?_length {s r : List Char} {e : Option (Bool × List Char)}
    (h : exponent? s = some (e, r)) : r.length ≤ s.length := by
  unfold exponent? at h
  split at h
  · simp_all
  · rename_i c r'
    split at h
    · simp only [Option.map_eq_some_iff, Prod.mk.injEq, Prod.exists] at h
      obtain ⟨_, _, hDigits, _, rfl⟩ := h
      have := digits?_length hDigits
      have := exponentSign_length r'
      simp only [List.length_cons]
      omega
    · simp only [Option.some.injEq, Prod.mk.injEq] at h
      simp [← h.2]

theorem scan?_length {s r : List Char} {n : Numeral} (h : scan? s = some (n, r)) :
    r.length < s.length := by
  simp only [scan?, Option.bind_eq_bind, Option.bind_eq_some_iff, Prod.exists] at h
  obtain ⟨_, r₁, hWhole, _, r₂, hFraction, _, r₃, hExponent, h⟩ := h
  simp only [Option.pure_def, Option.some.injEq, Prod.mk.injEq] at h
  have := sign_length s
  have := whole?_length hWhole
  have := fraction?_length hFraction
  have := exponent?_length hExponent
  rw [← h.2]
  omega

def digitValue (c : Char) : Nat := c.toNat - '0'.toNat

/-- Puts digits behind `total` while the result fits 64 bits; the digits that are left follow. -/
def accumulate (total : Nat) : List Char → Nat × List Char
  | [] => (total, [])
  | c :: rest =>
    let next := total * 10 + digitValue c
    if next < 0x10000000000000000 then accumulate next rest else (total, c :: rest)

def magnitude (ds : List Char) : Nat := ds.foldl (fun total c => total * 10 + digitValue c) 0

def powerOfTen (n : Nat) : Float := Float.ofScientific 1 false n

/-- `x * 10 ^ power` in steps that stay within the doubles; nothing if it is too large. -/
def scale? (x : Float) (power : Int) : Option Float :=
  if 308 < power then
    if x == 0 then some x else none
  else if 0 ≤ power then
    let y := x * powerOfTen power.toNat
    if y.isInf then none else some y
  else if -308 ≤ power then some (x / powerOfTen power.natAbs)
  else if x == 0 then some x
  else scale? (x / powerOfTen 308) (power + 308)
termination_by power.natAbs

def float? (n : Numeral) : Option Float := do
  let (significand, left) := accumulate 0 n.whole
  let fraction := n.fraction.getD []
  let (significand, dropped) := accumulate significand fraction
  let power : Int := left.length - (fraction.length - dropped.length : Nat)
  let shift : Int := match n.exponent with
    | none => 0
    | some (false, ds) => magnitude ds
    | some (true, ds) => -(magnitude ds : Int)
  let x ← scale? significand.toUInt64.toFloat (power + shift)
  return if n.negative then -x else x

def value? (n : Numeral) : Option Number :=
  let size := magnitude n.whole
  if n.fraction = none ∧ n.exponent = none ∧
      (if n.negative then 0 < size ∧ size ≤ 0x8000000000000000
        else size < 0x10000000000000000) then
    some (.integer (if n.negative then -(size : Int) else size))
  else n.float?.map .float

end Numeral

end Chip8Launcher.Json
