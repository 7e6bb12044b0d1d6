import Chip8Launcher.Proofs.Image.Digits
import Chip8Launcher.Proofs.Json.Grammar

/-!
# Integers in decimal digits

A numeral with neither fraction nor exponent is the usual notation of an integer (`Numeral.signed`):
its digits have no zeros in front, so that they are what the integer is printed as
(`toString_signed`).  Only minus zero is printed in another way.
-/

namespace Chip8Launcher.Json.Numeral

/-- The integer that the sign and the digits before the point stand for. -/
def signed (n : Numeral) : Int :=
  if n.negative then -(magnitude n.whole : Int) else magnitude n.whole

variable {ds : List Char} {numeral : Numeral} {literal : List Char}

theorem digitChar_digitValue {c : Char} (h : c.isDigit = true) :
    digitValue c < 10 ∧ Nat.digitChar (digitValue c) = c := by
  have hRange : 48 ≤ c.toNat ∧ c.toNat ≤ 57 := by
    simpa [Char.isDigit, UInt32.le_iff_toNat_le] using h
  have hValue : digitValue c = c.toNat - 48 := rfl
  have hLt : digitValue c < 10 := by omega
  refine ⟨hLt, Char.toNat_inj.1 ?_⟩
  rw [Nat.toNat_digitChar_of_lt_ten hLt]
  omega

/-- Digits behind a number that is not zero are the last digits of the longer number. -/
theorem toDigits_append (hDigits : ∀ c ∈ ds, c.isDigit = true) {total : Nat} (hPos : 0 < total) :
    Nat.toDigits 10 total ++ ds =
      Nat.toDigits 10 (ds.foldl (fun total c => total * 10 + digitValue c) total) := by
  induction ds generalizing total with
  | nil => exact List.append_nil _
  | cons c ds ih =>
    obtain ⟨hDigit, hRest⟩ := List.forall_mem_cons.1 hDigits
    obtain ⟨hLt, hChar⟩ := digitChar_digitValue hDigit
    have hNext : Nat.toDigits 10 total ++ [c] = Nat.toDigits 10 (total * 10 + digitValue c) := by
      rw [Nat.mul_comm, ← Nat.toDigits_append_toDigits (by decide) hPos hLt,
        Nat.toDigits_of_lt_base hLt, hChar]
    rw [List.append_cons, hNext, ih hRest (by omega), List.foldl_cons]

/-- The digits of a numeral are the digits of its number. -/
theorem toDigits_magnitude (h : Whole ds) : Nat.toDigits 10 (magnitude ds) = ds := by
  obtain ⟨⟨hNe, hDigits⟩, hZero⟩ := h
  obtain ⟨c, rest, rfl⟩ := List.exists_cons_of_ne_nil hNe
  obtain ⟨hDigit, hRest⟩ := List.forall_mem_cons.1 hDigits
  obtain ⟨hLt, hChar⟩ := digitChar_digitValue hDigit
  by_cases hc : c = '0'
  · subst hc
    obtain rfl := List.length_eq_zero_iff.1 (Nat.succ.inj (hZero rfl))
    rfl
  · have hPos : 0 < digitValue c := by
      refine Nat.pos_of_ne_zero fun hNull => hc ?_
      rw [← hChar, hNull]
      rfl
    have hFirst : magnitude (c :: rest) =
        rest.foldl (fun total c => total * 10 + digitValue c) (digitValue c) := by
      rw [magnitude, List.foldl_cons, Nat.zero_mul, Nat.zero_add]
    rw [hFirst, ← toDigits_append hRest hPos, Nat.toDigits_of_lt_base hLt, hChar,
      List.singleton_append]

/-- Without fraction and exponent there are only the sign and the digits. -/
theorem literal_eq (h : NumeralText numeral literal) (hFraction : numeral.fraction = none)
    (hExponent : numeral.exponent = none) :
    literal = (if numeral.negative then ['-'] else []) ++ numeral.whole := by
  obtain ⟨f, e, -, hF, hE, rfl⟩ := h
  rw [hFraction] at hF
  rw [hExponent] at hE
  obtain rfl : f = [] := hF
  obtain rfl : e = [] := hE
  rw [List.append_nil, List.append_nil]

/-- An integer is printed as it was written. -/
theorem toString_signed (h : NumeralText numeral literal) (hFraction : numeral.fraction = none)
    (hExponent : numeral.exponent = none)
    (hZero : ¬(numeral.negative = true ∧ magnitude numeral.whole = 0)) :
    toString numeral.signed = String.ofList literal := by
  have hWhole : Whole numeral.whole := by
    obtain ⟨_, _, hWhole, -⟩ := h
    exact hWhole
  have hDigits : Nat.repr (magnitude numeral.whole) = String.ofList numeral.whole := by
    rw [Nat.repr_eq_ofList_toDigits, toDigits_magnitude hWhole]
  rw [literal_eq h hFraction hExponent, signed]
  cases hSign : numeral.negative with
  | false => exact hDigits
  | true =>
    obtain ⟨n, hn⟩ := Nat.exists_eq_succ_of_ne_zero fun hNull => hZero ⟨hSign, hNull⟩
    rw [hn] at hDigits ⊢
    show "-" ++ Nat.repr (n + 1) = String.ofList (['-'] ++ numeral.whole)
    rw [hDigits, String.ofList_append]

/-! ### Integers to the reader -/

/-- The integers are those of 64 bits, signed or not, and minus zero is none of them. -/
theorem value?_eq_integer {n : Int} :
    numeral.value? = some (.integer n) ↔ numeral.fraction = none ∧ numeral.exponent = none ∧
      n = numeral.signed ∧ -9223372036854775808 ≤ n ∧ n < 18446744073709551616 ∧
      ¬(numeral.negative = true ∧ magnitude numeral.whole = 0) := by
  have hRange : (if numeral.negative = true then
        0 < magnitude numeral.whole ∧ magnitude numeral.whole ≤ 0x8000000000000000
      else magnitude numeral.whole < 0x10000000000000000) ↔
      -9223372036854775808 ≤ numeral.signed ∧ numeral.signed < 18446744073709551616 ∧
        ¬(numeral.negative = true ∧ magnitude numeral.whole = 0) := by
    rw [signed]
    cases numeral.negative with
    | true =>
      simp only [if_true, true_and]
      omega
    | false =>
      simp only [Bool.false_eq_true, if_false, false_and, not_false_eq_true, and_true]
      omega
  by_cases hInteger : numeral.fraction = none ∧ numeral.exponent = none ∧
      (if numeral.negative = true then
        0 < magnitude numeral.whole ∧ magnitude numeral.whole ≤ 0x8000000000000000
      else magnitude numeral.whole < 0x10000000000000000)
  · rw [value?, if_pos hInteger]
    obtain ⟨hFraction, hExponent, hSigned⟩ := hInteger
    constructor
    · intro h
      obtain rfl := Number.integer.inj (Option.some.inj h)
      exact ⟨hFraction, hExponent, rfl, hRange.1 hSigned⟩
    · rintro ⟨-, -, rfl, -⟩
      rfl
  · rw [value?, if_neg hInteger]
    constructor
    · intro h
      obtain ⟨_, -, hEq⟩ := Option.map_eq_some_iff.1 h
      cases hEq
    · rintro ⟨hFraction, hExponent, rfl, hSigned⟩
      exact absurd ⟨hFraction, hExponent, hRange.2 hSigned⟩ hInteger

end Chip8Launcher.Json.Numeral
