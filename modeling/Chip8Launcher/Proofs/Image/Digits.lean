import Chip8Launcher.Hex

/-!
# Numbers in hexadecimal digits

`Spells width n digits` says how a number is written: in lower-case digits, with no more zeros in
front than it takes to fill the width.  `spells_padded` says that `padded` writes so, and `number?`
reads such digits back.
-/

namespace Chip8Launcher.Hex

/-- The digits of lower case, in order. -/
def digits : List Char :=
  ['0', '1', '2', '3', '4', '5', '6', '7', '8', '9', 'a', 'b', 'c', 'd', 'e', 'f']

/-- Reads digits of either case; no digits at all spell zero. -/
def number? (text : List Char) : Option Nat :=
  text.foldlM (fun n c => (value? c).map (16 * n + ·)) 0

/-- Reads the two digits of a byte. -/
def byte? (text : List Char) : Option UInt8 :=
  if text.length = 2 then (number? text).map UInt8.ofNat else none

structure Spells (width n : Nat) (text : List Char) : Prop where
  lower : ∀ c ∈ text, c ∈ digits
  number : number? text = some n
  width_le : width ≤ text.length
  shortest : width < text.length → text.head? ≠ some '0'

theorem separators_not_mem_digits : ' ' ∉ digits ∧ ':' ∉ digits ∧ '\n' ∉ digits := by decide

/-! ### Without zeros in front -/

theorem value?_digitChar : ∀ d < 16, value? (Nat.digitChar d) = some d := by decide

theorem digitChar_mem : ∀ d < 16, Nat.digitChar d ∈ digits := by decide

theorem number?_concat (text : List Char) (c : Char) :
    number? (text ++ [c]) = (number? text).bind fun n => (value? c).map (16 * n + ·) := by
  simp [number?, List.foldlM_append]

theorem number?_toDigits (n : Nat) : number? (Nat.toDigits 16 n) = some n := by
  induction n using Nat.strongRecOn with
  | ind n ih =>
    rw [Nat.toDigits_eq_if (by decide)]
    split
    next hLt =>
      rw [← List.nil_append [n.digitChar], number?_concat, value?_digitChar n hLt]
      simp [number?]
    next =>
      rw [number?_concat, ih (n / 16) (by omega), value?_digitChar _ (Nat.mod_lt n (by decide)),
        Option.bind_some, Option.map_some, Nat.div_add_mod]

theorem mem_digits_of_toDigits (n : Nat) : ∀ c ∈ Nat.toDigits 16 n, c ∈ digits := by
  induction n using Nat.strongRecOn with
  | ind n ih =>
    intro c hc
    rw [Nat.toDigits_eq_if (by decide)] at hc
    split at hc
    next hLt =>
      rw [List.mem_singleton.1 hc]
      exact digitChar_mem n hLt
    next =>
      rcases List.mem_append.1 hc with hc | hc
      · exact ih (n / 16) (by omega) c hc
      · rw [List.mem_singleton.1 hc]
        exact digitChar_mem _ (Nat.mod_lt n (by decide))

/-- Only zero itself begins with a zero, in any base. -/
theorem head?_toDigits {base n : Nat} (hBase : 1 < base) (hPos : 0 < n) :
    (Nat.toDigits base n).head? ≠ some '0' := by
  induction n using Nat.strongRecOn with
  | ind n ih =>
    rw [Nat.toDigits_eq_if hBase]
    split
    next => simp; omega
    next hLarge =>
      have hQuotient : 0 < n / base := Nat.div_pos (Nat.le_of_not_lt hLarge) (by omega)
      have hFirst := ih (n / base) (Nat.div_lt_self hPos hBase) hQuotient
      obtain ⟨c, rest, hDigits⟩ := List.exists_cons_of_ne_nil (Nat.toDigits_ne_nil (b := base))
      rw [hDigits] at hFirst ⊢
      exact hFirst

/-! ### Filled up with zeros -/

theorem number?_zeros (k : Nat) (text : List Char) :
    number? (List.replicate k '0' ++ text) = number? text := by
  induction k with
  | zero => rfl
  | succ k ih => exact ih

theorem length_padded (width n : Nat) :
    (padded width n).length = max width (Nat.toDigits 16 n).length := by
  simp only [padded, List.length_append, List.length_replicate]
  omega

theorem spells_padded {width n : Nat} (hWidth : 0 < width) : Spells width n (padded width n) where
  lower := by
    intro c hc
    rcases List.mem_append.1 hc with hc | hc
    · rw [(List.mem_replicate.1 hc).2]
      decide
    · exact mem_digits_of_toDigits n c hc
  number := (number?_zeros _ _).trans (number?_toDigits n)
  width_le := by
    rw [length_padded]
    omega
  shortest := by
    intro hLonger
    rw [length_padded] at hLonger
    have hNone : width - (Nat.toDigits 16 n).length = 0 := by omega
    have hPos : 0 < n := by
      refine Nat.pos_of_ne_zero ?_
      rintro rfl
      rw [Nat.toDigits_zero, List.length_singleton] at hLonger
      omega
    rw [padded, hNone]
    exact head?_toDigits (by decide) hPos

@[simp] theorem length_byte (b : UInt8) : (byte b).length = 2 := by
  have hTwo : (Nat.toDigits 16 b.toNat).length ≤ 2 :=
    (Nat.length_toDigits_le_iff (by decide) (by decide)).2 b.toNat_lt
  rw [byte, length_padded]
  omega

theorem spells_byte (b : UInt8) : Spells 2 b.toNat (byte b) := spells_padded (by decide)

theorem byte?_byte (b : UInt8) : byte? (byte b) = some b := by
  rw [byte?, if_pos (length_byte b), (spells_byte b).number, Option.map_some, UInt8.ofNat_toNat]

end Chip8Launcher.Hex
