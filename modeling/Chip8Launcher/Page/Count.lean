import Chip8Launcher.Display.Basic

/-!
# Counts in a page

A page has only doubles for its numbers, and a double keeps fifty-three binary digits.  A count
with more of them becomes the nearest double, and of two equally near ones the one with an even
last digit.  Counts up to `2 ^ 53` stay what they are, and the greatest ones, whose double lies
beyond all words, end at the largest word.
-/

namespace Chip8Launcher

/-- The distance of neighbouring doubles at `n`, or one where they are closer than that. -/
def Page.spacing (n : Nat) : Nat := Nat.pow 2 (n.log2 - 52)

/-- The multiple of `step` next to `n`; half way between two it is the even one. -/
def Page.nearestMultiple (step n : Nat) : Nat :=
  let below := n / step
  let rest := n % step
  (if 2 * rest < step ∨ 2 * rest = step ∧ below % 2 = 0 then below else below + 1) * step

def Page.count (n : Nat) : Nat :=
  let double := nearestMultiple (spacing n) n
  if double < 0x10000000000000000 then double else 0xFFFFFFFFFFFFFFFF

theorem Page.spacing_of_lt {n : Nat} (h : n < 0x20000000000000) : spacing n = 1 := by
  have hLog : n.log2 ≤ 52 := by
    by_cases hZero : n = 0
    · subst hZero
      exact Nat.zero_le _
    · exact Nat.le_of_lt_succ ((Nat.log2_lt hZero).2 h)
  rw [spacing, Nat.sub_eq_zero_of_le hLog]

theorem Page.nearestMultiple_one (n : Nat) : nearestMultiple 1 n = n := by
  simp [nearestMultiple, Nat.mod_one]

/-- What fits a double is not changed. -/
theorem Page.count_of_lt {n : Nat} (h : n < 0x20000000000000) : count n = n := by
  rw [count, spacing_of_lt h, nearestMultiple_one]
  exact if_pos (by omega)

/-- The rectangle as a page is given it. -/
def Rect.counted (r : Rect) : Rect where
  x := (Page.count r.x.toNat).toUInt64
  y := (Page.count r.y.toNat).toUInt64
  width := (Page.count r.width.toNat).toUInt64
  height := (Page.count r.height.toNat).toUInt64

end Chip8Launcher
