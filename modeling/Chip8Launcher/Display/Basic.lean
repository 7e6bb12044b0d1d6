import Chip8Launcher.Log

/-!
# Shades, rectangles and fills

What can be asked of a surface.  Coordinates are 64-bit words, and the far ends of a rectangle
stop at the largest word instead of wrapping round.
-/

namespace Chip8Launcher

/-- The two tones of a surface.  A surface rests in its foreground shade. -/
inductive Shade where
  | foreground
  | background
  deriving DecidableEq, Repr, Inhabited

structure Rect where
  x : UInt64
  y : UInt64
  width : UInt64
  height : UInt64
  deriving DecidableEq, Repr

namespace Rect

def full (columns rows : UInt64) : Rect := ⟨0, 0, columns, rows⟩

/-- `a + b`, or the largest word where the sum is larger than that. -/
def reach (a b : UInt64) : UInt64 := if a + b < a then 0xFFFFFFFFFFFFFFFF else a + b

def right (r : Rect) : UInt64 := reach r.x r.width

def bottom (r : Rect) : UInt64 := reach r.y r.height

end Rect

/-- One request to paint a rectangle. -/
structure Fill where
  rect : Rect
  shade : Shade
  deriving DecidableEq, Repr

/-- The request that blanks a whole surface. -/
def Fill.blanking (columns rows : UInt64) : Fill := ⟨.full columns rows, .foreground⟩

/-- Logged before a surface is blanked. -/
def Fill.blankingEntry (columns rows : UInt64) : Log.Entry :=
  .debug ("blanking " ++ toString columns.toNat ++ "x" ++ toString rows.toNat ++ " surface")

end Chip8Launcher
