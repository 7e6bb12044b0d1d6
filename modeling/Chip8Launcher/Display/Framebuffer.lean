import Chip8Launcher.Display.Basic

/-!
# Framebuffers

A surface held in memory, column after column.  A new one is all background, so that blanking it to
the foreground shows.  `fill` clips its rectangle to the surface, which leaves a part that can be
painted (`fill?_isSome`), and `picture` is the surface as text, one line a row.
-/

namespace Chip8Launcher

structure Framebuffer where
  columns : UInt64
  rows : UInt64
  pixels : Array Shade
  size_eq : pixels.size = columns.toNat * rows.toNat
  deriving DecidableEq

namespace Framebuffer

def filled (columns rows : UInt64) (shade : Shade) : Framebuffer where
  columns := columns
  rows := rows
  pixels := Array.replicate (columns.toNat * rows.toNat) shade
  size_eq := by simp

/-- The product of the sizes must stay below `2 ^ 63`; a size of zero does not count in it. -/
def Creatable (columns rows : UInt64) : Prop :=
  max columns.toNat 1 * max rows.toNat 1 < 0x8000000000000000

instance (columns rows : UInt64) : Decidable (Creatable columns rows) :=
  inferInstanceAs (Decidable (_ < _))

def new? (columns rows : UInt64) : Option Framebuffer :=
  if Creatable columns rows then some (filled columns rows .background) else none

/-- The display of the machine, 64 by 32. -/
def standard : Framebuffer := filled 64 32 .background

def pixel? (screen : Framebuffer) (x y : Nat) : Option Shade :=
  if x < screen.columns.toNat ∧ y < screen.rows.toNat then
    screen.pixels[x * screen.rows.toNat + y]?
  else none

/-- Every pixel carries the foreground shade. -/
def isBlank (screen : Framebuffer) : Bool := screen.pixels.all (· == .foreground)

/-- Paints the columns from `left` up to `right` in the rows from `top` up to `bottom`.  A range that
runs backwards or leaves the surface is refused. -/
def paint? (screen : Framebuffer) (left right top bottom : Nat) (shade : Shade) :
    Option Framebuffer :=
  if left ≤ right ∧ right ≤ screen.columns.toNat ∧ top ≤ bottom ∧ bottom ≤ screen.rows.toNat then
    some { screen with
      pixels := screen.pixels.mapIdx fun i old =>
        let x := i / screen.rows.toNat
        let y := i % screen.rows.toNat
        if left ≤ x ∧ x < right ∧ top ≤ y ∧ y < bottom then shade else old
      size_eq := by simp [screen.size_eq] }
  else none

/-- A rectangle of which nothing is left on the surface is not painted at all. -/
def fill? (screen : Framebuffer) (request : Fill) : Option Framebuffer :=
  let left := request.rect.x.toNat
  let top := request.rect.y.toNat
  let right := min request.rect.right.toNat screen.columns.toNat
  let bottom := min request.rect.bottom.toNat screen.rows.toNat
  if right ≤ left ∨ bottom ≤ top then some screen
  else screen.paint? left right top bottom request.shade

/-- What is left of a rectangle is a part of the surface. -/
theorem fill?_isSome (screen : Framebuffer) (request : Fill) :
    (screen.fill? request).isSome = true := by
  unfold fill?
  dsimp only
  split
  · rfl
  · rw [paint?, if_pos (by omega)]
    rfl

def fill (screen : Framebuffer) (request : Fill) : Framebuffer :=
  (screen.fill? request).get (screen.fill?_isSome request)

def blank (screen : Framebuffer) : Framebuffer :=
  screen.fill (.blanking screen.columns screen.rows)

def glyph : Shade → Char
  | .foreground => '#'
  | .background => '.'

def rowText (screen : Framebuffer) (y : Nat) : List Char :=
  (List.range screen.columns.toNat).filterMap fun x => (screen.pixel? x y).map glyph

def text (screen : Framebuffer) : List Char :=
  ['\n'].intercalate ((List.range screen.rows.toNat).map screen.rowText)

def picture (screen : Framebuffer) : String := String.ofList screen.text

end Framebuffer

end Chip8Launcher
