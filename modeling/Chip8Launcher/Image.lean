import Chip8Launcher.Hex

/-!
# Program images

An image is the bytes of a program as they came from disk.  It goes to memory from
`loadAddress` on and should end before `memorySize`; a longer one is kept all the same.
`hexdump` lists its first bytes, eight to a line, under the addresses they load at.
-/

namespace Chip8Launcher

structure Image where
  bytes : List UInt8
  deriving DecidableEq, Repr

namespace Image

def memorySize : Nat := 0x1000

def loadAddress : Nat := 0x200

/-- The longest image that ends before the end of memory. -/
def capacity : Nat := memorySize - loadAddress

def size (image : Image) : Nat := image.bytes.length

def isEmpty (image : Image) : Bool := image.bytes.isEmpty

def fits (image : Image) : Bool := image.size ≤ capacity

/-- The bytes in groups of eight; only the last group may be shorter. -/
def groups (bytes : List UInt8) : List (List UInt8) :=
  if bytes.isEmpty then []
  else bytes.take 8 :: groups (bytes.drop 8)
termination_by bytes.length
decreasing_by
  have := List.length_pos_iff.2 (by simpa using ‹¬bytes.isEmpty = true›)
  simp only [List.length_drop]
  omega

def dumpLine (line : Nat) (group : List UInt8) : List Char :=
  ['0', 'x'] ++ Hex.padded 3 (loadAddress + 8 * line) ++ [':', ' ']
    ++ [' '].intercalate (group.map Hex.byte)

/-- Lines are separated, not ended, so no bytes give no text. -/
def dump (image : Image) (limit : Nat) : List Char :=
  ['\n'].intercalate ((groups (image.bytes.take limit)).mapIdx dumpLine)

def hexdump (image : Image) (limit : Nat) : String := String.ofList (image.dump limit)

/-- The image in one line, its contents hidden. -/
def summary (image : Image) : String :=
  "Rom \x7b len: " ++ toString image.size ++ " \x7d"

/-- The summary with a line of its own for the length. -/
def summaryLines (image : Image) : String :=
  "Rom \x7b\n    len: " ++ toString image.size ++ ",\n\x7d"

end Image

end Chip8Launcher
