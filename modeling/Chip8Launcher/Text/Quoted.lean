import Chip8Launcher.Text.Unprintable
import Chip8Launcher.Text.GraphemeExtend

/-!
# Quoted text

A text as it is shown inside a message: between double quotes, with nothing in it that could
end the quotes, break the line or stay invisible.
-/

namespace Chip8Launcher.Text

/-- The number of `c` in lower-case hexadecimal, without zeros in front. -/
def numbered (c : Char) : List Char :=
  ['\\', 'u', '{'] ++ Nat.toDigits 16 c.toNat ++ ['}']

/-- The halfwidth sound marks have a cell of their own and are seen, unlike other extenders. -/
def isHalfwidthMark (c : Char) : Bool := 0xFF9E ≤ c.toNat && c.toNat ≤ 0xFF9F

/-- The Hangul fillers count as letters and show nothing. -/
def isHangulFiller (c : Char) : Bool :=
  c.toNat == 0x115F || c.toNat == 0x1160 || c.toNat == 0x3164 || c.toNat == 0xFFA0

/-- By itself, right after a quote, the character would not be seen as what it is. -/
def isHidden (c : Char) : Bool :=
  isUnprintable c || isHangulFiller c || (isGraphemeExtend c && !isHalfwidthMark c)

def escape (c : Char) : List Char :=
  if c = '\x00' then ['\\', '0']
  else if c = '\t' then ['\\', 't']
  else if c = '\r' then ['\\', 'r']
  else if c = '\n' then ['\\', 'n']
  else if c = '\\' ∨ c = '"' then ['\\', c]
  else if isHidden c then numbered c
  else [c]

def quoted (text : String) : String :=
  String.ofList (['"'] ++ text.toList.flatMap escape ++ ['"'])

end Chip8Launcher.Text
