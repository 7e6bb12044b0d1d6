import Chip8Launcher.Config.Basic
import Chip8Launcher.Config.Fault
import Chip8Launcher.Page.Value

/-!
# Configurations among the values of a page

Any object will do as a record, and only the fields are looked at, in their order, so the
first bad field is the fault.  A field that is absent has its standard value, but one that is
there must be of its kind, and `undefined` is not.
-/

namespace Chip8Launcher

open Config

namespace Value

/-- No double has its first digit beyond these powers of ten, so all are written positionally,
and always with a fraction. -/
def plainLayout : Layout := ⟨-324, 308, true, 1, true⟩

/-- What a value is called where another was expected. -/
def found : Value → Found
  | undefined => .nothing
  | null => .nothing
  | bool b => .bool b
  | number x => .float (plainLayout.write x)
  | string text => .string text
  | value => .other value.wrapped

/-- The members of an object; objects of special kinds have none of interest. -/
def members (expected : Expected) : Value → Except Fault (List (String × Value))
  | object members => .ok members
  | array _ => .ok []
  | error _ _ => .ok []
  | bytes _ => .ok []
  | value => .error (.invalidType value.found expected)

def toText : Value → Except Fault String
  | string text => .ok text
  | value => .error (.invalidType value.found .string)

/-- The number as a natural one, if it is whole, not negative and below `2 ^ 53`. -/
def natural? (x : Float) : Option Nat :=
  if 0 ≤ x ∧ x ≤ 9007199254740991 ∧ x.floor == x then some x.toUInt64.toNat else none

def toSize (value : Value) : Except Fault UInt32 :=
  match value with
  | number x =>
    match natural? x with
    | some n =>
      if n < 0x100000000 then .ok n.toUInt32 else .error (.invalidValue (.integer n) .size)
    | none => .error (.invalidType value.found .size)
  | value => .error (.invalidType value.found .size)

end Value

namespace Config

/-- The field of that name, or its standard value. -/
def field {α : Type} (members : List (String × Value)) (name : String)
    (read : Value → Except Fault α) (standard : α) : Except Fault α :=
  match members.lookup name with
  | some value => read value
  | none => .ok standard

end Config

def Palette.ofValue (value : Value) : Except Fault Palette := do
  let members ← value.members .palette
  let foreground ← field members "foreground" Value.toText Palette.standard.foreground
  let background ← field members "background" Value.toText Palette.standard.background
  return ⟨foreground, background⟩

def Config.ofMembers (members : List (String × Value)) : Except Fault Config := do
  let surfaceId ← field members "surfaceId" Value.toText standard.surfaceId
  let selectorId ← field members "selectorId" Value.toText standard.selectorId
  let width ← field members "width" Value.toSize standard.width
  let height ← field members "height" Value.toSize standard.height
  let palette ← field members "palette" Palette.ofValue standard.palette
  let logLevel ← field members "logLevel" Value.toText standard.logLevel
  return ⟨surfaceId, selectorId, width, height, palette, logLevel⟩

/-- No value at all stands for the standard configuration. -/
def Config.ofValue : Value → Except Fault Config
  | .undefined => .ok standard
  | .null => .ok standard
  | value => value.members .config >>= ofMembers

end Chip8Launcher
