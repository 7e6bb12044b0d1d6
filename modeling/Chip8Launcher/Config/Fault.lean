import Chip8Launcher.Text.Quoted

/-!
# Faults in a configuration

Why a configuration cannot be read although its notation is in order: a member is given twice,
or a value is of the wrong kind, or of the right kind but out of range.
-/

namespace Chip8Launcher.Config

/-- A value that was met in place of another. -/
inductive Found where
  | null
  /-- No value at all, where the notation has one for that. -/
  | nothing
  | bool (b : Bool)
  | integer (n : Int)
  /-- A double, as its notation writes it. -/
  | float (text : String)
  | string (text : String)
  | sequence
  | map
  /-- Any other value, by its description. -/
  | other (description : String)

def Found.text : Found → String
  | null => "null"
  | nothing => "unit value"
  | bool b => "boolean `" ++ (if b then "true" else "false") ++ "`"
  | integer n => "integer `" ++ toString n ++ "`"
  | float text => "floating point `" ++ text ++ "`"
  | string text => "string " ++ Text.quoted text
  | sequence => "sequence"
  | map => "map"
  | other description => description

inductive Expected where
  | config
  | palette
  | string
  | size
  deriving DecidableEq, Repr

def Expected.text : Expected → String
  | config => "struct BootConfig"
  | palette => "struct Palette"
  | string => "a string"
  | size => "u32"

inductive Fault where
  | duplicate (name : String)
  | invalidType (found : Found) (expected : Expected)
  | invalidValue (found : Found) (expected : Expected)

def Fault.message : Fault → String
  | duplicate name => "duplicate field `" ++ name ++ "`"
  | invalidType found expected => "invalid type: " ++ found.text ++ ", expected " ++ expected.text
  | invalidValue found expected =>
    "invalid value: " ++ found.text ++ ", expected " ++ expected.text

end Chip8Launcher.Config
