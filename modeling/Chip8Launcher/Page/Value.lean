import Chip8Launcher.Decimal.Layout
import Chip8Launcher.Hex

/-!
# Values of a page

What a page may hand over as a configuration, throw from an engine or reject a read with.
`describe` is the text such a value gets in a message.
-/

namespace Chip8Launcher

inductive Value where
  | undefined
  | null
  | bool (b : Bool)
  | number (x : Float)
  | string (text : String)
  | array (items : List Value)
  | object (members : List (String × Value))
  | error (name message : String)
  | bytes (data : List UInt8)
  | function (name : String)

namespace Value

/-- Numbers are written positionally from `0.000001` on and below `10 ^ 21`. -/
def numberLayout : Layout := ⟨-6, 20, false, 1, false⟩

def boolText (b : Bool) : String := if b then "true" else "false"

/-- One character inside the quotes of JSON. -/
def jsonEscape (c : Char) : List Char :=
  if c = '"' ∨ c = '\\' then ['\\', c]
  else if c = '\x08' then ['\\', 'b']
  else if c = '\x0c' then ['\\', 'f']
  else if c = '\n' then ['\\', 'n']
  else if c = '\r' then ['\\', 'r']
  else if c = '\t' then ['\\', 't']
  else if c.toNat < 0x20 then ['\\', 'u'] ++ Hex.padded 4 c.toNat
  else [c]

def jsonString (text : String) : String :=
  String.ofList (['"'] ++ text.toList.flatMap jsonEscape ++ ['"'])

mutual

/-- The value as JSON without blanks.  A value that JSON does not know has no text. -/
def json? : Value → Option String
  | undefined => none
  | null => some "null"
  | bool b => some (boolText b)
  | number x => some (numberLayout.write x)
  | string text => some (jsonString text)
  | array items => some ("[" ++ ",".intercalate (jsonItems items) ++ "]")
  | object members => some ("\x7b" ++ ",".intercalate (jsonMembers members) ++ "\x7d")
  | error _ _ => some "\x7b\x7d"
  | bytes data =>
    let members := data.mapIdx fun i b => jsonString (toString i) ++ ":" ++ toString b.toNat
    some ("\x7b" ++ ",".intercalate members ++ "\x7d")
  | function _ => none

/-- In an array a value without text is written as `null`. -/
def jsonItems : List Value → List String
  | [] => []
  | item :: items => (json? item).getD "null" :: jsonItems items

/-- A member whose value has no text is left out. -/
def jsonMembers : List (String × Value) → List String
  | [] => []
  | (name, value) :: members =>
    match json? value with
    | some text => (jsonString name ++ ":" ++ text) :: jsonMembers members
    | none => jsonMembers members

end

mutual

/-- What is shown of a value: an array shows its items, other compound values their kind. -/
def inspect : Value → String
  | undefined => "undefined"
  | null => "null"
  | bool b => boolText b
  | number x => numberLayout.write x
  | string text => "\"" ++ text ++ "\""
  | array items => "[" ++ ", ".intercalate (inspectItems items) ++ "]"
  | object members => "Object(" ++ (json? (object members)).getD "" ++ ")"
  | error name message => name ++ ": " ++ message
  | bytes _ => "Uint8Array"
  | function name => if name = "" then "Function" else "Function(" ++ name ++ ")"

def inspectItems : List Value → List String
  | [] => []
  | item :: items => inspect item :: inspectItems items

end

def wrapped (value : Value) : String := "JsValue(" ++ value.inspect ++ ")"

/-- A string speaks for itself, and an error by its name and message. -/
def describe : Value → String
  | string text => text
  | error name message => name ++ ": " ++ message
  | value => value.wrapped

end Value

end Chip8Launcher
