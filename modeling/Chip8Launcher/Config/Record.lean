import Chip8Launcher.Config.Fault
import Chip8Launcher.Decimal.Layout
import Chip8Launcher.Json.Token

/-!
# Records in JSON text

A record is written as an object, its members in any order, or as an array, its values in the
order of the fields.  Fields that are left out keep the value they had, and members of other
names are passed over.

The text is read from left to right and the first problem ends the reading, so a fault wins
over malformed text that comes after it.  A field given twice is noticed at its second name.
-/

namespace Chip8Launcher.Config

open Json

/-- Why a text gives no record. -/
inductive Rejection where
  | malformed
  | fault (fault : Fault)

/-- How one field of a record is read from the front of a text. -/
structure FieldReader (α : Type) where
  name : String
  read : α → List Char → Except Rejection (α × List Char)
  read_length : ∀ {a b s r}, read a s = .ok (b, r) → r.length < s.length

/-- Doubles are written positionally from `0.00001` on and below `10 ^ 16`, always with a
fraction, and else with a signed exponent. -/
def floatLayout : Layout := ⟨-5, 15, true, 1, true⟩

/-- What a token is called where another was expected. -/
def found : Token → Found
  | .null => .null
  | .bool b => .bool b
  | .number (.integer n) => .integer n
  | .number (.float x) => .float (floatLayout.write x)
  | .string text => .string text
  | .openArray => .sequence
  | .openObject => .map

def readString (s : List Char) : Except Rejection (String × List Char) :=
  match token? s with
  | none => .error .malformed
  | some (.string text, r) => .ok (text, r)
  | some (t, _) => .error (.fault (.invalidType (found t) .string))

/-- A size is written without fraction and exponent, and fits 32 bits. -/
def readSize (s : List Char) : Except Rejection (UInt32 × List Char) :=
  match token? s with
  | none => .error .malformed
  | some (.number (.integer n), r) =>
    if 0 ≤ n ∧ n < 0x100000000 then .ok (n.toNat.toUInt32, r)
    else .error (.fault (.invalidValue (.integer n) .size))
  | some (t, _) => .error (.fault (.invalidType (found t) .size))

theorem readString_length {s r : List Char} {text : String}
    (h : readString s = .ok (text, r)) : r.length < s.length := by
  unfold readString at h
  split at h
  · contradiction
  · rename_i hToken
    simp only [Except.ok.injEq, Prod.mk.injEq] at h
    exact h.2 ▸ token?_length hToken
  · contradiction

theorem readSize_length {s r : List Char} {n : UInt32}
    (h : readSize s = .ok (n, r)) : r.length < s.length := by
  unfold readSize at h
  split at h
  · contradiction
  · rename_i hToken
    split at h
    · simp only [Except.ok.injEq, Prod.mk.injEq] at h
      exact h.2 ▸ token?_length hToken
    · contradiction
  · contradiction

variable {α β : Type}

/-- The field of that name, whose value is read by `read` and put in place by `set`. -/
def FieldReader.ofRead (name : String) (read : List Char → Except Rejection (β × List Char))
    (read_length : ∀ {b s r}, read s = .ok (b, r) → r.length < s.length) (set : α → β → α) :
    FieldReader α where
  name := name
  read a s := (read s).map fun (b, r) => (set a b, r)
  read_length {a b s r} h := by
    cases hRead : read s with
    | error e => simp [hRead, Except.map] at h
    | ok p =>
      simp only [hRead, Except.map, Except.ok.injEq, Prod.mk.injEq] at h
      exact h.2 ▸ read_length hRead

def FieldReader.string (name : String) (set : α → String → α) : FieldReader α :=
  .ofRead name readString readString_length set

def FieldReader.size (name : String) (set : α → UInt32 → α) : FieldReader α :=
  .ofRead name readSize readSize_length set

/-- Reads on behind the value of an array's last field so far. -/
def readFurther (a : α) : List (FieldReader α) → List Char → Except Rejection (α × List Char)
  | fields, s =>
    match fields, skipBlanks s with
    | _, ']' :: r => .ok (a, r)
    | field :: fields, ',' :: r =>
      match field.read a r with
      | .error e => .error e
      | .ok (a, r) => readFurther a fields r
    | _, _ => .error .malformed

/-- Reads a record's array behind its opening bracket. -/
def readArray (a : α) (fields : List (FieldReader α)) (s : List Char) :
    Except Rejection (α × List Char) :=
  match fields, skipBlanks s with
  | _, ']' :: r => .ok (a, r)
  | field :: fields, _ =>
    match field.read a s with
    | .error e => .error e
    | .ok (a, r) => readFurther a fields r
  | [], _ => .error .malformed

/-- Reads a member's value: into its field, or over it if no field has the name. -/
def readValue (fields : List (FieldReader α)) (name : String) (a : α) (s : List Char) :
    Except Rejection (α × List Char) :=
  match fields.find? (·.name == name) with
  | some field => field.read a s
  | none =>
    match skipValue? [] s with
    | none => .error .malformed
    | some r => .ok (a, r)

theorem readValue_length {fields : List (FieldReader α)} {name : String} {a b : α}
    {s r : List Char} (h : readValue fields name a s = .ok (b, r)) : r.length < s.length := by
  unfold readValue at h
  split at h
  · rename_i field _
    exact field.read_length h
  · split at h
    · contradiction
    · rename_i hSkip
      simp only [Except.ok.injEq, Prod.mk.injEq] at h
      exact h.2 ▸ skipValue?_length hSkip

/-- Reads members from a name on; `seen` are the names that came before. -/
def readMembers (fields : List (FieldReader α)) (seen : List String) (a : α) (s : List Char) :
    Except Rejection (α × List Char) :=
  match _hStart : skipBlanks s with
  | '"' :: r =>
    match _hName : string? r with
    | none => .error .malformed
    | some (cs, r) =>
      let name := String.ofList cs
      if fields.any (·.name == name) && seen.contains name then
        .error (.fault (.duplicate name))
      else
        match _hColon : skipBlanks r with
        | ':' :: r =>
          match _hValue : readValue fields name a r with
          | .error e => .error e
          | .ok (a, r) =>
            match _hNext : skipBlanks r with
            | ',' :: r => readMembers fields (name :: seen) a r
            | '}' :: r => .ok (a, r)
            | _ => .error .malformed
        | _ => .error .malformed
  | _ => .error .malformed
termination_by s.length
decreasing_by
  have := length_lt_of_skipBlanks _hStart
  have := string?_length _hName
  have := length_lt_of_skipBlanks _hColon
  have := readValue_length _hValue
  have := length_lt_of_skipBlanks _hNext
  omega

/-- Reads a record's object behind its opening bracket. -/
def readObject (a : α) (fields : List (FieldReader α)) (s : List Char) :
    Except Rejection (α × List Char) :=
  match skipBlanks s with
  | '}' :: r => .ok (a, r)
  | _ => readMembers fields [] a s

/-- Reads a record whose fields start out as they are in `a`. -/
def readRecord (expected : Expected) (a : α) (fields : List (FieldReader α)) (s : List Char) :
    Except Rejection (α × List Char) :=
  match token? s with
  | none => .error .malformed
  | some (.openArray, r) => readArray a fields r
  | some (.openObject, r) => readObject a fields r
  | some (t, _) => .error (.fault (.invalidType (found t) expected))

theorem readFurther_length {a b : α} {fields : List (FieldReader α)} {s r : List Char}
    (h : readFurther a fields s = .ok (b, r)) : r.length < s.length := by
  fun_induction readFurther a fields s with
  | case1 a s _ r' hStart =>
    have := length_lt_of_skipBlanks hStart
    simp_all
  | case2 => contradiction
  | case3 a s field fields r' hStart a' r'' hRead ih =>
    have := length_lt_of_skipBlanks hStart
    have := field.read_length hRead
    have := ih h
    omega
  | case4 => contradiction

theorem readArray_length {a b : α} {fields : List (FieldReader α)} {s r : List Char}
    (h : readArray a fields s = .ok (b, r)) : r.length < s.length := by
  unfold readArray at h
  split at h
  · rename_i hStart
    have := length_lt_of_skipBlanks hStart
    simp_all
  · split at h
    · contradiction
    · rename_i hRead
      have := FieldReader.read_length _ hRead
      have := readFurther_length h
      omega
  · contradiction

theorem readMembers_length {fields : List (FieldReader α)} {seen : List String} {a b : α}
    {s r : List Char} (h : readMembers fields seen a s = .ok (b, r)) : r.length < s.length := by
  fun_induction readMembers fields seen a s <;>
    grind [→ length_lt_of_skipBlanks, → string?_length, → readValue_length]

theorem readRecord_length {expected : Expected} {a b : α} {fields : List (FieldReader α)}
    {s r : List Char} (h : readRecord expected a fields s = .ok (b, r)) :
    r.length < s.length := by
  unfold readRecord at h
  split at h
  · contradiction
  · rename_i hToken
    have := token?_length hToken
    have := readArray_length h
    omega
  · rename_i hToken
    have := token?_length hToken
    unfold readObject at h
    split at h
    · rename_i hStart
      have := length_lt_of_skipBlanks hStart
      simp_all
      omega
    · have := readMembers_length h
      omega
  · contradiction

/-- Reads a whole text; behind the value only blanks may follow. -/
def readWhole (read : List Char → Except Rejection (α × List Char)) (text : String) :
    Except Rejection α :=
  match read text.toList with
  | .error e => .error e
  | .ok (a, r) => if skipBlanks r = [] then .ok a else .error .malformed

end Chip8Launcher.Config
