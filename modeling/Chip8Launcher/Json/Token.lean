import Chip8Launcher.Json.Text
import Chip8Launcher.Json.Numeral

/-!
# Tokens and skipped values

`token?` reads what a value begins with: a scalar as a whole, an array or object only up to its
opening bracket.  `skipValue?` passes over one value of any kind and depth, of which nothing is
kept but that it is well formed.
-/

namespace Chip8Launcher.Json

inductive Token where
  | null
  | bool (b : Bool)
  | number (n : Number)
  | string (text : String)
  | openArray
  | openObject

def token? (s : List Char) : Option (Token × List Char) :=
  match skipBlanks s with
  | 'n' :: r => (after? ['u', 'l', 'l'] r).map (.null, ·)
  | 't' :: r => (after? ['r', 'u', 'e'] r).map (.bool true, ·)
  | 'f' :: r => (after? ['a', 'l', 's', 'e'] r).map (.bool false, ·)
  | '"' :: r => (string? r).map fun (cs, r) => (.string (String.ofList cs), r)
  | '[' :: r => some (.openArray, r)
  | '{' :: r => some (.openObject, r)
  | r => do
    let (numeral, r) ← Numeral.scan? r
    let n ← numeral.value?
    return (.number n, r)

theorem token?_length {s r : List Char} {t : Token} (h : token? s = some (t, r)) :
    r.length < s.length := by
  have hBlanks := skipBlanks_length s
  unfold token? at h
  split at h
  case h_4 =>
    simp only [Option.map_eq_some_iff, Prod.mk.injEq, Prod.exists] at h
    obtain ⟨_, _, hString, _, rfl⟩ := h
    have := string?_length hString
    simp_all only [List.length_cons]
    omega
  case h_7 =>
    simp only [Option.bind_eq_bind, Option.bind_eq_some_iff, Prod.exists, Option.pure_def,
      Option.some.injEq, Prod.mk.injEq] at h
    obtain ⟨_, _, hNumeral, _, _, _, rfl⟩ := h
    have := Numeral.scan?_length hNumeral
    omega
  case h_5 | h_6 =>
    simp only [Option.some.injEq, Prod.mk.injEq] at h
    simp_all only [List.length_cons]
    omega
  all_goals
    simp only [Option.map_eq_some_iff, Prod.mk.injEq] at h
    obtain ⟨_, hWord, _, rfl⟩ := h
    have := after?_length hWord
    simp_all only [List.length_cons]
    omega

/-- Passes over a value that is neither array nor object. -/
def skipScalar? (s : List Char) : Option (List Char) :=
  match s with
  | 'n' :: r => after? ['u', 'l', 'l'] r
  | 't' :: r => after? ['r', 'u', 'e'] r
  | 'f' :: r => after? ['a', 'l', 's', 'e'] r
  | '"' :: r => skipString? r
  | r => (Numeral.scan? r).map (·.2)

theorem skipScalar?_length {s r : List Char} (h : skipScalar? s = some r) :
    r.length < s.length := by
  unfold skipScalar? at h
  split at h
  case h_4 =>
    have := skipString?_length h
    simp only [List.length_cons]
    omega
  case h_5 =>
    simp only [Option.map_eq_some_iff, Prod.exists] at h
    obtain ⟨_, _, hNumeral, rfl⟩ := h
    exact Numeral.scan?_length hNumeral
  all_goals
    have := after?_length h
    simp only [List.length_cons]
    omega

/-- The two kinds of values that hold others. -/
inductive Nest where
  | array
  | object
  deriving DecidableEq, Repr

mutual

/-- Passes over a value.  The nests it stands in are `opened`, the innermost first, and the
reading goes on to the end of the outermost one. -/
def skipValue? (opened : List Nest) (s : List Char) : Option (List Char) :=
  match _hStart : skipBlanks s with
  | '[' :: r =>
    match _hFirst : skipBlanks r with
    | ']' :: r => skipClosed? opened r
    | _ => skipValue? (.array :: opened) r
  | '{' :: r =>
    match _hFirst : skipBlanks r with
    | '}' :: r => skipClosed? opened r
    | _ => skipMember? (.object :: opened) r
  | start =>
    match _hScalar : skipScalar? start with
    | none => none
    | some r => skipClosed? opened r
termination_by s.length
decreasing_by
  · have := length_lt_of_skipBlanks _hStart
    have := length_lt_of_skipBlanks _hFirst
    omega
  · exact length_lt_of_skipBlanks _hStart
  · have := length_lt_of_skipBlanks _hStart
    have := length_lt_of_skipBlanks _hFirst
    omega
  · exact length_lt_of_skipBlanks _hStart
  · have := skipBlanks_length s
    have := skipScalar?_length _hScalar
    simp_all only
    omega

/-- Passes over the name of a member, the colon and the member's value. -/
def skipMember? (opened : List Nest) (s : List Char) : Option (List Char) :=
  match _hStart : skipBlanks s with
  | '"' :: r =>
    match _hName : skipString? r with
    | none => none
    | some r =>
      match _hColon : skipBlanks r with
      | ':' :: r => skipValue? opened r
      | _ => none
  | _ => none
termination_by s.length
decreasing_by
  have := length_lt_of_skipBlanks _hStart
  have := skipString?_length _hName
  have := length_lt_of_skipBlanks _hColon
  omega

/-- Goes on after a value that has just ended. -/
def skipClosed? (opened : List Nest) (s : List Char) : Option (List Char) :=
  match opened with
  | [] => some s
  | .array :: opened =>
    match _hNext : skipBlanks s with
    | ',' :: r => skipValue? (.array :: opened) r
    | ']' :: r => skipClosed? opened r
    | _ => none
  | .object :: opened =>
    match _hNext : skipBlanks s with
    | ',' :: r => skipMember? (.object :: opened) r
    | '}' :: r => skipClosed? opened r
    | _ => none
termination_by s.length
decreasing_by all_goals exact length_lt_of_skipBlanks _hNext

end

/-- What is left after a skipped value is shorter; after the end of a value it is no longer. -/
theorem skip_length :
    (∀ opened s, ∀ r, skipValue? opened s = some r → r.length < s.length) ∧
    (∀ opened s, ∀ r, skipMember? opened s = some r → r.length < s.length) ∧
    (∀ opened s, ∀ r, skipClosed? opened s = some r → r.length ≤ s.length) := by
  apply skipValue?.mutual_induct
  all_goals
    intros
    rename_i h
    first
    | rw [skipValue?] at h
    | rw [skipMember?] at h
    | rw [skipClosed?] at h
    grind [→ length_lt_of_skipBlanks, → skipString?_length, → skipScalar?_length,
      skipBlanks_length]

theorem skipValue?_length {opened : List Nest} {s r : List Char}
    (h : skipValue? opened s = some r) : r.length < s.length :=
  skip_length.1 opened s r h

end Chip8Launcher.Json
