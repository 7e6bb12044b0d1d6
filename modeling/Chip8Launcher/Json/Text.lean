import Chip8Launcher.Hex

/-!
# Blanks, words and strings of JSON

The leaves of a JSON reader over lists of characters.  Each reader gives what it has read with
the rest of the text, or nothing where the text is malformed, and the rest is shorter than the
text (`string?_length`, `after?_length`).

`string?` reads a string for its value; `skipString?` only looks for its end, and so accepts
a surrogate that has no partner.
-/

namespace Chip8Launcher.Json

def isBlank (c : Char) : Bool := c = ' ' || c = '\t' || c = '\n' || c = '\r'

def skipBlanks (s : List Char) : List Char := s.dropWhile isBlank

theorem skipBlanks_length (s : List Char) : (skipBlanks s).length ≤ s.length :=
  (List.dropWhile_suffix isBlank).length_le

theorem length_lt_of_skipBlanks {s r : List Char} {c : Char} (h : skipBlanks s = c :: r) :
    r.length < s.length := by
  have := skipBlanks_length s
  rw [h, List.length_cons] at this
  exact this

/-- The text after `word`, if it begins with it. -/
def after? (word s : List Char) : Option (List Char) :=
  if word.isPrefixOf s then some (s.drop word.length) else none

theorem after?_length {word s r : List Char} (h : after? word s = some r) :
    r.length ≤ s.length := by
  unfold after? at h
  split at h
  · obtain rfl := Option.some.inj h
    simp
  · contradiction

/-- The letters that may follow a backslash and stand for one character. -/
def shortEscape? : Char → Option Char
  | '"' => some '"'
  | '\\' => some '\\'
  | '/' => some '/'
  | 'b' => some '\x08'
  | 'f' => some '\x0c'
  | 'n' => some '\n'
  | 'r' => some '\r'
  | 't' => some '\t'
  | _ => none

def isHighSurrogate (n : Nat) : Bool := 0xD800 ≤ n && n ≤ 0xDBFF

def isLowSurrogate (n : Nat) : Bool := 0xDC00 ≤ n && n ≤ 0xDFFF

/-- The character above `U+FFFF` that a pair of surrogates stands for. -/
def joinSurrogates (high low : Nat) : Char :=
  Char.ofNat (0x10000 + (high - 0xD800) * 0x400 + (low - 0xDC00))

/-- What follows a backslash.  A high surrogate must be followed by the escape of a low one. -/
def escape? : List Char → Option (Char × List Char)
  | 'u' :: a :: b :: c :: d :: rest => do
    let n ← Hex.word? a b c d
    if isLowSurrogate n then none
    else if isHighSurrogate n then
      match rest with
      | '\\' :: 'u' :: a :: b :: c :: d :: rest => do
        let low ← Hex.word? a b c d
        if isLowSurrogate low then some (joinSurrogates n low, rest) else none
      | _ => none
    else some (Char.ofNat n, rest)
  | c :: rest => (shortEscape? c).map (·, rest)
  | [] => none

theorem escape?_length {s r : List Char} {c : Char} (h : escape? s = some (c, r)) :
    r.length < s.length := by
  unfold escape? at h
  split at h
  · simp only [Option.bind_eq_bind, Option.bind_eq_some_iff] at h
    obtain ⟨n, _, h⟩ := h
    split at h
    · contradiction
    · split at h
      · split at h
        · simp only [Option.bind_eq_some_iff] at h
          obtain ⟨low, _, h⟩ := h
          split at h
          · simp only [Option.some.injEq, Prod.mk.injEq] at h
            simp [← h.2]
            omega
          · contradiction
        · contradiction
      · simp only [Option.some.injEq, Prod.mk.injEq] at h
        simp [← h.2]
        omega
  · simp only [Option.map_eq_some_iff, Prod.mk.injEq] at h
    obtain ⟨_, _, _, h⟩ := h
    simp [h]
  · contradiction

/-- Reads a string after its opening quote. -/
def string? (s : List Char) : Option (List Char × List Char) :=
  match s with
  | [] => none
  | '"' :: rest => some ([], rest)
  | '\\' :: rest =>
    match _hEscape : escape? rest with
    | none => none
    | some (c, rest) => (string? rest).map fun (cs, rest) => (c :: cs, rest)
  | c :: rest =>
    if c.toNat < 0x20 then none
    else (string? rest).map fun (cs, rest) => (c :: cs, rest)
termination_by s.length
decreasing_by
  · have := escape?_length _hEscape
    simp only [List.length_cons]
    omega
  · simp

theorem string?_length {s cs r : List Char} (h : string? s = some (cs, r)) :
    r.length < s.length := by
  fun_induction string? s generalizing cs with
  | case1 => contradiction
  | case2 =>
    simp only [Option.some.injEq, Prod.mk.injEq] at h
    simp [← h.2]
  | case3 => contradiction
  | case4 rest c rest' hEscape ih =>
    simp only [Option.map_eq_some_iff, Prod.mk.injEq, Prod.exists] at h
    obtain ⟨_, _, hRest, _, rfl⟩ := h
    have := escape?_length hEscape
    have := ih hRest
    simp only [List.length_cons]
    omega
  | case5 => contradiction
  | case6 c rest _ _ _ ih =>
    simp only [Option.map_eq_some_iff, Prod.mk.injEq, Prod.exists] at h
    obtain ⟨_, _, hRest, _, rfl⟩ := h
    have := ih hRest
    simp only [List.length_cons]
    omega

/-- Finds the end of a string after its opening quote. -/
def skipString? : List Char → Option (List Char)
  | [] => none
  | '"' :: rest => some rest
  | '\\' :: 'u' :: a :: b :: c :: d :: rest =>
    if (Hex.word? a b c d).isSome then skipString? rest else none
  | '\\' :: c :: rest => if (shortEscape? c).isSome then skipString? rest else none
  | c :: rest => if c.toNat < 0x20 || c = '\\' then none else skipString? rest

theorem skipString?_length {s r : List Char} (h : skipString? s = some r) :
    r.length < s.length := by
  fun_induction skipString? s with
  | case1 => contradiction
  | case2 => simp_all
  | case3 a b c d rest _ ih =>
    have := ih h
    simp only [List.length_cons]
    omega
  | case4 => contradiction
  | case5 c rest _ _ ih =>
    have := ih h
    simp only [List.length_cons]
    omega
  | case6 => contradiction
  | case7 => contradiction
  | case8 c rest _ _ _ _ ih =>
    have := ih h
    simp only [List.length_cons]
    omega

end Chip8Launcher.Json
