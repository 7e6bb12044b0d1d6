import Chip8Launcher.Json.Token

/-!
# The grammar of JSON

Which texts are JSON values (`IsValue`), after RFC 8259: an array or object is a bracketed list
of pieces with commas between them, and blanks may stand around every piece.

The escape of a surrogate that has no partner belongs to the grammar, and so a string may be in
order (`IsString`) though no text is meant by it.  `Spells` says which text a string stands for,
if any.
-/

namespace Chip8Launcher.Json

def Blanks (s : List Char) : Prop := ∀ c ∈ s, isBlank c = true

/-! ### Numerals -/

def Digits (s : List Char) : Prop := s ≠ [] ∧ ∀ c ∈ s, c.isDigit = true

/-- Only zero itself begins with a zero. -/
def Whole (s : List Char) : Prop := Digits s ∧ (s.head? = some '0' → s.length = 1)

def FractionText (fraction : Option (List Char)) (s : List Char) : Prop :=
  match fraction with
  | none => s = []
  | some digits => Digits digits ∧ s = '.' :: digits

def ExponentText (exponent : Option (Bool × List Char)) (s : List Char) : Prop :=
  match exponent with
  | none => s = []
  | some (negative, digits) => Digits digits ∧
    ∃ mark sign, (mark = 'e' ∨ mark = 'E') ∧
      (if negative then sign = ['-'] else sign = [] ∨ sign = ['+']) ∧
      s = mark :: sign ++ digits

def NumeralText (n : Numeral) (s : List Char) : Prop :=
  ∃ fraction exponent, Whole n.whole ∧ FractionText n.fraction fraction ∧
    ExponentText n.exponent exponent ∧
    s = (if n.negative then ['-'] else []) ++ n.whole ++ fraction ++ exponent

/-! ### Strings -/

/-- What may stand between the quotes of a string. -/
inductive IsString : List Char → Prop where
  | nil : IsString []
  | plain {c : Char} {s : List Char} : 0x20 ≤ c.toNat → c ≠ '"' → c ≠ '\\' → IsString s →
      IsString (c :: s)
  | short {c : Char} {s : List Char} : (shortEscape? c).isSome → IsString s →
      IsString ('\\' :: c :: s)
  | unit {a b c d : Char} {s : List Char} : (Hex.word? a b c d).isSome → IsString s →
      IsString ('\\' :: 'u' :: a :: b :: c :: d :: s)

/-- The text that a string stands for. -/
inductive Spells : List Char → List Char → Prop where
  | nil : Spells [] []
  | plain {c : Char} {s text : List Char} : 0x20 ≤ c.toNat → c ≠ '"' → c ≠ '\\' →
      Spells s text → Spells (c :: s) (c :: text)
  | short {c meant : Char} {s text : List Char} : shortEscape? c = some meant → Spells s text →
      Spells ('\\' :: c :: s) (meant :: text)
  | unit {a b c d : Char} {n : Nat} {s text : List Char} : Hex.word? a b c d = some n →
      isLowSurrogate n = false → isHighSurrogate n = false → Spells s text →
      Spells ('\\' :: 'u' :: a :: b :: c :: d :: s) (Char.ofNat n :: text)
  | pair {a b c d a' b' c' d' : Char} {high low : Nat} {s text : List Char} :
      Hex.word? a b c d = some high → isHighSurrogate high = true →
      Hex.word? a' b' c' d' = some low → isLowSurrogate low = true → Spells s text →
      Spells ('\\' :: 'u' :: a :: b :: c :: d :: '\\' :: 'u' :: a' :: b' :: c' :: d' :: s)
        (joinSurrogates high low :: text)

theorem Spells.isString {body text : List Char} (h : Spells body text) : IsString body := by
  induction h with
  | nil => exact .nil
  | plain hControl hQuote hBackslash _ ih => exact .plain hControl hQuote hBackslash ih
  | short hShort _ ih => exact .short (Option.isSome_of_eq_some hShort) ih
  | unit hWord _ _ _ ih => exact .unit (Option.isSome_of_eq_some hWord) ih
  | pair hWord _ hWord' _ _ ih =>
    exact .unit (Option.isSome_of_eq_some hWord) (.unit (Option.isSome_of_eq_some hWord') ih)

/-- Without quotes, backslashes and control characters a text may stand for itself. -/
theorem spells_self {text : List Char}
    (h : ∀ c ∈ text, 0x20 ≤ c.toNat ∧ c ≠ '"' ∧ c ≠ '\\') : Spells text text := by
  induction text with
  | nil => exact .nil
  | cons c text ih =>
    obtain ⟨⟨hControl, hQuote, hBackslash⟩, hRest⟩ := List.forall_mem_cons.1 h
    exact .plain hControl hQuote hBackslash (ih hRest)

/-! ### Lists -/

variable {α : Type} {Piece : α → List Char → Prop}

/-- Pieces with commas between them. -/
inductive Listed (Piece : α → List Char → Prop) : List α → List Char → Prop where
  | one {x : α} {s : List Char} : Piece x s → Listed Piece [x] s
  | more {x : α} {xs : List α} {s rest : List Char} : Piece x s → Listed Piece xs rest →
      Listed Piece (x :: xs) (s ++ ',' :: rest)

inductive Bracketed (Piece : α → List Char → Prop) (left right : Char) :
    List α → List Char → Prop where
  | empty {s : List Char} : Blanks s → Bracketed Piece left right [] (left :: s ++ [right])
  | listed {xs : List α} {s : List Char} : Listed Piece xs s →
      Bracketed Piece left right xs (left :: s ++ [right])

/-- The text of a value in an array. -/
inductive ItemText : List Char → List Char → Prop where
  | mk {before behind value : List Char} : Blanks before → Blanks behind →
      ItemText value (before ++ value ++ behind)

/-- The text of a member, which is given by its string and the text of its value. -/
inductive MemberText : List Char × List Char → List Char → Prop where
  | mk {before name between first behind value : List Char} : Blanks before → Blanks between →
      Blanks first → Blanks behind →
      MemberText (name, value)
        (before ++ '"' :: name ++ '"' :: between ++ ':' :: first ++ value ++ behind)

def ArrayText : List (List Char) → List Char → Prop := Bracketed ItemText '[' ']'

def ObjectText : List (List Char × List Char) → List Char → Prop := Bracketed MemberText '{' '}'

/-! ### Values -/

inductive IsValue : List Char → Prop where
  | null : IsValue ['n', 'u', 'l', 'l']
  | true : IsValue ['t', 'r', 'u', 'e']
  | false : IsValue ['f', 'a', 'l', 's', 'e']
  | number {n : Numeral} {s : List Char} : NumeralText n s → IsValue s
  | string {s : List Char} : IsString s → IsValue ('"' :: s ++ ['"'])
  | array {items : List (List Char)} {s : List Char} : ArrayText items s →
      (∀ item ∈ items, IsValue item) → IsValue s
  | object {members : List (List Char × List Char)} {s : List Char} : ObjectText members s →
      (∀ member ∈ members, IsString member.1) → (∀ member ∈ members, IsValue member.2) →
      IsValue s

end Chip8Launcher.Json
