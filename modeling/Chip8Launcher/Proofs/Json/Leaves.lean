import Mathlib.Data.List.TakeWhile
import Chip8Launcher.Proofs.Json.Grammar

/-!
# The leaves of the reader

Blanks, words, numerals and strings are read as the grammar has them.  Words and strings show
where they end; a numeral ends before a text that cannot go on with it (`Stops`).
-/

namespace Chip8Launcher.Json

/-! ### Blanks -/

theorem blanks_nil : Blanks [] := fun _ h => nomatch h

theorem eq_of_skipBlanks {s r : List Char} (h : skipBlanks s = r) :
    ∃ blanks, s = blanks ++ r ∧ Blanks blanks := by
  refine ⟨s.takeWhile isBlank, ?_, fun c hc => List.mem_takeWhile_imp hc⟩
  rw [← h, skipBlanks, List.takeWhile_append_dropWhile]

theorem skipBlanks_append {blanks : List Char} (h : Blanks blanks) (s : List Char) :
    skipBlanks (blanks ++ s) = skipBlanks s :=
  List.dropWhile_append_of_pos h

theorem skipBlanks_cons {c : Char} (h : isBlank c = false) (s : List Char) :
    skipBlanks (c :: s) = c :: s := by
  rw [skipBlanks, List.dropWhile_cons, if_neg (by rw [h]; decide)]

theorem skipBlanks_blanks {s : List Char} (h : Blanks s) : skipBlanks s = [] :=
  List.dropWhile_eq_nil_iff.2 h

theorem blanks_of_skipBlanks {s : List Char} (h : skipBlanks s = []) : Blanks s :=
  List.dropWhile_eq_nil_iff.1 h

/-! ### Words -/

theorem after?_iff {word s r : List Char} : after? word s = some r ↔ s = word ++ r := by
  unfold after?
  constructor
  · intro h
    split at h
    next hWord =>
      obtain ⟨rest, rfl⟩ := List.isPrefixOf_iff_prefix.1 hWord
      rw [List.drop_left] at h
      rw [Option.some.inj h]
    next => cases h
  · rintro rfl
    rw [if_pos (List.isPrefixOf_iff_prefix.2 (List.prefix_append _ _)), List.drop_left]

/-! ### Numerals -/

/-- No digits go on with `r`. -/
def NoDigit (r : List Char) : Prop := ∀ c, r.head? = some c → c.isDigit = false

/-- No numeral goes on with `r`. -/
def Stops (r : List Char) : Prop :=
  ∀ c, r.head? = some c → c.isDigit = false ∧ c ≠ '.' ∧ c ≠ 'e' ∧ c ≠ 'E'

theorem stops_nil : Stops [] := fun _ h => nomatch h

theorem stops_cons {c : Char} (h : c.isDigit = false ∧ c ≠ '.' ∧ c ≠ 'e' ∧ c ≠ 'E')
    (r : List Char) : Stops (c :: r) := by
  intro d hd
  obtain rfl := Option.some.inj hd
  exact h

theorem stops_blank {c : Char} (h : isBlank c = true) (r : List Char) : Stops (c :: r) := by
  have hBlank : ((c = ' ' ∨ c = '\t') ∨ c = '\n') ∨ c = '\r' := by
    simpa [isBlank] using h
  refine stops_cons ?_ _
  rcases hBlank with ((rfl | rfl) | rfl) | rfl <;> decide

theorem stops_blanks {blanks : List Char} (h : Blanks blanks) {r : List Char} (hr : Stops r) :
    Stops (blanks ++ r) := by
  cases blanks with
  | nil => exact hr
  | cons c blanks => exact stops_blank (h c List.mem_cons_self) (blanks ++ r)

theorem Stops.noDigit {r : List Char} (h : Stops r) : NoDigit r := fun c hc => (h c hc).1

theorem noDigit_cons {c : Char} (h : c.isDigit = false) (r : List Char) : NoDigit (c :: r) := by
  intro d hd
  obtain rfl := Option.some.inj hd
  exact h

namespace Numeral

theorem digits?_sound {s ds r : List Char} (h : digits? s = some (ds, r)) :
    s = ds ++ r ∧ Digits ds := by
  unfold digits? digitRun at h
  split at h
  next => cases h
  next hSome =>
    obtain ⟨rfl, rfl⟩ := Prod.mk.inj (Option.some.inj h)
    refine ⟨List.takeWhile_append_dropWhile.symm, ?_, fun c hc => List.mem_takeWhile_imp hc⟩
    intro hNil
    exact hSome (by rw [hNil]; rfl)

theorem digits?_complete {ds r : List Char} (h : Digits ds) (hr : NoDigit r) :
    digits? (ds ++ r) = some (ds, r) := by
  have hTake : r.takeWhile Char.isDigit = [] := by
    cases r with
    | nil => rfl
    | cons c r => rw [List.takeWhile_cons, if_neg (by rw [hr c rfl]; decide)]
  have hDrop : r.dropWhile Char.isDigit = r := by
    cases r with
    | nil => rfl
    | cons c r => rw [List.dropWhile_cons, if_neg (by rw [hr c rfl]; decide)]
  have hRun : digitRun (ds ++ r) = (ds, r) := by
    rw [digitRun, List.takeWhile_append_of_pos h.2, List.dropWhile_append_of_pos h.2, hTake, hDrop,
      List.append_nil]
  rw [digits?, hRun, if_neg]
  rw [List.isEmpty_iff]
  exact h.1

theorem whole?_sound {s ds r : List Char} (h : whole? s = some (ds, r)) :
    s = ds ++ r ∧ Whole ds := by
  simp only [whole?, Option.bind_eq_bind, Option.bind_eq_some_iff, Prod.exists] at h
  obtain ⟨digits, rest, hRead, h⟩ := h
  split at h
  next => cases h
  next hZero =>
    obtain ⟨rfl, rfl⟩ := Prod.mk.inj (Option.some.inj h)
    obtain ⟨rfl, hDigits⟩ := digits?_sound hRead
    refine ⟨rfl, hDigits, fun hHead => ?_⟩
    have := List.length_pos_iff.2 hDigits.1
    have : ¬1 < digits.length := fun hLong => hZero ⟨hHead, hLong⟩
    omega

theorem whole?_complete {ds r : List Char} (h : Whole ds) (hr : NoDigit r) :
    whole? (ds ++ r) = some (ds, r) := by
  rw [whole?, digits?_complete h.1 hr]
  refine if_neg ?_
  rintro ⟨hHead, hLong⟩
  have := h.2 hHead
  omega

theorem fraction?_sound {s r : List Char} {fraction : Option (List Char)}
    (h : fraction? s = some (fraction, r)) :
    ∃ text, s = text ++ r ∧ FractionText fraction text := by
  unfold fraction? at h
  split at h
  next rest =>
    simp only [Option.map_eq_some_iff, Prod.mk.injEq, Prod.exists] at h
    obtain ⟨digits, _, hRead, rfl, rfl⟩ := h
    obtain ⟨rfl, hDigits⟩ := digits?_sound hRead
    exact ⟨'.' :: digits, rfl, hDigits, rfl⟩
  next =>
    obtain ⟨rfl, rfl⟩ := Prod.mk.inj (Option.some.inj h)
    exact ⟨[], rfl, rfl⟩

theorem fraction?_complete {fraction : Option (List Char)} {text r : List Char}
    (h : FractionText fraction text) (hr : NoDigit r) (hPoint : r.head? ≠ some '.') :
    fraction? (text ++ r) = some (fraction, r) := by
  cases fraction with
  | none =>
    obtain rfl : text = [] := h
    unfold fraction?
    split
    next hc => exact absurd (congrArg List.head? hc) hPoint
    next => rfl
  | some digits =>
    obtain ⟨hDigits, rfl⟩ := h
    rw [List.cons_append, fraction?, digits?_complete hDigits hr]
    rfl

theorem exponentSign_cases (s : List Char) :
    ∃ sign, s = sign ++ (exponentSign s).2 ∧
      if (exponentSign s).1 then sign = ['-'] else sign = [] ∨ sign = ['+'] := by
  unfold exponentSign
  split
  next => exact ⟨['+'], rfl, .inr rfl⟩
  next => exact ⟨['-'], rfl, rfl⟩
  next => exact ⟨[], rfl, .inl rfl⟩

theorem exponentSign_append {negative : Bool} {sign digits : List Char}
    (h : if negative then sign = ['-'] else sign = [] ∨ sign = ['+']) (hDigits : Digits digits)
    (r : List Char) : exponentSign (sign ++ digits ++ r) = (negative, digits ++ r) := by
  have hPlain : exponentSign (digits ++ r) = (false, digits ++ r) := by
    obtain ⟨c, digits, rfl⟩ := List.exists_cons_of_ne_nil hDigits.1
    have hDigit := hDigits.2 c List.mem_cons_self
    unfold exponentSign
    split
    next hc =>
      obtain rfl := (List.cons.inj hc).1
      cases hDigit
    next hc =>
      obtain rfl := (List.cons.inj hc).1
      cases hDigit
    next => rfl
  cases negative with
  | true =>
    obtain rfl : sign = ['-'] := h
    rfl
  | false =>
    rcases h with rfl | rfl
    · exact hPlain
    · rfl

theorem exponent?_sound {s r : List Char} {exponent : Option (Bool × List Char)}
    (h : exponent? s = some (exponent, r)) :
    ∃ text, s = text ++ r ∧ ExponentText exponent text := by
  unfold exponent? at h
  split at h
  next =>
    obtain ⟨rfl, rfl⟩ := Prod.mk.inj (Option.some.inj h)
    exact ⟨[], rfl, rfl⟩
  next mark rest =>
    split at h
    next hMark =>
      simp only [Option.map_eq_some_iff, Prod.mk.injEq, Prod.exists] at h
      obtain ⟨digits, _, hRead, rfl, rfl⟩ := h
      obtain ⟨hRest, hDigits⟩ := digits?_sound hRead
      obtain ⟨sign, hSigned, hSign⟩ := exponentSign_cases rest
      refine ⟨mark :: sign ++ digits, ?_, hDigits, mark, sign, hMark, hSign, rfl⟩
      rw [hRest] at hSigned
      rw [hSigned, List.cons_append, List.cons_append, List.append_assoc]
    next =>
      obtain ⟨rfl, rfl⟩ := Prod.mk.inj (Option.some.inj h)
      exact ⟨[], rfl, rfl⟩

theorem exponent?_complete {exponent : Option (Bool × List Char)} {text r : List Char}
    (h : ExponentText exponent text) (hr : Stops r) :
    exponent? (text ++ r) = some (exponent, r) := by
  cases exponent with
  | none =>
    obtain rfl : text = [] := h
    cases r with
    | nil => rfl
    | cons c r =>
      obtain ⟨-, -, hLower, hUpper⟩ := hr c rfl
      rw [List.nil_append, exponent?, if_neg (not_or.2 ⟨hLower, hUpper⟩)]
  | some signed =>
    obtain ⟨negative, digits⟩ := signed
    obtain ⟨hDigits, mark, sign, hMark, hSign, rfl⟩ := h
    rw [List.cons_append, List.cons_append, exponent?, if_pos hMark,
      exponentSign_append hSign hDigits]
    simp only [digits?_complete hDigits hr.noDigit, Option.map_some]

/-- An exponent or what comes after it begins with neither a digit nor a point. -/
theorem head_exponentText {exponent : Option (Bool × List Char)} {text r : List Char}
    (h : ExponentText exponent text) (hr : Stops r) :
    NoDigit (text ++ r) ∧ (text ++ r).head? ≠ some '.' := by
  cases exponent with
  | none =>
    obtain rfl : text = [] := h
    exact ⟨hr.noDigit, fun hPoint => (hr '.' hPoint).2.1 rfl⟩
  | some signed =>
    obtain ⟨-, mark, sign, hMark, -, rfl⟩ := h
    rw [List.cons_append, List.cons_append]
    rcases hMark with rfl | rfl
    · exact ⟨noDigit_cons (by decide) _, by simp⟩
    · exact ⟨noDigit_cons (by decide) _, by simp⟩

theorem noDigit_fractionText {fraction : Option (List Char)} {text r : List Char}
    (h : FractionText fraction text) (hr : NoDigit r) : NoDigit (text ++ r) := by
  cases fraction with
  | none =>
    obtain rfl : text = [] := h
    exact hr
  | some digits =>
    obtain ⟨-, rfl⟩ := h
    exact noDigit_cons (by decide) _

theorem sign_cases (s : List Char) :
    s = (if (sign s).1 then ['-'] else []) ++ (sign s).2 := by
  unfold sign
  split <;> rfl

theorem sign_append (negative : Bool) {whole : List Char} (h : Whole whole) (r : List Char) :
    sign ((if negative then ['-'] else []) ++ whole ++ r) = (negative, whole ++ r) := by
  cases negative with
  | true => rfl
  | false =>
    obtain ⟨c, whole, rfl⟩ := List.exists_cons_of_ne_nil h.1.1
    have hDigit := h.1.2 c List.mem_cons_self
    show sign (c :: (whole ++ r)) = _
    unfold sign
    split
    next hc =>
      obtain rfl := (List.cons.inj hc).1
      cases hDigit
    next => rfl

theorem scan?_sound {s r : List Char} {n : Numeral} (h : scan? s = some (n, r)) :
    ∃ text, s = text ++ r ∧ NumeralText n text := by
  simp only [scan?, Option.bind_eq_bind, Option.bind_eq_some_iff, Prod.exists, Option.pure_def,
    Option.some.injEq, Prod.mk.injEq] at h
  obtain ⟨whole, r₁, hRead₁, fraction, r₂, hRead₂, exponent, r₃, hRead₃, rfl, rfl⟩ := h
  obtain ⟨hText, hWhole⟩ := whole?_sound hRead₁
  obtain ⟨f, rfl, hFraction⟩ := fraction?_sound hRead₂
  obtain ⟨e, rfl, hExponent⟩ := exponent?_sound hRead₃
  refine ⟨_, ?_, f, e, hWhole, hFraction, hExponent, rfl⟩
  refine (sign_cases s).trans ?_
  simp only [hText, List.append_assoc]

theorem scan?_complete {n : Numeral} {text r : List Char} (h : NumeralText n text) (hr : Stops r) :
    scan? (text ++ r) = some (n, r) := by
  obtain ⟨fraction, exponent, hWhole, hFraction, hExponent, rfl⟩ := h
  obtain ⟨hDigit, hPoint⟩ := head_exponentText hExponent hr
  have hSign := sign_append n.negative hWhole (fraction ++ (exponent ++ r))
  simp only [List.append_assoc] at hSign ⊢
  simp only [scan?, hSign, whole?_complete hWhole (noDigit_fractionText hFraction hDigit),
    fraction?_complete hFraction hDigit hPoint, exponent?_complete hExponent hr,
    Option.bind_eq_bind, Option.bind_some, Option.pure_def]

end Numeral

/-! ### Strings -/

theorem shortEscape?_u : shortEscape? 'u' = none := rfl

theorem escape?_short {c meant : Char} (h : shortEscape? c = some meant) (r : List Char) :
    escape? (c :: r) = some (meant, r) := by
  unfold escape?
  split
  next hc =>
    rw [(List.cons.inj hc).1, shortEscape?_u] at h
    cases h
  next hc =>
    obtain ⟨rfl, rfl⟩ := List.cons.inj hc
    rw [h]
    rfl
  next hc => cases hc

theorem escape?_unit {a b c d : Char} {n : Nat} (h : Hex.word? a b c d = some n)
    (hLow : isLowSurrogate n = false) (hHigh : isHighSurrogate n = false) (r : List Char) :
    escape? ('u' :: a :: b :: c :: d :: r) = some (Char.ofNat n, r) := by
  simp [escape?, h, hLow, hHigh]

theorem not_isLowSurrogate {n : Nat} (h : isHighSurrogate n = true) : isLowSurrogate n = false := by
  simp only [isHighSurrogate, isLowSurrogate, Bool.and_eq_true, decide_eq_true_eq,
    Bool.and_eq_false_iff, decide_eq_false_iff_not] at *
  omega

theorem escape?_pair {a b c d a' b' c' d' : Char} {high low : Nat}
    (hHigh : Hex.word? a b c d = some high) (hIsHigh : isHighSurrogate high = true)
    (hLow : Hex.word? a' b' c' d' = some low) (hIsLow : isLowSurrogate low = true)
    (r : List Char) :
    escape? ('u' :: a :: b :: c :: d :: '\\' :: 'u' :: a' :: b' :: c' :: d' :: r) =
      some (joinSurrogates high low, r) := by
  simp [escape?, hHigh, hIsHigh, hLow, hIsLow, not_isLowSurrogate hIsHigh]

/-- An escape that was read may stand before any string. -/
theorem escape?_sound {s r : List Char} {c : Char} (h : escape? s = some (c, r)) :
    ∃ escape, s = escape ++ r ∧ ∀ {body text : List Char}, Spells body text →
      Spells ('\\' :: escape ++ body) (c :: text) := by
  unfold escape? at h
  split at h
  next a b c' d rest =>
    simp only [Option.bind_eq_bind, Option.bind_eq_some_iff] at h
    obtain ⟨n, hWord, h⟩ := h
    split at h
    next => cases h
    next hLow =>
      split at h
      next hHigh =>
        split at h
        next a' b' c'' d' rest' =>
          simp only [Option.bind_eq_some_iff] at h
          obtain ⟨low, hWord', h⟩ := h
          split at h
          next hIsLow =>
            obtain ⟨rfl, rfl⟩ := Prod.mk.inj (Option.some.inj h)
            exact ⟨['u', a, b, c', d, '\\', 'u', a', b', c'', d'], rfl,
              .pair hWord hHigh hWord' hIsLow⟩
          next => cases h
        next => cases h
      next hHigh =>
        obtain ⟨rfl, rfl⟩ := Prod.mk.inj (Option.some.inj h)
        exact ⟨['u', a, b, c', d], rfl,
          .unit hWord (Bool.eq_false_iff.2 hLow) (Bool.eq_false_iff.2 hHigh)⟩
  next c' rest _ =>
    simp only [Option.map_eq_some_iff, Prod.mk.injEq] at h
    obtain ⟨_, hShort, rfl, rfl⟩ := h
    exact ⟨[c'], rfl, .short hShort⟩
  next => cases h

theorem string?_sound {s text r : List Char} (h : string? s = some (text, r)) :
    ∃ body, s = body ++ '"' :: r ∧ Spells body text := by
  fun_induction string? s generalizing text with
  | case1 => cases h
  | case2 rest =>
    obtain ⟨rfl, rfl⟩ := Prod.mk.inj (Option.some.inj h)
    exact ⟨[], rfl, .nil⟩
  | case3 => cases h
  | case4 rest c rest' hEscape ih =>
    simp only [Option.map_eq_some_iff, Prod.mk.injEq, Prod.exists] at h
    obtain ⟨text, _, hRest, rfl, rfl⟩ := h
    obtain ⟨body, rfl, hSpells⟩ := ih hRest
    obtain ⟨escape, rfl, hBefore⟩ := escape?_sound hEscape
    refine ⟨'\\' :: escape ++ body, ?_, hBefore hSpells⟩
    rw [List.cons_append, List.cons_append, List.append_assoc]
  | case5 => cases h
  | case6 c rest hQuote hBackslash hControl ih =>
    simp only [Option.map_eq_some_iff, Prod.mk.injEq, Prod.exists] at h
    obtain ⟨text, _, hRest, rfl, rfl⟩ := h
    obtain ⟨body, rfl, hSpells⟩ := ih hRest
    exact ⟨c :: body, rfl, .plain (Nat.le_of_not_lt hControl) hQuote hBackslash hSpells⟩

theorem string?_escape {s r : List Char} {c : Char} (h : escape? s = some (c, r)) :
    string? ('\\' :: s) = (string? r).map fun (cs, rest) => (c :: cs, rest) := by
  rw [string?]
  split
  next hNone => cases h.symm.trans hNone
  next hSome =>
    cases h.symm.trans hSome
    rfl

theorem string?_complete {body text : List Char} (h : Spells body text) (r : List Char) :
    string? (body ++ '"' :: r) = some (text, r) := by
  induction h with
  | nil => rw [List.nil_append, string?]
  | plain hControl hQuote hBackslash _ ih =>
    rw [List.cons_append, string?, if_neg (Nat.not_lt.2 hControl), ih]
    · rfl
    · exact hQuote
    · exact hBackslash
  | short hShort _ ih =>
    rw [List.cons_append, List.cons_append, string?_escape (escape?_short hShort _), ih]
    rfl
  | unit hWord hLow hHigh _ ih =>
    simp only [List.cons_append]
    rw [string?_escape (escape?_unit hWord hLow hHigh _), ih]
    rfl
  | pair hWord hHigh hWord' hLow _ ih =>
    simp only [List.cons_append]
    rw [string?_escape (escape?_pair hWord hHigh hWord' hLow _), ih]
    rfl

theorem skipString?_sound {s r : List Char} (h : skipString? s = some r) :
    ∃ body, s = body ++ '"' :: r ∧ IsString body := by
  fun_induction skipString? s with
  | case1 => cases h
  | case2 rest =>
    obtain rfl := Option.some.inj h
    exact ⟨[], rfl, .nil⟩
  | case3 a b c d rest hWord ih =>
    obtain ⟨body, rfl, hBody⟩ := ih h
    exact ⟨'\\' :: 'u' :: a :: b :: c :: d :: body, rfl, .unit hWord hBody⟩
  | case4 => cases h
  | case5 c rest _ hShort ih =>
    obtain ⟨body, rfl, hBody⟩ := ih h
    exact ⟨'\\' :: c :: body, rfl, .short hShort hBody⟩
  | case6 => cases h
  | case7 => cases h
  | case8 c rest hQuote _ _ hPlain ih =>
    obtain ⟨body, rfl, hBody⟩ := ih h
    simp only [Bool.or_eq_true, decide_eq_true_eq, not_or, Nat.not_lt] at hPlain
    exact ⟨c :: body, rfl, .plain hPlain.1 hQuote hPlain.2 hBody⟩

theorem skipString?_complete {body : List Char} (h : IsString body) (r : List Char) :
    skipString? (body ++ '"' :: r) = some r := by
  induction h with
  | nil => rw [List.nil_append, skipString?]
  | @plain c s hControl hQuote hBackslash _ ih =>
    rw [List.cons_append, skipString?, if_neg, ih]
    · simpa using ⟨hControl, hBackslash⟩
    · exact hQuote
    · rintro _ _ _ _ _ rfl
      exact absurd rfl hBackslash
    · rintro _ _ rfl
      exact absurd rfl hBackslash
  | @short c s hShort _ ih =>
    rw [List.cons_append, List.cons_append, skipString?, if_pos hShort, ih]
    rintro _ _ _ _ _ rfl
    cases hShort
  | unit hWord _ ih =>
    simp only [List.cons_append]
    rw [skipString?, if_pos hWord, ih]

/-! ### Tokens -/

theorem NumeralText.head {n : Numeral} {s : List Char} (h : NumeralText n s) :
    ∃ c rest, s = c :: rest ∧ (c = '-' ∨ c.isDigit = true) := by
  obtain ⟨fraction, exponent, hWhole, -, -, rfl⟩ := h
  obtain ⟨c, whole, hCons⟩ := List.exists_cons_of_ne_nil hWhole.1.1
  rw [hCons]
  cases n.negative with
  | true => exact ⟨'-', _, rfl, .inl rfl⟩
  | false =>
    refine ⟨c, _, rfl, .inr (hWhole.1.2 c ?_)⟩
    rw [hCons]
    exact List.mem_cons_self

theorem token?_sound {s r : List Char} {t : Token} (h : token? s = some (t, r)) :
    match t with
    | .openArray => skipBlanks s = '[' :: r
    | .openObject => skipBlanks s = '{' :: r
    | .string text => ∃ u, skipBlanks s = '"' :: u ∧ string? u = some (text.toList, r)
    | .number n => ∃ numeral, Numeral.scan? (skipBlanks s) = some (numeral, r) ∧
        numeral.value? = some n
    | _ => True := by
  unfold token? at h
  split at h
  case h_4 u hStart =>
    simp only [Option.map_eq_some_iff, Prod.mk.injEq, Prod.exists] at h
    obtain ⟨cs, _, hString, rfl, rfl⟩ := h
    exact ⟨u, hStart, by rw [String.toList_ofList]; exact hString⟩
  case h_5 hStart =>
    obtain ⟨rfl, rfl⟩ := Prod.mk.inj (Option.some.inj h)
    exact hStart
  case h_6 hStart =>
    obtain ⟨rfl, rfl⟩ := Prod.mk.inj (Option.some.inj h)
    exact hStart
  case h_7 =>
    simp only [Option.bind_eq_bind, Option.bind_eq_some_iff, Prod.exists, Option.pure_def,
      Option.some.injEq, Prod.mk.injEq] at h
    obtain ⟨numeral, _, hScan, n, hValue, rfl, rfl⟩ := h
    exact ⟨numeral, hScan, hValue⟩
  all_goals
    next =>
      simp only [Option.map_eq_some_iff, Prod.mk.injEq] at h
      obtain ⟨_, _, rfl, _⟩ := h
      trivial

theorem token?_array {s r : List Char} (h : skipBlanks s = '[' :: r) :
    token? s = some (.openArray, r) := by
  simp only [token?, h]

theorem token?_object {s r : List Char} (h : skipBlanks s = '{' :: r) :
    token? s = some (.openObject, r) := by
  simp only [token?, h]

theorem token?_string {s u r cs : List Char} (h : skipBlanks s = '"' :: u)
    (hString : string? u = some (cs, r)) : token? s = some (.string (String.ofList cs), r) := by
  rw [token?, h]
  simp only [hString, Option.map_some]

theorem token?_number {s text r : List Char} {numeral : Numeral} {n : Number}
    (h : skipBlanks s = text ++ r) (hText : NumeralText numeral text) (hr : Stops r)
    (hValue : numeral.value? = some n) : token? s = some (.number n, r) := by
  have hScan := Numeral.scan?_complete hText hr
  obtain ⟨c, rest, rfl, hHead⟩ := hText.head
  rw [token?, h]
  split
  case h_7 =>
    simp only [hScan, hValue, Option.bind_eq_bind, Option.bind_some, Option.pure_def]
  all_goals
    next hc =>
      rw [(List.cons.inj hc).1] at hHead
      exact absurd hHead (by decide)

end Chip8Launcher.Json
