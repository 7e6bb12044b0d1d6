import Chip8Launcher.Proofs.Json.Leaves

/-!
# Texts that go on

What was read at the front of a text is read just so when more text follows.  A numeral at the
very end is the exception: it may go on, and the text behind it must then be one that no numeral
goes on with (`Stops`).  In any case the longer text begins with a number or with nothing that is
in order (`token?_append`).
-/

namespace Chip8Launcher.Json

variable {s r : List Char}

/-! ### Blanks and strings -/

theorem skipBlanks_append_of_cons {c : Char} {t : List Char} (h : skipBlanks s = c :: t)
    (r : List Char) : skipBlanks (s ++ r) = c :: (t ++ r) := by
  rw [skipBlanks] at h
  rw [skipBlanks, List.dropWhile_append, h]
  rfl

theorem string?_append {text t : List Char} (h : string? s = some (text, t)) (r : List Char) :
    string? (s ++ r) = some (text, t ++ r) := by
  obtain ⟨body, rfl, hSpells⟩ := string?_sound h
  rw [List.append_assoc]
  exact string?_complete hSpells (t ++ r)

/-! ### Numerals -/

theorem Stops.of_append {t : List Char} (h : Stops (t ++ r)) : Stops t := by
  cases t with
  | nil => exact stops_nil
  | cons c t => exact stops_cons (h c rfl) t

theorem noDigit_dropWhile (s : List Char) : NoDigit (s.dropWhile Char.isDigit) := by
  intro c hc
  have h := List.head?_dropWhile_not Char.isDigit s
  rw [hc] at h
  exact h

theorem noDigit_append {t : List Char} (ht : NoDigit t) (hr : NoDigit r) : NoDigit (t ++ r) := by
  cases t with
  | nil => exact hr
  | cons c t => exact noDigit_cons (ht c rfl) (t ++ r)

namespace Numeral

variable {t : List Char}

theorem noDigit_of_digits? {ds : List Char} (h : digits? s = some (ds, t)) : NoDigit t := by
  unfold digits? digitRun at h
  split at h
  next => cases h
  next =>
    obtain ⟨-, rfl⟩ := Prod.mk.inj (Option.some.inj h)
    exact noDigit_dropWhile s

theorem noDigit_of_whole? {ds : List Char} (h : whole? s = some (ds, t)) : NoDigit t := by
  simp only [whole?, Option.bind_eq_bind, Option.bind_eq_some_iff, Prod.exists] at h
  obtain ⟨digits, rest, hRead, h⟩ := h
  split at h
  next => cases h
  next =>
    obtain ⟨-, rfl⟩ := Prod.mk.inj (Option.some.inj h)
    exact noDigit_of_digits? hRead

theorem digits?_append {ds : List Char} (h : digits? s = some (ds, t)) (hr : NoDigit r) :
    digits? (s ++ r) = some (ds, t ++ r) := by
  obtain ⟨rfl, hDigits⟩ := digits?_sound h
  rw [List.append_assoc]
  exact digits?_complete hDigits (noDigit_append (noDigit_of_digits? h) hr)

theorem whole?_append {ds : List Char} (h : whole? s = some (ds, t)) (hr : NoDigit r) :
    whole? (s ++ r) = some (ds, t ++ r) := by
  obtain ⟨rfl, hWhole⟩ := whole?_sound h
  rw [List.append_assoc]
  exact whole?_complete hWhole (noDigit_append (noDigit_of_whole? h) hr)

theorem fraction?_append {fraction : Option (List Char)} (h : fraction? s = some (fraction, t))
    (hr : Stops r) : fraction? (s ++ r) = some (fraction, t ++ r) := by
  unfold fraction? at h
  split at h
  next rest =>
    simp only [Option.map_eq_some_iff, Prod.mk.injEq, Prod.exists] at h
    obtain ⟨digits, _, hRead, rfl, rfl⟩ := h
    rw [List.cons_append, fraction?, digits?_append hRead hr.noDigit]
    rfl
  next hPoint =>
    obtain ⟨rfl, rfl⟩ := Prod.mk.inj (Option.some.inj h)
    unfold fraction?
    split
    next rest hEq =>
      cases s with
      | nil => exact absurd rfl (hr '.' (congrArg List.head? hEq)).2.1
      | cons c s =>
        obtain ⟨rfl, -⟩ := List.cons.inj hEq
        exact absurd rfl (hPoint s)
    next => rfl

theorem exponentSign_append_of_ne_nil (h : (exponentSign s).2 ≠ []) (r : List Char) :
    exponentSign (s ++ r) = ((exponentSign s).1, (exponentSign s).2 ++ r) := by
  cases s with
  | nil => exact absurd rfl h
  | cons c s =>
    unfold exponentSign
    split <;> simp_all

theorem exponent?_append {exponent : Option (Bool × List Char)}
    (h : exponent? s = some (exponent, t)) (hr : Stops r) :
    exponent? (s ++ r) = some (exponent, t ++ r) := by
  unfold exponent? at h
  split at h
  next =>
    obtain ⟨rfl, rfl⟩ := Prod.mk.inj (Option.some.inj h)
    have hNone : ExponentText none [] := rfl
    exact exponent?_complete hNone hr
  next c rest =>
    rw [List.cons_append, exponent?]
    split at h
    next hMark =>
      simp only [Option.map_eq_some_iff, Prod.mk.injEq, Prod.exists] at h
      obtain ⟨digits, _, hRead, rfl, rfl⟩ := h
      have hSigned : (exponentSign rest).2 ≠ [] := by
        intro hNil
        rw [hNil] at hRead
        cases hRead
      rw [if_pos hMark, exponentSign_append_of_ne_nil hSigned]
      simp only [digits?_append hRead hr.noDigit, Option.map_some]
    next hMark =>
      obtain ⟨rfl, rfl⟩ := Prod.mk.inj (Option.some.inj h)
      rw [if_neg hMark]
      rfl

theorem sign_append_of_whole? {ds : List Char} (h : whole? (sign s).2 = some (ds, t))
    (r : List Char) : sign (s ++ r) = ((sign s).1, (sign s).2 ++ r) := by
  cases s with
  | nil => cases h
  | cons c s =>
    unfold sign
    split <;> simp_all

theorem scan?_append {n : Numeral} (h : scan? s = some (n, t)) (hr : Stops r) :
    scan? (s ++ r) = some (n, t ++ r) := by
  simp only [scan?, Option.bind_eq_bind, Option.bind_eq_some_iff, Prod.exists, Option.pure_def,
    Option.some.injEq, Prod.mk.injEq] at h
  obtain ⟨whole, r₁, hWhole, fraction, r₂, hFraction, exponent, r₃, hExponent, rfl, rfl⟩ := h
  simp only [scan?, sign_append_of_whole? hWhole, whole?_append hWhole hr.noDigit,
    fraction?_append hFraction hr, exponent?_append hExponent hr, Option.bind_eq_bind,
    Option.bind_some, Option.pure_def]

/-- Digits alone are read up to where no numeral goes on. -/
theorem stops_of_scan? {n : Numeral} (h : scan? s = some (n, t)) (hFraction : n.fraction = none)
    (hExponent : n.exponent = none) : Stops t := by
  simp only [scan?, Option.bind_eq_bind, Option.bind_eq_some_iff, Prod.exists, Option.pure_def,
    Option.some.injEq, Prod.mk.injEq] at h
  obtain ⟨whole, r₁, hWhole, fraction, r₂, hRead₁, exponent, r₃, hRead₂, rfl, rfl⟩ := h
  obtain rfl : fraction = none := hFraction
  obtain rfl : exponent = none := hExponent
  have hNoDigit := noDigit_of_whole? hWhole
  intro c hc
  unfold fraction? at hRead₁
  split at hRead₁
  next => simp at hRead₁
  next hPoint =>
    obtain rfl := (Prod.mk.inj (Option.some.inj hRead₁)).2
    unfold exponent? at hRead₂
    split at hRead₂
    next =>
      obtain rfl := (Prod.mk.inj (Option.some.inj hRead₂)).2
      cases hc
    next d rest =>
      split at hRead₂
      next => simp at hRead₂
      next hMark =>
        obtain rfl := (Prod.mk.inj (Option.some.inj hRead₂)).2
        obtain rfl := Option.some.inj hc
        refine ⟨hNoDigit d rfl, ?_, fun hEq => hMark (.inl hEq), fun hEq => hMark (.inr hEq)⟩
        rintro rfl
        exact absurd rfl (hPoint rest)

end Numeral

/-! ### Tokens -/

theorem token?_of_numeral {c : Char} {t : List Char} (h : skipBlanks s = c :: t)
    (hc : c = '-' ∨ c.isDigit = true) :
    token? s = (Numeral.scan? (c :: t)).bind fun (numeral, u) =>
      numeral.value?.map fun n => (.number n, u) := by
  rw [token?, h]
  split
  case h_7 =>
    cases Numeral.scan? (c :: t) with
    | none => rfl
    | some read => cases hValue : read.1.value? <;> simp [hValue]
  all_goals
    next hEq =>
      rw [(List.cons.inj hEq).1] at hc
      exact absurd hc (by decide)

/-- What begins like a number is a number or out of order. -/
theorem token?_numeral_cases {c : Char} {t : List Char} (h : skipBlanks s = c :: t)
    (hc : c = '-' ∨ c.isDigit = true) :
    token? s = none ∨ ∃ n u, token? s = some (.number n, u) := by
  rw [token?_of_numeral h hc]
  cases Numeral.scan? (c :: t) with
  | none => exact .inl rfl
  | some read =>
    obtain ⟨numeral, u⟩ := read
    cases hValue : numeral.value? with
    | none => exact .inl (by simp [hValue])
    | some n => exact .inr ⟨n, u, by simp [hValue]⟩

theorem token?_append {t : Token} {u : List Char} (h : token? s = some (t, u)) (r : List Char) :
    token? (s ++ r) = some (t, u ++ r) ∨ ¬Stops r ∧ (∃ n, t = .number n) ∧
      (token? (s ++ r) = none ∨ ∃ n v, token? (s ++ r) = some (.number n, v)) := by
  unfold token? at h
  split at h
  case h_4 v hStart =>
    simp only [Option.map_eq_some_iff, Prod.mk.injEq, Prod.exists] at h
    obtain ⟨text, _, hString, rfl, rfl⟩ := h
    exact .inl (token?_string (skipBlanks_append_of_cons hStart r) (string?_append hString r))
  case h_5 hStart =>
    obtain ⟨rfl, rfl⟩ := Prod.mk.inj (Option.some.inj h)
    exact .inl (token?_array (skipBlanks_append_of_cons hStart r))
  case h_6 hStart =>
    obtain ⟨rfl, rfl⟩ := Prod.mk.inj (Option.some.inj h)
    exact .inl (token?_object (skipBlanks_append_of_cons hStart r))
  case h_7 =>
    simp only [Option.bind_eq_bind, Option.bind_eq_some_iff, Prod.exists, Option.pure_def,
      Option.some.injEq, Prod.mk.injEq] at h
    obtain ⟨numeral, _, hScan, n, hValue, rfl, rfl⟩ := h
    obtain ⟨text, hText, hNumeral⟩ := Numeral.scan?_sound hScan
    obtain ⟨c, rest, rfl, hHead⟩ := hNumeral.head
    rw [List.cons_append] at hText
    have hStart := skipBlanks_append_of_cons hText r
    by_cases hr : Stops r
    · have hLonger := Numeral.scan?_append hScan hr
      rw [hText, List.cons_append] at hLonger
      left
      rw [token?_of_numeral hStart hHead, hLonger, Option.bind_some]
      simp only [hValue, Option.map_some]
    · exact .inr ⟨hr, ⟨n, rfl⟩, token?_numeral_cases hStart hHead⟩
  all_goals
    next hStart =>
      simp only [Option.map_eq_some_iff, Prod.mk.injEq] at h
      obtain ⟨_, hWord, rfl, rfl⟩ := h
      obtain rfl := after?_iff.1 hWord
      left
      simp only [token?, skipBlanks_append_of_cons hStart r, List.append_assoc,
        after?_iff.2 rfl, Option.map_some]

end Chip8Launcher.Json
