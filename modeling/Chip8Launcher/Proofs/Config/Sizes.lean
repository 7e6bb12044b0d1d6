import Chip8Launcher.Proofs.Config.Around

/-!
# Sizes never wrap

A numeral that is given for the width or the height is taken for its exact number or not at all.
What is read there is a function of the numeral (`sizeOf`), whatever else the configuration has
(`GivesSize.ofText`).  A numeral is a size (`IsSize`), or an integer of 64 bits that is none
(`IsOtherInteger`), or no integer to the reader, and in the last case it never is a size, not even
if its number is whole.
-/

namespace Chip8Launcher.Config

open Json

variable {numeral : Numeral} {literal : List Char} {config : Config} {text : String}

/-! ### What a numeral is -/

/-- Digits alone, whose number fits 32 bits. -/
structure IsSize (numeral : Numeral) : Prop where
  positive : numeral.negative = false
  fraction : numeral.fraction = none
  exponent : numeral.exponent = none
  fits : Numeral.magnitude numeral.whole ≤ 4294967295

/-- An integer of 64 bits, signed or not, outside the sizes. -/
structure IsOtherInteger (numeral : Numeral) : Prop where
  fraction : numeral.fraction = none
  exponent : numeral.exponent = none
  lower : -9223372036854775808 ≤ numeral.signed
  upper : numeral.signed < 18446744073709551616
  outside : numeral.signed < 0 ∨ 4294967295 < numeral.signed

theorem IsSize.signed (h : IsSize numeral) :
    numeral.signed = Numeral.magnitude numeral.whole := by
  rw [Numeral.signed, h.positive]
  rfl

theorem IsSize.value? (h : IsSize numeral) :
    numeral.value? = some (.integer (Numeral.magnitude numeral.whole)) := by
  have hFits := h.fits
  refine Numeral.value?_eq_integer.2
    ⟨h.fraction, h.exponent, h.signed.symm, by omega, by omega, fun hZero => ?_⟩
  exact Bool.false_ne_true (h.positive.symm.trans hZero.1)

/-- Minus zero is not among them. -/
theorem IsOtherInteger.nonzero (h : IsOtherInteger numeral) :
    ¬(numeral.negative = true ∧ Numeral.magnitude numeral.whole = 0) := by
  rintro ⟨hSign, hNull⟩
  have hOutside := h.outside
  rw [Numeral.signed, if_pos hSign, hNull] at hOutside
  omega

theorem IsOtherInteger.value? (h : IsOtherInteger numeral) :
    numeral.value? = some (.integer numeral.signed) :=
  Numeral.value?_eq_integer.2 ⟨h.fraction, h.exponent, rfl, h.lower, h.upper, h.nonzero⟩

/-- What is an integer to the reader. -/
theorem cases_of_value? {n : Int} (h : numeral.value? = some (.integer n)) :
    IsSize numeral ∨ IsOtherInteger numeral := by
  obtain ⟨hFraction, hExponent, rfl, hLower, hUpper, -⟩ := Numeral.value?_eq_integer.1 h
  by_cases hOutside : numeral.signed < 0 ∨ 4294967295 < numeral.signed
  · exact .inr ⟨hFraction, hExponent, hLower, hUpper, hOutside⟩
  · obtain ⟨hPositive, -, -, hSigned⟩ := value?_integer h (by omega)
    exact .inl ⟨hPositive, hFraction, hExponent, by omega⟩

/-! ### What is read -/

/-- What a numeral is where a size is expected. -/
def sizeOf (numeral : Numeral) : Except Rejection UInt32 :=
  match numeral.value? with
  | none => .error .malformed
  | some (.integer n) =>
    if 0 ≤ n ∧ n < 0x100000000 then .ok n.toNat.toUInt32
    else .error (.fault (.invalidValue (.integer n) .size))
  | some (.float x) => .error (.fault (.invalidType (found (.number (.float x))) .size))

theorem IsSize.sizeOf (h : IsSize numeral) :
    sizeOf numeral = .ok (UInt32.ofNat (Numeral.magnitude numeral.whole)) := by
  have hFits := h.fits
  rw [Config.sizeOf, h.value?]
  exact if_pos (by omega)

theorem IsOtherInteger.sizeOf (h : IsOtherInteger numeral) :
    sizeOf numeral = .error (.fault (.invalidValue (.integer numeral.signed) .size)) := by
  have hOutside := h.outside
  rw [Config.sizeOf, h.value?]
  exact if_neg (by omega)

theorem sizeOf_other (hSize : ¬IsSize numeral) (hInteger : ¬IsOtherInteger numeral) :
    sizeOf numeral = .error .malformed ∨
      ∃ x, sizeOf numeral = .error (.fault (.invalidType (.float x) .size)) := by
  unfold sizeOf
  split
  next => exact .inl rfl
  next hValue =>
    rcases cases_of_value? hValue with h | h
    · exact absurd h hSize
    · exact absurd h hInteger
  next x _ => exact .inr ⟨floatLayout.write x, rfl⟩

theorem isSize_of_sizeOf {n : UInt32} (h : sizeOf numeral = .ok n) : IsSize numeral := by
  by_contra hSize
  by_cases hInteger : IsOtherInteger numeral
  · cases hInteger.sizeOf.symm.trans h
  · rcases sizeOf_other hSize hInteger with hError | ⟨_, hError⟩
    · cases hError.symm.trans h
    · cases hError.symm.trans h

theorem readSize_numeral (hLiteral : NumeralText numeral literal) {blanks r : List Char}
    (hBlanks : Blanks blanks) (hr : Stops r) :
    readSize (blanks ++ literal ++ r) = (sizeOf numeral).map fun n => (n, r) := by
  have hStart := (IsValue.number hLiteral).begins.skipBlanks hBlanks r
  have hScan := Numeral.scan?_complete hLiteral hr
  obtain ⟨c, rest, rfl, hHead⟩ := hLiteral.head
  rw [List.cons_append] at hStart hScan
  rw [readSize, token?_of_numeral hStart hHead, hScan, Option.bind_some, sizeOf]
  dsimp only
  cases numeral.value? with
  | none => rfl
  | some n =>
    cases n with
    | float => rfl
    | integer n =>
      simp only [Option.map_some]
      split <;> rfl

/-! ### The two sizes of a configuration -/

inductive Side where
  | width
  | height
  deriving DecidableEq, Repr

namespace Side

def name : Side → String
  | width => "width"
  | height => "height"

def get : Side → Config → UInt32
  | width => Config.width
  | height => Config.height

def set : Side → Config → UInt32 → Config
  | width => fun config n => { config with width := n }
  | height => fun config n => { config with height := n }

def field (side : Side) : Field Config := ⟨side.name, UInt32, side.get, SizeText⟩

variable (side : Side)

@[simp] theorem get_set (config : Config) (n : UInt32) : side.get (side.set config n) = n := by
  cases side <;> rfl

theorem field_mem : side.field ∈ schema := by
  cases side <;> simp [schema, field, name, get]

/-- Nothing else is changed. -/
theorem others_set (config : Config) (n : UInt32) :
    ∀ other ∈ schema, other.name ≠ side.name →
      other.get (side.set config n) = other.get config := by
  cases side <;> simp [schema, name, set]

theorem eq_size_of_name : ∀ reader ∈ fields, reader.name = side.name →
    reader = .size side.name side.set := by
  cases side <;> simp [fields, name, set, FieldReader.string, FieldReader.size, FieldReader.ofRead]

end Side

/-! ### Texts -/

/-- The text gives the value for this side and is otherwise a text of the configuration. -/
def GivesSize (side : Side) (literal : List Char) (config : Config) (text : String) : Prop :=
  ∃ before value behind, text.toList = before ++ value ++ behind ∧ Blanks before ∧ Blanks behind ∧
    TextAround schema .standard side.name literal value config

theorem readWhole_error {α : Type} {read : List Char → Except Rejection (α × List Char)}
    {e : Rejection} (h : read text.toList = .error e) : readWhole read text = .error e := by
  rw [readWhole, h]

/-- All that comes of the text comes of the numeral. -/
theorem GivesSize.ofText {side : Side} (hText : GivesSize side literal config text)
    (hLiteral : NumeralText numeral literal) :
    ofText text = (sizeOf numeral).map (side.set config) := by
  obtain ⟨before, value, behind, hChars, hBefore, hBehind, hAround⟩ := hText
  cases hSize : sizeOf numeral with
  | ok n =>
    have hFits := isSize_of_sizeOf hSize
    have hSizeText : SizeText literal n := by
      obtain rfl := Except.ok.inj (hFits.sizeOf.symm.trans hSize)
      have hWhole : literal = numeral.whole := by
        rw [Numeral.literal_eq hLiteral hFits.fraction hFits.exponent, hFits.positive]
        rfl
      obtain ⟨_, _, hDigits, -⟩ := hLiteral
      refine ⟨hWhole ▸ hDigits, ?_⟩
      rw [hWhole, UInt32.toNat_ofNat_of_lt' (Nat.lt_succ_of_le hFits.fits)]
    have hContent : side.field.Text literal (side.field.get (side.set config n)) := by
      show SizeText literal (side.get (side.set config n))
      rwa [side.get_set]
    have hRecord : ConfigText value (side.set config n) :=
      hAround.recordText config_schema.nodup side.field_mem rfl hContent (side.others_set config n)
    exact reads_config.whole.2 ⟨before, value, behind, hChars, hBefore, hBehind, hRecord⟩
  | error e =>
    have hFails : FailsAt fields side.name literal e := by
      intro reader hReader hName a blanks r hBlanks hr
      rw [side.eq_size_of_name reader hReader hName]
      show (readSize (blanks ++ literal ++ r)).map _ = _
      rw [readSize_numeral hLiteral hBlanks hr, hSize]
      rfl
    refine readWhole_error ?_
    rw [hChars]
    exact config_schema.record_failing .config hAround (mem_names side.field_mem)
      (.number hLiteral) hFails hBefore behind

theorem message_integer (n : Int) : (Fault.invalidValue (.integer n) .size).message =
    "invalid value: integer `" ++ toString n ++ "`, expected u32" := by
  have hStart : "invalid value: integer `" = "invalid value: " ++ "integer `" := by decide
  have hEnd : "`, expected u32" = "`" ++ (", expected " ++ "u32") := by decide
  show "invalid value: " ++ ("integer `" ++ toString n ++ "`") ++ ", expected " ++ "u32" = _
  rw [hStart, hEnd]
  simp only [String.append_assoc]

/-- **Sizes never wrap or truncate.**  Let a numeral be given for the width or the height, as a
member or as an item, in a text that is otherwise in order.  The text is a configuration if and only
if the numeral is digits alone whose number is at most 4294967295, and then this number is the size
and all else is as it was.  A smaller or larger integer of 64 bits is named as it was written.  And
any other numeral, be it minus zero, one that has a fraction or an exponent or one with more digits,
ends the reading, too. -/
theorem sizes_never_wrap (side : Side) (hLiteral : NumeralText numeral literal)
    (hText : GivesSize side literal config text) :
    ((∃ read, ofText text = .ok read) ↔ IsSize numeral) ∧
      (∀ read, ofText text = .ok read →
        (side.get read).toNat = Numeral.magnitude numeral.whole ∧
          read = side.set config (side.get read)) ∧
      (IsOtherInteger numeral → ∃ fault, ofText text = .error (.fault fault) ∧
        fault = .invalidValue (.integer numeral.signed) .size ∧
        fault.message =
          "invalid value: integer `" ++ toString numeral.signed ++ "`, expected u32" ∧
        toString numeral.signed = String.ofList literal) ∧
      (¬IsSize numeral → ¬IsOtherInteger numeral → ofText text = .error .malformed ∨
        ∃ x, ofText text = .error (.fault (.invalidType (.float x) .size))) := by
  rw [hText.ofText hLiteral]
  have hSize : ∀ {read}, (sizeOf numeral).map (side.set config) = .ok read →
      ∃ n, sizeOf numeral = .ok n ∧ side.set config n = read := by
    intro read hRead
    cases hOf : sizeOf numeral with
    | error => simp [hOf, Except.map] at hRead
    | ok n =>
      rw [hOf] at hRead
      exact ⟨n, rfl, Except.ok.inj hRead⟩
  refine ⟨⟨?_, fun h => ?_⟩, ?_, fun h => ?_, fun hNot hOther => ?_⟩
  · rintro ⟨read, hRead⟩
    obtain ⟨n, hn, -⟩ := hSize hRead
    exact isSize_of_sizeOf hn
  · exact ⟨_, by rw [h.sizeOf]; rfl⟩
  · intro read hRead
    obtain ⟨n, hn, rfl⟩ := hSize hRead
    have hFits := isSize_of_sizeOf hn
    obtain rfl := Except.ok.inj (hFits.sizeOf.symm.trans hn)
    rw [side.get_set, UInt32.toNat_ofNat_of_lt' (Nat.lt_succ_of_le hFits.fits)]
    exact ⟨rfl, rfl⟩
  · have hError : (sizeOf numeral).map (side.set config) =
        .error (.fault (.invalidValue (.integer numeral.signed) .size)) := by
      rw [h.sizeOf]
      rfl
    exact ⟨_, hError, rfl, message_integer numeral.signed,
      Numeral.toString_signed hLiteral h.fraction h.exponent h.nonzero⟩
  · rcases sizeOf_other hNot hOther with hError | ⟨x, hError⟩
    · exact .inl (by rw [hError]; rfl)
    · exact .inr ⟨x, by rw [hError]; rfl⟩

/-- The least number that is too large, as the height, which is the fourth item. -/
theorem sizes_never_wrap_next :
    let literal := ['4', '2', '9', '4', '9', '6', '7', '2', '9', '6']
    let numeral : Numeral := ⟨false, literal, none, none⟩
    let config := { Config.standard with surfaceId := "tv", selectorId := "" }
    let text := "[\"tv\", \"\", 64, 4294967296]"
    NumeralText numeral literal ∧ GivesSize .height literal config text ∧
      ∃ fault, ofText text = .error (.fault fault) ∧
        fault.message = "invalid value: integer `4294967296`, expected u32" := by
  intro literal numeral config text
  have hWhole : Whole literal := ⟨⟨by simp [literal], by simp [literal]⟩, by simp [literal]⟩
  have hLiteral : NumeralText numeral literal := ⟨[], [], hWhole, rfl, rfl, rfl⟩
  have hSurface : StringText ['"', 't', 'v', '"'] "tv" :=
    ⟨['t', 'v'], rfl, spells_self (by simp)⟩
  have hSelector : StringText ['"', '"'] "" := ⟨[], rfl, .nil⟩
  have hWidth : SizeText ['6', '4'] 64 := ⟨⟨⟨by simp, by simp⟩, by simp⟩, rfl⟩
  have hBlank : Blanks [' '] := List.forall_mem_singleton.2 rfl
  have hFirst : ItemText ['"', 't', 'v', '"'] ['"', 't', 'v', '"'] :=
    @ItemText.mk [] [] _ blanks_nil blanks_nil
  have hLater : ∀ value, ItemText value (' ' :: value) := by
    intro value
    simpa using @ItemText.mk [' '] [] value hBlank blanks_nil
  have hItems := Listed.more hFirst (.more (hLater ['"', '"'])
    (.more (hLater ['6', '4']) (.one (hLater literal))))
  have hGives : GivesSize .height literal config text := by
    refine ⟨[], text.toList, [], (List.append_nil _).symm, blanks_nil, blanks_nil, ?_⟩
    have hArray :
        ArrayText [['"', 't', 'v', '"'], ['"', '"'], ['6', '4'], literal] text.toList := by
      have hChars : text.toList = '[' :: (['"', 't', 'v', '"'] ++ ',' :: ([' ', '"', '"'] ++
          ',' :: ([' ', '6', '4'] ++ ',' :: ' ' :: literal))) ++ [']'] := by simp [text, literal]
      rw [hChars]
      exact .listed hItems
    refine .array hArray (by decide) ⟨by decide, by decide, ?_, ?_⟩
    · exact fun member hMember hUnknown => absurd (known_of_mem_zip hMember) hUnknown
    · simp only [schema, List.forall_mem_cons]
      exact ⟨fun _ => hSurface, fun _ => hSelector, fun _ => hWidth, fun h => absurd rfl h,
        fun _ => rfl, fun _ => rfl, fun _ h => absurd h List.not_mem_nil⟩
  obtain ⟨fault, hFault, -, hMessage, hDigits⟩ := (sizes_never_wrap .height hLiteral hGives).2.2.1
    ⟨rfl, rfl, by decide, by decide, by decide⟩
  rw [hDigits] at hMessage
  exact ⟨hLiteral, hGives, fault, hFault, hMessage.trans (by decide)⟩

end Chip8Launcher.Config
