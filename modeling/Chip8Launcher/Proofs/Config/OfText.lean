import Chip8Launcher.Proofs.Config.Records
import Chip8Launcher.Proofs.Json.Decimals

/-!
# Which texts are configurations

`Config.ofText` accepts exactly the texts of `ConfigText`, with blanks around them, and gives the
configuration that is meant.

The grammar of JSON alone would allow more: a member whose name contains the escape of a lone
surrogate is well formed but has no name at all, and ends the reading.
-/

namespace Chip8Launcher

open Json

namespace Config

/-! ### Strings and sizes -/

theorem reads_string : Reads readString StringText := by
  constructor
  · intro s r text hRead
    unfold readString at hRead
    split at hRead
    next => cases hRead
    next hToken =>
      obtain ⟨rfl, rfl⟩ := Prod.mk.inj (Except.ok.inj hRead)
      obtain ⟨u, hStart, hString⟩ := token?_sound hToken
      obtain ⟨blanks, rfl, hBlanks⟩ := eq_of_skipBlanks hStart
      obtain ⟨body, rfl, hSpells⟩ := string?_sound hString
      exact ⟨blanks, '"' :: body ++ ['"'], by simp, hBlanks, body, rfl, hSpells⟩
    next => cases hRead
  · intro blanks value r text hBlanks hText _
    have hStart := hText.isValue.begins.skipBlanks hBlanks r
    obtain ⟨body, rfl, hSpells⟩ := hText
    rw [bracketed_append] at hStart
    rw [readString, token?_string hStart (string?_complete hSpells r), String.ofList_toList]

/-- An integer is written without fraction and exponent. -/
theorem value?_integer {numeral : Numeral} {n : Int} (h : numeral.value? = some (.integer n))
    (hn : 0 ≤ n) : numeral.negative = false ∧ numeral.fraction = none ∧ numeral.exponent = none ∧
      n = Numeral.magnitude numeral.whole := by
  obtain ⟨hFraction, hExponent, rfl, -, -, hZero⟩ := Numeral.value?_eq_integer.1 h
  rw [Numeral.signed] at hn ⊢
  cases hSign : numeral.negative with
  | true =>
    rw [if_pos hSign] at hn
    exact absurd ⟨hSign, by omega⟩ hZero
  | false => exact ⟨rfl, hFraction, hExponent, rfl⟩

theorem value?_digits {ds : List Char} (h : Numeral.magnitude ds < 0x10000000000000000) :
    (⟨false, ds, none, none⟩ : Numeral).value? = some (.integer (Numeral.magnitude ds)) :=
  Numeral.value?_eq_integer.2 ⟨rfl, rfl, rfl, by omega, by omega, fun hZero => nomatch hZero.1⟩

theorem reads_size : Reads readSize SizeText := by
  constructor
  · intro s r n hRead
    unfold readSize at hRead
    split at hRead
    next => cases hRead
    next k r hToken =>
      split at hRead
      next hRange =>
        obtain ⟨rfl, rfl⟩ := Prod.mk.inj (Except.ok.inj hRead)
        obtain ⟨numeral, hScan, hValue⟩ := token?_sound hToken
        obtain ⟨text, hText, hNumeral⟩ := Numeral.scan?_sound hScan
        obtain ⟨blanks, rfl, hBlanks⟩ := eq_of_skipBlanks hText
        obtain ⟨hPositive, hFraction, hExponent, rfl⟩ := value?_integer hValue hRange.1
        obtain ⟨f, e, hWhole, hF, hE, rfl⟩ := hNumeral
        rw [hFraction] at hF
        rw [hExponent] at hE
        obtain rfl : f = [] := hF
        obtain rfl : e = [] := hE
        refine ⟨blanks, numeral.whole, by simp [hPositive], hBlanks, hWhole, ?_⟩
        have hSize : Numeral.magnitude numeral.whole < UInt32.size := by
          have := hRange.2
          rw [UInt32.size]
          omega
        rw [Int.toNat_natCast, Nat.toUInt32_eq, UInt32.toNat_ofNat_of_lt' hSize]
      next => cases hRead
    next => cases hRead
  · intro blanks value r n hBlanks hText hr
    have hStart := hText.isValue.begins.skipBlanks hBlanks r
    have hSize : Numeral.magnitude value < 0x100000000 := by
      rw [hText.2]
      exact n.toNat_lt
    have hToken := token?_number hStart hText.numeral hr (value?_digits (by omega))
    rw [readSize, hToken]
    dsimp only
    rw [if_pos (by omega), Int.toNat_natCast, hText.2]
    exact congrArg (fun n => Except.ok (n, r)) UInt32.ofNat_toNat

/-! ### The schemas -/

/-- A reader that reads what its field holds and puts it in place. -/
theorem Matches.ofRead {α : Type} {fields : List (Field α)} (hNodup : (names fields).Nodup)
    (hExt : ∀ {a b : α}, (∀ field ∈ fields, field.get a = field.get b) → a = b) {field : Field α}
    (hField : field ∈ fields) {read : List Char → Except Rejection (field.Content × List Char)}
    {set : α → field.Content → α} (hRead : Reads read field.Text)
    (hLength : ∀ {b s r}, read s = .ok (b, r) → r.length < s.length)
    (hSet : ∀ a content, field.get (set a content) = content)
    (hOthers : ∀ other ∈ fields, other.name ≠ field.name →
      ∀ a content, other.get (set a content) = other.get a) :
    Matches fields field (.ofRead field.name read hLength set) := by
  refine ⟨rfl, fun a => ⟨?_, ?_⟩, fun a b => ⟨set a (field.get b), hSet _ _, ?_⟩⟩
  · intro s r b hMap
    obtain ⟨⟨content, _⟩, hContent, hEq⟩ : ∃ p, read s = .ok p ∧ (set a p.1, p.2) = (b, r) := by
      cases hContent : read s with
      | error e =>
        simp only [FieldReader.ofRead, hContent] at hMap
        cases hMap
      | ok p =>
        simp only [FieldReader.ofRead, hContent] at hMap
        exact ⟨p, rfl, Except.ok.inj hMap⟩
    obtain ⟨rfl, rfl⟩ := Prod.mk.inj hEq
    obtain ⟨blanks, value, rfl, hBlanks, hText⟩ := hRead.sound hContent
    refine ⟨blanks, value, rfl, hBlanks, ?_,
      fun other hOther hName => hOthers other hOther hName _ _⟩
    rw [hSet]
    exact hText
  · rintro blanks value r b hBlanks ⟨hText, hSame⟩ hr
    have hEq : set a (field.get b) = b := by
      refine hExt fun other hOther => ?_
      by_cases hName : other.name = field.name
      · obtain rfl := List.inj_on_of_nodup_map hNodup hOther hField hName
        exact hSet _ _
      · exact (hOthers other hOther hName _ _).trans (hSame other hOther hName).symm
    show (read (blanks ++ value ++ r)).map _ = _
    rw [hRead.complete hBlanks hText hr]
    exact congrArg (fun b => Except.ok (b, r)) hEq
  · exact fun other hOther hName => hOthers other hOther hName _ _

theorem palette_schema : Schema Palette.schema Palette.fields := by
  have hNodup : (names Palette.schema).Nodup := by decide
  have hExt : ∀ {a b : Palette}, (∀ field ∈ Palette.schema, field.get a = field.get b) → a = b := by
    intro a b h
    simp only [Palette.schema, List.forall_mem_cons] at h
    obtain ⟨hForeground, hBackground, -⟩ := h
    cases a
    cases b
    rw [Palette.mk.injEq]
    exact ⟨hForeground, hBackground⟩
  refine ⟨hNodup, hExt, ?_, ?_⟩
  · simp only [Palette.schema, List.forall_mem_cons]
    exact ⟨StringText.isValue, StringText.isValue, by simp⟩
  · refine .cons (.ofRead hNodup hExt ?_ reads_string _ (fun _ _ => rfl) ?_) (.cons
      (.ofRead hNodup hExt ?_ reads_string _ (fun _ _ => rfl) ?_) .nil)
    all_goals simp [Palette.schema]

theorem reads_palette : Reads Palette.read PaletteText := palette_schema.reads .palette .standard

theorem config_schema : Schema schema fields := by
  have hNodup : (names schema).Nodup := by decide
  have hExt : ∀ {a b : Config}, (∀ field ∈ schema, field.get a = field.get b) → a = b := by
    intro a b h
    simp only [schema, List.forall_mem_cons] at h
    obtain ⟨hSurface, hSelector, hWidth, hHeight, hPalette, hLevel, -⟩ := h
    cases a
    cases b
    rw [Config.mk.injEq]
    exact ⟨hSurface, hSelector, hWidth, hHeight, hPalette, hLevel⟩
  refine ⟨hNodup, hExt, ?_, ?_⟩
  · simp only [schema, List.forall_mem_cons]
    exact ⟨StringText.isValue, StringText.isValue, SizeText.isValue, SizeText.isValue,
      palette_schema.isValue_of_record, StringText.isValue, by simp⟩
  · refine .cons (.ofRead hNodup hExt ?_ reads_string _ (fun _ _ => rfl) ?_)
      (.cons (.ofRead hNodup hExt ?_ reads_string _ (fun _ _ => rfl) ?_)
      (.cons (.ofRead hNodup hExt ?_ reads_size _ (fun _ _ => rfl) ?_)
      (.cons (.ofRead hNodup hExt ?_ reads_size _ (fun _ _ => rfl) ?_)
      (.cons (.ofRead hNodup hExt ?_ reads_palette _ (fun _ _ => rfl) ?_)
      (.cons (.ofRead hNodup hExt ?_ reads_string _ (fun _ _ => rfl) ?_) .nil)))))
    all_goals simp [schema]

theorem reads_config : Reads read ConfigText := config_schema.reads .config .standard

/-! ### Texts -/

/-- **Which texts are configurations.**  A text is read as a configuration if and only if it is one
JSON value with blanks around it and the configuration is written so after the schema.  The value
is an object, in which every name means something and no field is given twice, or an array of at
most as many items as there are fields; what is given has the type of its field, and all else is as
in the standard configuration.  The palette, if given, is written by the same rules. -/
theorem ofText_ok_iff {text : String} {config : Config} :
    ofText text = .ok config ↔ ∃ before value behind, text.toList = before ++ value ++ behind ∧
      Blanks before ∧ Blanks behind ∧ IsValue value ∧ ConfigText value config := by
  rw [ofText, reads_config.whole]
  constructor
  · rintro ⟨before, value, behind, hText, hBefore, hBehind, hConfig⟩
    exact ⟨before, value, behind, hText, hBefore, hBehind,
      config_schema.isValue_of_record hConfig, hConfig⟩
  · rintro ⟨before, value, behind, hText, hBefore, hBehind, -, hConfig⟩
    exact ⟨before, value, behind, hText, hBefore, hBehind, hConfig⟩

/-! ### Lone surrogates -/

theorem not_spells_surrogate (text : List Char) : ¬Spells ['\\', 'u', 'd', '8', '0', '0'] text := by
  intro h
  cases h with
  | plain _ _ hBackslash => exact hBackslash rfl
  | short hShort => cases hShort
  | unit hWord _ hHigh =>
    cases hWord
    cases hHigh

theorem string?_of_escape? {s : List Char} (h : escape? s = none) : string? ('\\' :: s) = none := by
  rw [string?]
  split
  next => rfl
  next hSome => cases h.symm.trans hSome

/-- A string that means nothing cannot be the name of a member. -/
theorem readMembers_nameless {α : Type} {readers : List (FieldReader α)} {seen : List String}
    {a : α} {s u : List Char} (hStart : skipBlanks s = '"' :: u) (hString : string? u = none) :
    readMembers readers seen a s = .error .malformed := by
  rw [readMembers]
  grind

theorem memberText (name value : List Char) :
    MemberText (name, value) ('"' :: name ++ '"' :: ':' :: value) := by
  simpa using @MemberText.mk [] name [] [] [] value blanks_nil blanks_nil blanks_nil blanks_nil

/-- The same string, a surrogate without a partner, is passed over where it is the value of a
member and is rejected where it is the name of one.  So no notion of a well-formed string
serves both. -/
theorem lone_surrogate_as_name_and_as_value :
    let surrogate := ['\\', 'u', 'd', '8', '0', '0']
    let named := "\x7b\"\\ud800\":0\x7d"
    let valued := "\x7b\"x\":\"\\ud800\"\x7d"
    IsString surrogate ∧ (∀ text, ¬Spells surrogate text) ∧
      ObjectText [(surrogate, ['0'])] named.toList ∧ IsValue named.toList ∧
      ofText named = .error .malformed ∧
      ObjectText [(['x'], '"' :: surrogate ++ ['"'])] valued.toList ∧ IsValue valued.toList ∧
      ofText valued = .ok .standard := by
  intro surrogate named valued
  have hString : IsString surrogate := .unit (by decide) .nil
  have hQuoted : IsValue ('"' :: surrogate ++ ['"']) := .string hString
  have hZero : NumeralText ⟨false, ['0'], none, none⟩ ['0'] :=
    ⟨[], [], ⟨⟨by simp, List.forall_mem_singleton.2 rfl⟩, fun _ => rfl⟩, rfl, rfl, rfl⟩
  have hX : Spells ['x'] "x".toList := .plain (by decide) (by decide) (by decide) .nil
  have hNamed : ObjectText [(surrogate, ['0'])] named.toList := by
    rw [show named.toList = '{' :: ('"' :: surrogate ++ '"' :: ':' :: ['0']) ++ ['}'] by
      simp [named, surrogate]]
    exact .listed (.one (memberText surrogate ['0']))
  have hText : valued.toList =
      '{' :: ('"' :: ['x'] ++ '"' :: ':' :: ('"' :: surrogate ++ ['"'])) ++ ['}'] := by
    simp [valued, surrogate]
  have hValued : ObjectText [(['x'], '"' :: surrogate ++ ['"'])] valued.toList := by
    rw [hText]
    exact .listed (.one (memberText ['x'] _))
  refine ⟨hString, not_spells_surrogate, hNamed, ?_, ?_, hValued, ?_, ?_⟩
  · exact .object hNamed (List.forall_mem_singleton.2 hString)
      (List.forall_mem_singleton.2 (.number hZero))
  · have hChars : named.toList =
        ['{', '"', '\\', 'u', 'd', '8', '0', '0', '"', ':', '0', '}'] := by simp [named]
    have hNone : string? ['\\', 'u', 'd', '8', '0', '0', '"', ':', '0', '}'] = none :=
      string?_of_escape? (by decide)
    rw [ofText, readWhole, read, readRecord, hChars, token?_object (skipBlanks_cons (by decide) _)]
    simp only [readObject, skipBlanks_cons (show isBlank '"' = false by decide)]
    rw [readMembers_nameless (skipBlanks_cons (by decide) _) hNone]
    rfl
  · exact .object hValued (List.forall_mem_singleton.2 hX.isString)
      (List.forall_mem_singleton.2 hQuoted)
  · have hUnknown : ∀ name ∈ names schema, name ∉ ["x"] := by decide
    have hGiven : Bracketed GivenText '{' '}' [("x", '"' :: surrogate ++ ['"'])] valued.toList := by
      rw [hText]
      exact .listed (.one (.mk hX (memberText ['x'] _)))
    have hConfig : ConfigText valued.toList .standard :=
      recordText_of_unknown hGiven hUnknown (List.forall_mem_singleton.2 hQuoted)
    rw [ofText, reads_config.whole]
    exact ⟨[], valued.toList, [], (List.append_nil _).symm, blanks_nil, blanks_nil, hConfig⟩

end Config

end Chip8Launcher
