import Chip8Launcher.Proofs.Json.Leaves

/-!
# Skipped values

`skipValue?` passes over exactly the values of the grammar.  It keeps a stack of the nests that
are open, and goes on to the end of the outermost one.  So both directions are about the
point at which a value has ended and `skipClosed?` goes on with the same stack
(`skips_of_isValue`, `skip_sound`).
-/

namespace Chip8Launcher.Json

/-! ### How values begin -/

/-- A value begins with no blank and with no closing bracket. -/
def Begins (s : List Char) : Prop :=
  ∃ c rest, s = c :: rest ∧ isBlank c = false ∧ c ≠ ']' ∧ c ≠ '}'

theorem begins_of_numeral {c : Char} (h : c = '-' ∨ c.isDigit = true) (rest : List Char) :
    Begins (c :: rest) := by
  refine ⟨c, rest, rfl, ?_, ?_, ?_⟩
  · rcases h with rfl | hDigit
    · rfl
    · rw [Bool.eq_false_iff]
      intro hBlank
      have hChars : ((c = ' ' ∨ c = '\t') ∨ c = '\n') ∨ c = '\r' := by
        simpa [isBlank] using hBlank
      rcases hChars with ((rfl | rfl) | rfl) | rfl <;> cases hDigit
  · rintro rfl
    exact absurd h (by decide)
  · rintro rfl
    exact absurd h (by decide)

theorem Bracketed.head {α : Type} {Piece : α → List Char → Prop} {left right : Char}
    {xs : List α} {s : List Char} (h : Bracketed Piece left right xs s) :
    ∃ rest, s = left :: rest := by
  cases h with
  | empty => exact ⟨_, rfl⟩
  | listed => exact ⟨_, rfl⟩

theorem IsValue.begins {s : List Char} (h : IsValue s) : Begins s := by
  cases h with
  | null => exact ⟨_, _, rfl, by decide⟩
  | true => exact ⟨_, _, rfl, by decide⟩
  | false => exact ⟨_, _, rfl, by decide⟩
  | number hNumeral =>
    obtain ⟨c, rest, rfl, hHead⟩ := hNumeral.head
    exact begins_of_numeral hHead rest
  | string => exact ⟨'"', _, rfl, by decide⟩
  | array hText =>
    obtain ⟨rest, rfl⟩ := Bracketed.head hText
    exact ⟨_, rest, rfl, by decide⟩
  | object hText =>
    obtain ⟨rest, rfl⟩ := Bracketed.head hText
    exact ⟨_, rest, rfl, by decide⟩

theorem Begins.skipBlanks {s : List Char} (h : Begins s) {blanks : List Char}
    (hBlanks : Blanks blanks) (r : List Char) : skipBlanks (blanks ++ s ++ r) = s ++ r := by
  obtain ⟨c, rest, rfl, hBlank, -, -⟩ := h
  rw [List.append_assoc, skipBlanks_append hBlanks]
  exact skipBlanks_cons hBlank _

theorem bracketed_append (left right : Char) (s r : List Char) :
    left :: s ++ [right] ++ r = left :: (s ++ right :: r) := by
  rw [List.cons_append, List.cons_append, List.append_assoc, List.singleton_append]

/-! ### Scalars -/

theorem skipScalar?_sound {s r : List Char} (h : skipScalar? s = some r) :
    ∃ value, s = value ++ r ∧ IsValue value := by
  unfold skipScalar? at h
  split at h
  next =>
    obtain rfl := after?_iff.1 h
    exact ⟨['n', 'u', 'l', 'l'], rfl, .null⟩
  next =>
    obtain rfl := after?_iff.1 h
    exact ⟨['t', 'r', 'u', 'e'], rfl, .true⟩
  next =>
    obtain rfl := after?_iff.1 h
    exact ⟨['f', 'a', 'l', 's', 'e'], rfl, .false⟩
  next =>
    obtain ⟨body, rfl, hBody⟩ := skipString?_sound h
    exact ⟨'"' :: body ++ ['"'], (bracketed_append ..).symm, .string hBody⟩
  next =>
    simp only [Option.map_eq_some_iff, Prod.exists] at h
    obtain ⟨n, _, hScan, rfl⟩ := h
    obtain ⟨text, rfl, hText⟩ := Numeral.scan?_sound hScan
    exact ⟨text, rfl, .number hText⟩

theorem skipScalar?_number {n : Numeral} {s r : List Char} (h : NumeralText n s) (hr : Stops r) :
    skipScalar? (s ++ r) = some r := by
  have hScan := Numeral.scan?_complete h hr
  obtain ⟨c, rest, rfl, hHead⟩ := h.head
  unfold skipScalar?
  split
  case h_5 => rw [hScan, Option.map_some]
  all_goals
    next hc =>
      rw [(List.cons.inj hc).1] at hHead
      exact absurd hHead (by decide)

/-! ### The steps of the reader -/

variable {opened : List Nest} {s r t : List Char}

theorem skipValue?_emptyArray (hStart : skipBlanks s = '[' :: r) (hEnd : skipBlanks r = ']' :: t) :
    skipValue? opened s = skipClosed? opened t := by
  rw [skipValue?]
  grind

theorem skipValue?_array (hStart : skipBlanks s = '[' :: r)
    (hEnd : ∀ t, skipBlanks r ≠ ']' :: t) :
    skipValue? opened s = skipValue? (.array :: opened) r := by
  rw [skipValue?]
  grind

theorem skipValue?_emptyObject (hStart : skipBlanks s = '{' :: r)
    (hEnd : skipBlanks r = '}' :: t) : skipValue? opened s = skipClosed? opened t := by
  rw [skipValue?]
  grind

theorem skipValue?_object (hStart : skipBlanks s = '{' :: r)
    (hEnd : ∀ t, skipBlanks r ≠ '}' :: t) :
    skipValue? opened s = skipMember? (.object :: opened) r := by
  rw [skipValue?]
  grind

theorem skipValue?_scalar (hStart : skipBlanks s = t) (hArray : ∀ r, t ≠ '[' :: r)
    (hObject : ∀ r, t ≠ '{' :: r) (hScalar : skipScalar? t = some r) :
    skipValue? opened s = skipClosed? opened r := by
  rw [skipValue?]
  grind

theorem skipMember?_eq {u v : List Char} (hStart : skipBlanks s = '"' :: u)
    (hName : skipString? u = some v) (hColon : skipBlanks v = ':' :: r) :
    skipMember? opened s = skipValue? opened r := by
  rw [skipMember?]
  grind

theorem skipClosed?_nil : skipClosed? [] s = some s := by
  rw [skipClosed?]

theorem skipClosed?_array (hNext : skipBlanks s = ']' :: r) :
    skipClosed? (.array :: opened) s = skipClosed? opened r := by
  rw [skipClosed?]
  grind

theorem skipClosed?_item (hNext : skipBlanks s = ',' :: r) :
    skipClosed? (.array :: opened) s = skipValue? (.array :: opened) r := by
  rw [skipClosed?]
  grind

theorem skipClosed?_object (hNext : skipBlanks s = '}' :: r) :
    skipClosed? (.object :: opened) s = skipClosed? opened r := by
  rw [skipClosed?]
  grind

theorem skipClosed?_member (hNext : skipBlanks s = ',' :: r) :
    skipClosed? (.object :: opened) s = skipMember? (.object :: opened) r := by
  rw [skipClosed?]
  grind

/-! ### Every value is passed over -/

/-- With any nests open, the reader passes over the value and goes on behind it. -/
def Skips (value : List Char) : Prop :=
  ∀ (opened : List Nest) (blanks r : List Char), Blanks blanks → Stops r →
    skipValue? opened (blanks ++ value ++ r) = skipClosed? opened r

theorem skips_of_scalar {value : List Char} (h : IsValue value) (hArray : ∀ r, value ≠ '[' :: r)
    (hObject : ∀ r, value ≠ '{' :: r)
    (hScalar : ∀ {r}, Stops r → skipScalar? (value ++ r) = some r) : Skips value := by
  intro opened blanks r hBlanks hr
  obtain ⟨c, rest, rfl, -⟩ := h.begins
  refine skipValue?_scalar (h.begins.skipBlanks hBlanks r) ?_ ?_ (hScalar hr)
  · intro t hEq
    exact hArray rest (congrArg (· :: rest) (List.cons.inj hEq).1)
  · intro t hEq
    exact hObject rest (congrArg (· :: rest) (List.cons.inj hEq).1)

theorem skipBlanks_behind {blanks : List Char} (h : Blanks blanks) {c : Char}
    (hc : isBlank c = false) (r : List Char) : skipBlanks (blanks ++ c :: r) = c :: r := by
  rw [skipBlanks_append h, skipBlanks_cons hc]

theorem skip_items {items : List (List Char)} (h : Listed ItemText items s)
    (hSkips : ∀ item ∈ items, Skips item) (r : List Char) :
    skipValue? (.array :: opened) (s ++ ']' :: r) = skipClosed? opened r := by
  induction h with
  | one hPiece =>
    obtain ⟨hBefore, hBehind⟩ := hPiece
    rw [List.append_assoc, hSkips _ List.mem_cons_self _ _ _ hBefore
      (stops_blanks hBehind (stops_cons (by decide) _))]
    exact skipClosed?_array (skipBlanks_behind hBehind (by decide) r)
  | more hPiece _ ih =>
    obtain ⟨hItem, hItems⟩ := List.forall_mem_cons.1 hSkips
    obtain ⟨hBefore, hBehind⟩ := hPiece
    rw [List.append_assoc, List.append_assoc, List.cons_append, hItem _ _ _ hBefore
      (stops_blanks hBehind (stops_cons (by decide) _)),
      skipClosed?_item (skipBlanks_behind hBehind (by decide) _)]
    exact ih hItems

/-- The name of a member, the colon and the member's value. -/
theorem skip_member {before name between first value : List Char} (hBefore : Blanks before)
    (hName : IsString name) (hBetween : Blanks between) (hFirst : Blanks first)
    (hSkips : Skips value) (hr : Stops r) :
    skipMember? opened
        (before ++ '"' :: name ++ '"' :: between ++ ':' :: first ++ value ++ r) =
      skipClosed? opened r := by
  have hStart : skipBlanks (before ++ '"' :: name ++ '"' :: between ++ ':' :: first ++ value ++ r) =
      '"' :: (name ++ '"' :: (between ++ ':' :: (first ++ value ++ r))) := by
    simp only [List.append_assoc, List.cons_append]
    exact skipBlanks_behind hBefore (by decide) _
  rw [skipMember?_eq hStart (skipString?_complete hName _)
    (skipBlanks_behind hBetween (by decide) _)]
  exact hSkips _ _ _ hFirst hr

theorem skip_members {members : List (List Char × List Char)} (h : Listed MemberText members s)
    (hNames : ∀ member ∈ members, IsString member.1)
    (hSkips : ∀ member ∈ members, Skips member.2) (r : List Char) :
    skipMember? (.object :: opened) (s ++ '}' :: r) = skipClosed? opened r := by
  induction h with
  | one hPiece =>
    obtain ⟨hBefore, hBetween, hFirst, hBehind⟩ := hPiece
    rw [List.append_assoc, skip_member hBefore (hNames _ List.mem_cons_self) hBetween hFirst
      (hSkips _ List.mem_cons_self) (stops_blanks hBehind (stops_cons (by decide) _))]
    exact skipClosed?_object (skipBlanks_behind hBehind (by decide) r)
  | more hPiece _ ih =>
    obtain ⟨hName, hRest⟩ := List.forall_mem_cons.1 hNames
    obtain ⟨hMember, hMembers⟩ := List.forall_mem_cons.1 hSkips
    obtain @⟨_, name, _, _, _, value, hBefore, hBetween, hFirst, hBehind⟩ := hPiece
    have hName : IsString name := hName
    have hMember : Skips value := hMember
    rw [List.append_assoc, List.append_assoc, List.cons_append,
      skip_member hBefore hName hBetween hFirst hMember
      (stops_blanks hBehind (stops_cons (by decide) _)),
      skipClosed?_member (skipBlanks_behind hBehind (by decide) _)]
    exact ih hRest hMembers

/-- Items do not begin like the end of an array. -/
theorem items_first {items : List (List Char)} (h : Listed ItemText items s)
    (hItems : ∀ item ∈ items, IsValue item) (r t : List Char) :
    skipBlanks (s ++ r) ≠ ']' :: t := by
  have hFirst : ∀ {item piece : List Char} (r : List Char), IsValue item → ItemText item piece →
      skipBlanks (piece ++ r) ≠ ']' :: t := by
    rintro item _ r hItem ⟨hBefore, -⟩
    rw [List.append_assoc, hItem.begins.skipBlanks hBefore]
    obtain ⟨c, rest, rfl, -, hc, -⟩ := hItem.begins
    exact fun hEq => hc (List.cons.inj hEq).1
  cases h with
  | one hPiece => exact hFirst r (hItems _ List.mem_cons_self) hPiece
  | more hPiece _ =>
    rw [List.append_assoc]
    exact hFirst _ (hItems _ List.mem_cons_self) hPiece

/-- Members do not begin like the end of an object. -/
theorem members_first {members : List (List Char × List Char)} (h : Listed MemberText members s)
    (r t : List Char) : skipBlanks (s ++ r) ≠ '}' :: t := by
  have hFirst : ∀ {member : List Char × List Char} {piece : List Char} (r : List Char),
      MemberText member piece → skipBlanks (piece ++ r) ≠ '}' :: t := by
    rintro member _ r ⟨hBefore, -, -, -⟩
    simp only [List.append_assoc, List.cons_append]
    rw [skipBlanks_behind hBefore (by decide)]
    exact fun hEq => absurd (List.cons.inj hEq).1 (by decide)
  cases h with
  | one hPiece => exact hFirst r hPiece
  | more hPiece _ =>
    rw [List.append_assoc]
    exact hFirst _ hPiece

theorem skips_of_isValue {value : List Char} (h : IsValue value) : Skips value := by
  induction h with
  | null => exact skips_of_scalar .null (by simp) (by simp) fun _ => after?_iff.2 rfl
  | true => exact skips_of_scalar .true (by simp) (by simp) fun _ => after?_iff.2 rfl
  | false => exact skips_of_scalar .false (by simp) (by simp) fun _ => after?_iff.2 rfl
  | number hText =>
    obtain ⟨c, rest, rfl, hHead⟩ := hText.head
    refine skips_of_scalar (.number hText) ?_ ?_ (skipScalar?_number hText)
    · intro r hEq
      rw [(List.cons.inj hEq).1] at hHead
      exact absurd hHead (by decide)
    · intro r hEq
      rw [(List.cons.inj hEq).1] at hHead
      exact absurd hHead (by decide)
  | @string s hString =>
    refine skips_of_scalar (.string hString) (by simp) (by simp) ?_
    intro r _
    rw [bracketed_append, skipScalar?]
    exact skipString?_complete hString r
  | array hText hItems ih =>
    intro opened blanks r hBlanks _
    have hStart := (IsValue.array hText hItems).begins.skipBlanks hBlanks r
    cases hText with
    | empty hInner =>
      rw [bracketed_append] at hStart
      exact skipValue?_emptyArray hStart (skipBlanks_behind hInner (by decide) r)
    | listed hListed =>
      rw [bracketed_append] at hStart
      rw [skipValue?_array hStart (items_first hListed hItems _)]
      exact skip_items hListed ih r
  | object hText hNames hValues ih =>
    intro opened blanks r hBlanks _
    have hStart := (IsValue.object hText hNames hValues).begins.skipBlanks hBlanks r
    cases hText with
    | empty hInner =>
      rw [bracketed_append] at hStart
      exact skipValue?_emptyObject hStart (skipBlanks_behind hInner (by decide) r)
    | listed hListed =>
      rw [bracketed_append] at hStart
      rw [skipValue?_object hStart (members_first hListed _)]
      exact skip_members hListed hNames ih r

/-! ### Only values are passed over -/

/-- What lies before `t` is a value and then all that ends the open nests. -/
def PassesValue (opened : List Nest) (s t : List Char) : Prop :=
  ∃ blanks value r, s = blanks ++ value ++ r ∧ Blanks blanks ∧ IsValue value ∧
    skipClosed? opened r = some t

/-- The same from an item of the innermost array on. -/
def PassesItems (opened : List Nest) (s t : List Char) : Prop :=
  ∃ text r items, s = text ++ ']' :: r ∧ Listed ItemText items text ∧
    (∀ item ∈ items, IsValue item) ∧ skipClosed? opened r = some t

/-- The same from a member of the innermost object on. -/
def PassesMembers (opened : List Nest) (s t : List Char) : Prop :=
  ∃ text r members, s = text ++ '}' :: r ∧ Listed MemberText members text ∧
    (∀ member ∈ members, IsString member.1) ∧ (∀ member ∈ members, IsValue member.2) ∧
    skipClosed? opened r = some t

theorem value_sound (h : skipValue? opened s = some t)
    (hItems : ∀ r, r.length < s.length → skipValue? (.array :: opened) r = some t →
      PassesItems opened r t)
    (hMembers : ∀ r, r.length < s.length → skipMember? (.object :: opened) r = some t →
      PassesMembers opened r t) : PassesValue opened s t := by
  rw [skipValue?] at h
  split at h
  next r hStart =>
    obtain ⟨blanks, rfl, hBlanks⟩ := eq_of_skipBlanks hStart
    split at h
    next u hEnd =>
      obtain ⟨inner, rfl, hInner⟩ := eq_of_skipBlanks hEnd
      exact ⟨blanks, '[' :: inner ++ [']'], u, by simp, hBlanks,
        .array (.empty hInner) (List.forall_mem_nil _), h⟩
    next =>
      obtain ⟨text, u, items, rfl, hListed, hValues, hClosed⟩ :=
        hItems r (length_lt_of_skipBlanks hStart) h
      exact ⟨blanks, '[' :: text ++ [']'], u, by simp, hBlanks,
        .array (.listed hListed) hValues, hClosed⟩
  next r hStart =>
    obtain ⟨blanks, rfl, hBlanks⟩ := eq_of_skipBlanks hStart
    split at h
    next u hEnd =>
      obtain ⟨inner, rfl, hInner⟩ := eq_of_skipBlanks hEnd
      exact ⟨blanks, '{' :: inner ++ ['}'], u, by simp, hBlanks,
        .object (.empty hInner) (List.forall_mem_nil _) (List.forall_mem_nil _), h⟩
    next =>
      obtain ⟨text, u, members, rfl, hListed, hNames, hValues, hClosed⟩ :=
        hMembers r (length_lt_of_skipBlanks hStart) h
      exact ⟨blanks, '{' :: text ++ ['}'], u, by simp, hBlanks,
        .object (.listed hListed) hNames hValues, hClosed⟩
  next =>
    obtain ⟨blanks, hBefore, hBlanks⟩ := eq_of_skipBlanks (rfl : skipBlanks s = _)
    split at h
    next => cases h
    next r hScalar =>
      obtain ⟨value, hText, hValue⟩ := skipScalar?_sound hScalar
      rw [hText, ← List.append_assoc] at hBefore
      exact ⟨blanks, value, r, hBefore, hBlanks, hValue, h⟩

theorem IsValue.length_pos {value : List Char} (h : IsValue value) : 0 < value.length := by
  obtain ⟨c, rest, rfl, -⟩ := h.begins
  exact Nat.succ_pos _

theorem items_sound (h : PassesValue (.array :: opened) s t)
    (hItems : ∀ r, r.length < s.length → skipValue? (.array :: opened) r = some t →
      PassesItems opened r t) : PassesItems opened s t := by
  obtain ⟨before, value, r, rfl, hBefore, hValue, hClosed⟩ := h
  have hPos := hValue.length_pos
  rw [skipClosed?] at hClosed
  split at hClosed
  next u hNext =>
    obtain ⟨behind, rfl, hBehind⟩ := eq_of_skipBlanks hNext
    obtain ⟨text, v, items, rfl, hListed, hValues, hClosed⟩ :=
      hItems u (by simp only [List.length_append, List.length_cons]; omega) hClosed
    exact ⟨before ++ value ++ behind ++ ',' :: text, v, value :: items, by simp,
      .more ⟨hBefore, hBehind⟩ hListed, List.forall_mem_cons.2 ⟨hValue, hValues⟩, hClosed⟩
  next u hNext =>
    obtain ⟨behind, rfl, hBehind⟩ := eq_of_skipBlanks hNext
    exact ⟨before ++ value ++ behind, u, [value], by simp, .one ⟨hBefore, hBehind⟩,
      List.forall_mem_singleton.2 hValue, hClosed⟩
  next => cases hClosed

theorem members_sound (h : skipMember? (.object :: opened) s = some t)
    (hValue : ∀ r, r.length < s.length → skipValue? (.object :: opened) r = some t →
      PassesValue (.object :: opened) r t)
    (hMembers : ∀ r, r.length < s.length → skipMember? (.object :: opened) r = some t →
      PassesMembers opened r t) : PassesMembers opened s t := by
  rw [skipMember?] at h
  split at h
  next u hStart =>
    obtain ⟨before, rfl, hBefore⟩ := eq_of_skipBlanks hStart
    split at h
    next => cases h
    next v hSkip =>
      obtain ⟨name, rfl, hName⟩ := skipString?_sound hSkip
      split at h
      next r hColon =>
        obtain ⟨between, rfl, hBetween⟩ := eq_of_skipBlanks hColon
        simp only [List.length_append, List.length_cons] at hValue hMembers
        obtain ⟨first, value, r, rfl, hFirst, hIsValue, hClosed⟩ := hValue r (by omega) h
        simp only [List.length_append] at hMembers
        have hPiece : ∀ {behind}, Blanks behind → MemberText (name, value)
            (before ++ '"' :: name ++ '"' :: between ++ ':' :: first ++ value ++ behind) :=
          .mk hBefore hBetween hFirst
        rw [skipClosed?] at hClosed
        split at hClosed
        next u hNext =>
          obtain ⟨behind, rfl, hBehind⟩ := eq_of_skipBlanks hNext
          simp only [List.length_append, List.length_cons] at hMembers
          obtain ⟨text, v, members, rfl, hListed, hNames, hValues, hClosed⟩ :=
            hMembers u (by omega) hClosed
          exact ⟨_, v, (name, value) :: members, by simp, .more (hPiece hBehind) hListed,
            List.forall_mem_cons.2 ⟨hName, hNames⟩, List.forall_mem_cons.2 ⟨hIsValue, hValues⟩,
            hClosed⟩
        next u hNext =>
          obtain ⟨behind, rfl, hBehind⟩ := eq_of_skipBlanks hNext
          exact ⟨_, u, [(name, value)], by simp, .one (hPiece hBehind),
            List.forall_mem_singleton.2 hName, List.forall_mem_singleton.2 hIsValue, hClosed⟩
        next => cases hClosed
      next => cases h
  next => cases h

/-- The three readers call each other on shorter texts, so `n` bounds the length for all. -/
theorem skip_sound (n : Nat) : ∀ {opened : List Nest} {s t : List Char}, s.length < n →
    (skipValue? opened s = some t → PassesValue opened s t) ∧
    (skipValue? (.array :: opened) s = some t → PassesItems opened s t) ∧
    (skipMember? (.object :: opened) s = some t → PassesMembers opened s t) := by
  induction n with
  | zero => exact fun h => absurd h (Nat.not_lt_zero _)
  | succ n ih =>
    intro opened s t hn
    have hValue : ∀ {opened}, skipValue? opened s = some t → PassesValue opened s t :=
      fun h => value_sound h (fun r hr => (ih (by omega)).2.1) (fun r hr => (ih (by omega)).2.2)
    refine ⟨hValue, fun h => ?_, fun h => ?_⟩
    -- the first item is a value of this same text, so the claim for values is needed at once
    · exact items_sound (hValue h) fun r hr => (ih (by omega)).2.1
    · exact members_sound h (fun r hr => (ih (by omega)).1) (fun r hr => (ih (by omega)).2.2)

/-! ### Values -/

theorem skipValue?_sound (h : skipValue? [] s = some r) :
    ∃ blanks value, s = blanks ++ value ++ r ∧ Blanks blanks ∧ IsValue value := by
  obtain ⟨blanks, value, t, rfl, hBlanks, hValue, hClosed⟩ :=
    (skip_sound (s.length + 1) (Nat.lt_succ_self _)).1 h
  rw [skipClosed?_nil] at hClosed
  obtain rfl := Option.some.inj hClosed
  exact ⟨blanks, value, rfl, hBlanks, hValue⟩

theorem skipValue?_complete {blanks value : List Char} (hBlanks : Blanks blanks)
    (h : IsValue value) (hr : Stops r) : skipValue? [] (blanks ++ value ++ r) = some r := by
  rw [skips_of_isValue h _ _ _ hBlanks hr, skipClosed?_nil]

end Chip8Launcher.Json
