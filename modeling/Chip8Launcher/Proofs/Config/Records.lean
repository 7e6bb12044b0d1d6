import Mathlib.Data.List.Nodup
import Chip8Launcher.Proofs.Config.Schema
import Chip8Launcher.Proofs.Json.Skipping

/-!
# Records are read as they are written

A reader reads a kind of text if it accepts that text behind blanks, with the right result, and
accepts nothing else (`Reads`).  When each field of a schema is read by its reader (`Schema`), so
is the whole record (`Schema.reads`).

The reader goes from left to right and changes the record at every member.  `Filled` tells of
these changes one after the other.  Together they amount to what the fields take from the members
(`Schema.takes_of_filled`, `Schema.filled_of_takes`).
-/

namespace Chip8Launcher.Config

open Json

variable {α β : Type}

structure Reads (read : List Char → Except Rejection (β × List Char))
    (Text : List Char → β → Prop) : Prop where
  sound : ∀ {s r : List Char} {b : β}, read s = .ok (b, r) →
    ∃ blanks value, s = blanks ++ value ++ r ∧ Blanks blanks ∧ Text value b
  complete : ∀ {blanks value r : List Char} {b : β}, Blanks blanks → Text value b → Stops r →
    read (blanks ++ value ++ r) = .ok (b, r)

/-! ### Fields -/

/-- From `a` to `b` the field gets what the value says, and no other changes. -/
def Field.Puts (fields : List (Field α)) (field : Field α) (value : List Char) (a b : α) : Prop :=
  field.Text value (field.get b) ∧
    ∀ other ∈ fields, other.name ≠ field.name → other.get b = other.get a

structure Matches (fields : List (Field α)) (field : Field α) (reader : FieldReader α) : Prop where
  name : reader.name = field.name
  reads : ∀ a, Reads (reader.read a) fun value b => field.Puts fields value a b
  /-- A field can be changed alone. -/
  update : ∀ a b, ∃ c, field.get c = field.get b ∧
    ∀ other ∈ fields, other.name ≠ field.name → other.get c = other.get a

/-- The readers are for these fields, in this order, and the fields are all there is to a
record. -/
structure Schema (fields : List (Field α)) (readers : List (FieldReader α)) : Prop where
  nodup : (names fields).Nodup
  ext : ∀ {a b : α}, (∀ field ∈ fields, field.get a = field.get b) → a = b
  isValue : ∀ field ∈ fields, ∀ {value : List Char} {content : field.Content},
    field.Text value content → IsValue value
  fits : List.Forall₂ (Matches fields) fields readers

variable {fields fs : List (Field α)} {readers rest : List (FieldReader α)} {a b c : α}
  {name : String} {value s r : List Char} {given : List (String × List Char)}

theorem mem_names {field : Field α} (h : field ∈ fields) : field.name ∈ names fields :=
  List.mem_map_of_mem h

theorem Schema.eq_of_name (h : Schema fields readers) {field other : Field α}
    (hField : field ∈ fields) (hOther : other ∈ fields) (hName : field.name = other.name) :
    field = other :=
  List.inj_on_of_nodup_map h.nodup hField hOther hName

theorem map_name_eq (h : List.Forall₂ (Matches fields) fs readers) :
    readers.map FieldReader.name = names fs := by
  induction h with
  | nil => rfl
  | cons hMatches _ ih => exact congrArg₂ List.cons hMatches.name ih

theorem find?_cases (h : List.Forall₂ (Matches fields) fs readers) (name : String) :
    match readers.find? (·.name == name) with
    | some reader => ∃ field ∈ fs, field.name = name ∧ Matches fields field reader
    | none => name ∉ names fs := by
  induction h with
  | nil => exact List.not_mem_nil
  | @cons field reader fs readers hMatches _ ih =>
    rw [List.find?_cons]
    by_cases hName : reader.name = name
    · rw [beq_iff_eq.2 hName]
      exact ⟨field, List.mem_cons_self, hMatches.name.symm.trans hName, hMatches⟩
    · rw [beq_eq_false_iff_ne.2 hName]
      dsimp only
      cases hFind : readers.find? (·.name == name) with
      | some =>
        rw [hFind] at ih
        obtain ⟨other, hOther, hRest⟩ := ih
        exact ⟨other, List.mem_cons_of_mem _ hOther, hRest⟩
      | none =>
        rw [hFind] at ih
        intro hMem
        rcases List.mem_cons.1 hMem with rfl | hMem
        · exact hName hMatches.name
        · exact ih hMem

theorem Schema.exists_reader (h : Schema fields readers) {field : Field α}
    (hField : field ∈ fields) : ∃ reader, Matches fields field reader := by
  have hFind := find?_cases h.fits field.name
  split at hFind
  next reader _ =>
    obtain ⟨other, hOther, hName, hMatches⟩ := hFind
    obtain rfl := h.eq_of_name hOther hField hName
    exact ⟨reader, hMatches⟩
  next => exact absurd (mem_names hField) hFind

/-! ### Members -/

/-- From `a` to `b` the member has been taken into account. -/
def Fills (fields : List (Field α)) (member : String × List Char) (a b : α) : Prop :=
  (∃ field ∈ fields, field.name = member.1 ∧ field.Puts fields member.2 a b) ∨
    member.1 ∉ names fields ∧ IsValue member.2 ∧ b = a

inductive Filled (fields : List (Field α)) : List (String × List Char) → α → α → Prop where
  | nil {a : α} : Filled fields [] a a
  | cons {member : String × List Char} {given : List (String × List Char)} {a b c : α} :
      Fills fields member a b → Filled fields given b c → Filled fields (member :: given) a c

theorem Schema.fills_iff (h : Schema fields readers) {field : Field α} (hField : field ∈ fields) :
    Fills fields (field.name, value) a b ↔ field.Puts fields value a b := by
  constructor
  · rintro (⟨other, hOther, hName, hPuts⟩ | ⟨hNot, -⟩)
    · rwa [← h.eq_of_name hOther hField hName]
    · exact absurd (mem_names hField) hNot
  · exact fun hPuts => .inl ⟨field, hField, rfl, hPuts⟩

theorem Schema.readValue (h : Schema fields readers) (name : String) (a : α) :
    Reads (readValue readers name a) fun value b => Fills fields (name, value) a b := by
  have hFind := find?_cases h.fits name
  constructor
  · intro s r b hRead
    unfold Config.readValue at hRead
    split at hRead
    next reader hSome =>
      rw [hSome] at hFind
      obtain ⟨field, hField, rfl, hMatches⟩ := hFind
      obtain ⟨blanks, value, rfl, hBlanks, hPuts⟩ := (hMatches.reads a).sound hRead
      exact ⟨blanks, value, rfl, hBlanks, (h.fills_iff hField).2 hPuts⟩
    next hNone =>
      rw [hNone] at hFind
      split at hRead
      next => cases hRead
      next hSkip =>
        obtain ⟨rfl, rfl⟩ := Prod.mk.inj (Except.ok.inj hRead)
        obtain ⟨blanks, value, rfl, hBlanks, hValue⟩ := skipValue?_sound hSkip
        exact ⟨blanks, value, rfl, hBlanks, .inr ⟨hFind, hValue, rfl⟩⟩
  · intro blanks value r b hBlanks hFills hr
    unfold Config.readValue
    split
    next reader hSome =>
      rw [hSome] at hFind
      obtain ⟨field, hField, rfl, hMatches⟩ := hFind
      exact (hMatches.reads a).complete hBlanks ((h.fills_iff hField).1 hFills) hr
    next hNone =>
      rw [hNone] at hFind
      rcases hFills with ⟨field, hField, rfl, -⟩ | ⟨-, hValue, rfl⟩
      · exact absurd (mem_names hField) hFind
      · rw [skipValue?_complete hBlanks hValue hr]

/-- No name of a field is given twice or has been seen before. -/
def Once (fields : List (Field α)) (seen : List String) (given : List (String × List Char)) :
    Prop :=
  ∀ name ∈ names fields, (given.map Prod.fst).count name ≤ 1 ∧
    (name ∈ seen → name ∉ given.map Prod.fst)

theorem once_of_count (h : ∀ name ∈ names fields, (given.map Prod.fst).count name ≤ 1) :
    Once fields [] given := fun name hName => ⟨h name hName, by simp⟩

theorem once_nil (seen : List String) : Once fields seen [] := fun _ _ => ⟨by simp, by simp⟩

theorem once_cons {seen : List String} :
    Once fields seen ((name, value) :: given) ↔
      (name ∈ names fields → name ∉ seen) ∧ Once fields (name :: seen) given := by
  constructor
  · intro h
    refine ⟨fun hName hSeen => (h name hName).2 hSeen List.mem_cons_self, fun other hOther => ?_⟩
    obtain ⟨hCount, hSeen⟩ := h other hOther
    rw [List.map_cons, List.count_cons] at hCount
    refine ⟨by omega, fun hMem => ?_⟩
    rcases List.mem_cons.1 hMem with rfl | hMem
    · rw [if_pos (beq_self_eq_true _)] at hCount
      exact List.count_eq_zero.1 (by omega)
    · exact fun hGiven => hSeen hMem (List.mem_cons_of_mem _ hGiven)
  · rintro ⟨hFresh, h⟩ other hOther
    obtain ⟨hCount, hSeen⟩ := h other hOther
    by_cases hName : other = name
    · subst hName
      have hNot := hSeen List.mem_cons_self
      refine ⟨?_, fun hMem => absurd hMem (hFresh hOther)⟩
      rw [List.map_cons, List.count_cons_self, List.count_eq_zero.2 hNot]
    · refine ⟨?_, fun hMem hGiven => ?_⟩
      · rw [List.map_cons, List.count_cons_of_ne (Ne.symm hName)]
        exact hCount
      · rcases List.mem_cons.1 hGiven with hEq | hGiven
        · exact hName hEq
        · exact hSeen (List.mem_cons_of_mem _ hMem) hGiven

theorem not_given_of_once (h : Once fields [] ((name, value) :: given))
    (hName : name ∈ names fields) : name ∉ given.map Prod.fst :=
  ((once_cons.1 h).2 name hName).2 List.mem_cons_self

theorem Once.tail {member : String × List Char} (h : Once fields [] (member :: given)) :
    Once fields [] given :=
  once_of_count fun name hName => ((once_cons.1 h).2 name hName).1

/-! ### What the changes amount to -/

theorem takes_of_not_given {field : Field α} (h : field.name ∉ given.map Prod.fst) :
    field.Takes given a b ↔ field.get b = field.get a := by
  have hNone : given.lookup field.name = none := by
    rw [List.lookup_eq_none_iff]
    intro member hMember
    rw [bne_iff_ne]
    exact fun hName => h (List.mem_map.2 ⟨member, hMember, hName.symm⟩)
  rw [Field.Takes, hNone]

theorem takes_cons_self {field : Field α} :
    field.Takes ((field.name, value) :: given) a b ↔ field.Text value (field.get b) := by
  rw [Field.Takes, List.lookup_cons_self]

/-- A member of another name makes no difference, nor does a change of other fields. -/
theorem takes_cons_ne {field : Field α} (h : field.name ≠ name) (hGet : field.get b = field.get a) :
    field.Takes ((name, value) :: given) a c ↔ field.Takes given b c := by
  rw [Field.Takes, Field.Takes, List.lookup_cons, beq_eq_false_iff_ne.2 h, hGet]

theorem Schema.takes_of_filled (h : Schema fields readers) (hFilled : Filled fields given a c)
    (hOnce : Once fields [] given) :
    (∀ member ∈ given, member.1 ∉ names fields → IsValue member.2) ∧
      ∀ field ∈ fields, field.Takes given a c := by
  induction hFilled with
  | nil => exact ⟨fun _ hMember => absurd hMember List.not_mem_nil, fun _ _ => rfl⟩
  | @cons member given a b c hFills _ ih =>
    obtain ⟨name, value⟩ := member
    obtain ⟨hValues, hTakes⟩ := ih hOnce.tail
    rcases hFills with ⟨field, hField, rfl, hText, hOthers⟩ | ⟨hName, hValue, rfl⟩
    · refine ⟨List.forall_mem_cons.2 ⟨fun hName => absurd (mem_names hField) hName, hValues⟩, ?_⟩
      intro other hOther
      by_cases hEq : other.name = field.name
      · obtain rfl := h.eq_of_name hOther hField hEq
        have hLater := (takes_of_not_given (not_given_of_once hOnce (mem_names hField))).1
          (hTakes other hOther)
        rw [takes_cons_self, hLater]
        exact hText
      · exact (takes_cons_ne hEq (hOthers other hOther hEq)).2 (hTakes other hOther)
    · refine ⟨List.forall_mem_cons.2 ⟨fun _ => hValue, hValues⟩, fun field hField => ?_⟩
      have hEq : field.name ≠ name := fun hEq => hName (hEq ▸ mem_names hField)
      exact (takes_cons_ne hEq rfl).2 (hTakes field hField)

theorem Schema.filled_of_takes (h : Schema fields readers) (hOnce : Once fields [] given)
    (hValues : ∀ member ∈ given, member.1 ∉ names fields → IsValue member.2)
    (hTakes : ∀ field ∈ fields, field.Takes given a c) : Filled fields given a c := by
  induction given generalizing a with
  | nil =>
    obtain rfl : c = a := h.ext hTakes
    exact .nil
  | cons member given ih =>
    obtain ⟨name, value⟩ := member
    obtain ⟨hValue, hRest⟩ := List.forall_mem_cons.1 hValues
    by_cases hName : name ∈ names fields
    · obtain ⟨field, hField, rfl⟩ := List.mem_map.1 hName
      -- the record in between has the new content in this field alone
      obtain ⟨reader, hMatches⟩ : ∃ reader, Matches fields field reader := h.exists_reader hField
      obtain ⟨b, hGet, hOthers⟩ := hMatches.update a c
      have hText := takes_cons_self.1 (hTakes field hField)
      refine .cons (.inl ⟨field, hField, rfl, hGet ▸ hText, hOthers⟩) (ih hOnce.tail hRest ?_)
      intro other hOther
      by_cases hEq : other.name = field.name
      · obtain rfl := h.eq_of_name hOther hField hEq
        exact (takes_of_not_given (not_given_of_once hOnce hName)).2 hGet.symm
      · exact (takes_cons_ne hEq (hOthers other hOther hEq)).1 (hTakes other hOther)
    · refine .cons (.inr ⟨hName, hValue hName, rfl⟩) (ih hOnce.tail hRest fun field hField => ?_)
      have hEq : field.name ≠ name := fun hEq => hName (hEq ▸ mem_names hField)
      exact (takes_cons_ne hEq rfl).1 (hTakes field hField)

/-! ### Objects -/

theorem Schema.repeats_iff (h : Schema fields readers) (seen : List String) (name : String) :
    (readers.any (·.name == name) && seen.contains name) = true ↔
      name ∈ names fields ∧ name ∈ seen := by
  rw [Bool.and_eq_true, List.contains_iff_mem, ← map_name_eq h.fits, List.any_eq_true, List.mem_map]
  simp only [beq_iff_eq]

/-- What the reader has passed from the start of a member to what stands behind the member. -/
theorem Schema.member_sound (h : Schema fields readers) {u v w x y cs : List Char} {next : Char}
    (hStart : skipBlanks s = '"' :: u) (hString : string? u = some (cs, v))
    (hColon : skipBlanks v = ':' :: w)
    (hValue : Config.readValue readers (String.ofList cs) a w = .ok (b, x))
    (hNext : skipBlanks x = next :: y) :
    ∃ value piece, s = piece ++ next :: y ∧ GivenText (String.ofList cs, value) piece ∧
      Fills fields (String.ofList cs, value) a b := by
  obtain ⟨before, rfl, hBefore⟩ := eq_of_skipBlanks hStart
  obtain ⟨body, rfl, hSpells⟩ := string?_sound hString
  obtain ⟨between, rfl, hBetween⟩ := eq_of_skipBlanks hColon
  obtain ⟨first, value, rfl, hFirst, hFills⟩ := (h.readValue _ a).sound hValue
  obtain ⟨behind, rfl, hBehind⟩ := eq_of_skipBlanks hNext
  rw [← String.toList_ofList (l := cs)] at hSpells
  exact ⟨value, before ++ '"' :: body ++ '"' :: between ++ ':' :: first ++ value ++ behind,
    by simp, .mk hSpells ⟨hBefore, hBetween, hFirst, hBehind⟩, hFills⟩

theorem Schema.members_sound (h : Schema fields readers) {seen : List String}
    (hRead : readMembers readers seen a s = .ok (c, r)) :
    ∃ given text, s = text ++ '}' :: r ∧ Listed GivenText given text ∧ Once fields seen given ∧
      Filled fields given a c := by
  fun_induction readMembers readers seen a s with
  | case4 seen a s u hStart cs v hString name hFresh w hColon b x hValue y hNext ih =>
    obtain ⟨value, piece, rfl, hPiece, hFills⟩ :=
      h.member_sound hStart hString hColon hValue hNext
    obtain ⟨given, text, rfl, hListed, hOnce, hFilled⟩ := ih hRead
    rw [h.repeats_iff, not_and] at hFresh
    exact ⟨(name, value) :: given, piece ++ ',' :: text, by simp, .more hPiece hListed,
      once_cons.2 ⟨hFresh, hOnce⟩, .cons hFills hFilled⟩
  | case5 seen a s u hStart cs v hString name hFresh w hColon b x hValue y hNext =>
    obtain ⟨value, piece, rfl, hPiece, hFills⟩ :=
      h.member_sound hStart hString hColon hValue hNext
    obtain ⟨rfl, rfl⟩ := Prod.mk.inj (Except.ok.inj hRead)
    rw [h.repeats_iff, not_and] at hFresh
    exact ⟨[(name, value)], piece, rfl, .one hPiece, once_cons.2 ⟨hFresh, once_nil _⟩,
      .cons hFills .nil⟩
  | _ => cases hRead

/-- The reader comes from the text of a member to its value. -/
theorem GivenText.opens {piece : List Char} (h : GivenText (name, value) piece) (r : List Char) :
    ∃ u v first behind, skipBlanks (piece ++ r) = '"' :: u ∧
      string? u = some (name.toList, v) ∧
      skipBlanks v = ':' :: (first ++ value ++ (behind ++ r)) ∧ Blanks first ∧ Blanks behind := by
  obtain @⟨_, string, _, _, hSpells, hPiece⟩ := h
  obtain @⟨before, _, between, first, behind, _, hBefore, hBetween, hFirst, hBehind⟩ := hPiece
  refine ⟨string ++ '"' :: (between ++ ':' :: (first ++ value ++ (behind ++ r))),
    between ++ ':' :: (first ++ value ++ (behind ++ r)), first, behind, ?_,
    string?_complete hSpells _, skipBlanks_behind hBetween (by decide) _, hFirst, hBehind⟩
  simp only [List.append_assoc, List.cons_append]
  exact skipBlanks_behind hBefore (by decide) _

theorem listed_opens (h : Listed GivenText given text) (r : List Char) :
    ∃ u, skipBlanks (text ++ r) = '"' :: u := by
  cases h with
  | @one member _ hPiece =>
    obtain ⟨name, value⟩ := member
    obtain ⟨u, -, -, -, hStart, -⟩ := hPiece.opens r
    exact ⟨u, hStart⟩
  | @more member _ _ later hPiece _ =>
    obtain ⟨name, value⟩ := member
    obtain ⟨u, -, -, -, hStart, -⟩ := hPiece.opens (',' :: later ++ r)
    rw [List.append_assoc]
    exact ⟨u, hStart⟩

/-- The reader comes from the text of a member to what stands behind the member. -/
theorem Schema.member_complete (h : Schema fields readers) {piece : List Char}
    (hPiece : GivenText (name, value) piece) (hFills : Fills fields (name, value) a b)
    (hr : Stops r) :
    ∃ u v w x, skipBlanks (piece ++ r) = '"' :: u ∧ string? u = some (name.toList, v) ∧
      skipBlanks v = ':' :: w ∧ Config.readValue readers name a w = .ok (b, x) ∧
      skipBlanks x = skipBlanks r := by
  obtain ⟨u, v, first, behind, hStart, hString, hColon, hFirst, hBehind⟩ := hPiece.opens r
  exact ⟨u, v, _, behind ++ r, hStart, hString, hColon,
    (h.readValue name a).complete hFirst hFills (stops_blanks hBehind hr),
    skipBlanks_append hBehind r⟩

theorem readMembers_more {seen : List String} {u v w x y : List Char}
    (hStart : skipBlanks s = '"' :: u) (hString : string? u = some (name.toList, v))
    (hFresh : ¬(readers.any (·.name == name) && seen.contains name) = true)
    (hColon : skipBlanks v = ':' :: w) (hValue : Config.readValue readers name a w = .ok (b, x))
    (hNext : skipBlanks x = ',' :: y) :
    readMembers readers seen a s = readMembers readers (name :: seen) b y := by
  obtain ⟨cs, rfl⟩ : ∃ cs, name = String.ofList cs := ⟨name.toList, String.ofList_toList.symm⟩
  rw [String.toList_ofList] at hString
  rw [readMembers]
  grind

theorem readMembers_one {seen : List String} {u v w x y : List Char}
    (hStart : skipBlanks s = '"' :: u) (hString : string? u = some (name.toList, v))
    (hFresh : ¬(readers.any (·.name == name) && seen.contains name) = true)
    (hColon : skipBlanks v = ':' :: w) (hValue : Config.readValue readers name a w = .ok (b, x))
    (hNext : skipBlanks x = '}' :: y) : readMembers readers seen a s = .ok (b, y) := by
  obtain ⟨cs, rfl⟩ : ∃ cs, name = String.ofList cs := ⟨name.toList, String.ofList_toList.symm⟩
  rw [String.toList_ofList] at hString
  rw [readMembers]
  grind

theorem Schema.members_complete (h : Schema fields readers) {text : List Char}
    (hListed : Listed GivenText given text) {seen : List String} (hOnce : Once fields seen given)
    (hFilled : Filled fields given a c) (r : List Char) :
    readMembers readers seen a (text ++ '}' :: r) = .ok (c, r) := by
  -- along the pieces, each of which comes with one change
  induction hListed generalizing seen a with
  | @one member piece hPiece =>
    obtain ⟨name, value⟩ := member
    cases hFilled with
    | cons hFills hRest =>
      cases hRest
      have hFresh := (once_cons.1 hOnce).1
      rw [← not_and, ← h.repeats_iff] at hFresh
      obtain ⟨u, v, w, x, hStart, hString, hColon, hValue, hNext⟩ :=
        h.member_complete hPiece hFills (stops_cons (c := '}') (by decide) r)
      exact readMembers_one hStart hString hFresh hColon hValue
        (hNext.trans (skipBlanks_cons (by decide) r))
  | @more member given piece text hPiece _ ih =>
    obtain ⟨name, value⟩ := member
    cases hFilled with
    | cons hFills hRest =>
      obtain ⟨hFresh, hOnce⟩ := once_cons.1 hOnce
      rw [← not_and, ← h.repeats_iff] at hFresh
      rw [List.append_assoc, List.cons_append]
      obtain ⟨u, v, w, x, hStart, hString, hColon, hValue, hNext⟩ :=
        h.member_complete hPiece hFills (stops_cons (c := ',') (by decide) (text ++ '}' :: r))
      rw [readMembers_more hStart hString hFresh hColon hValue
        (hNext.trans (skipBlanks_cons (by decide) _))]
      exact ih hOnce hRest

/-! ### Arrays -/

/-- What may stand behind the value of an item, up to the end of the array. -/
inductive ItemsTail : List (List Char) → List Char → Prop where
  | nil {blanks : List Char} : Blanks blanks → ItemsTail [] blanks
  | cons {items : List (List Char)} {blanks text : List Char} : Blanks blanks →
      Listed ItemText items text → ItemsTail items (blanks ++ ',' :: text)

theorem ItemsTail.listed {items : List (List Char)} {before text : List Char}
    (h : ItemsTail items text) (hBefore : Blanks before) :
    Listed ItemText (value :: items) (before ++ value ++ text) := by
  cases h with
  | nil hBlanks => exact .one ⟨hBefore, hBlanks⟩
  | cons hBlanks hListed =>
    rw [← List.append_assoc]
    exact .more ⟨hBefore, hBlanks⟩ hListed

theorem names_cons (field : Field α) (fs : List (Field α)) :
    names (field :: fs) = field.name :: names fs := rfl

/-- An item and what stands behind it, up to the end of the array. -/
theorem Schema.item_sound (h : Schema fields readers) {field : Field α} {reader : FieldReader α}
    {u : List Char} {n : Nat} {later : List String} (hField : field ∈ fields)
    (hMatches : Matches fields field reader) (hRead : reader.read a s = .ok (b, u))
    (hTail : ∃ items text, u = text ++ ']' :: r ∧ ItemsTail items text ∧ items.length ≤ n ∧
      Filled fields (later.zip items) b c) :
    ∃ items text, s = text ++ ']' :: r ∧ Listed ItemText items text ∧ items.length ≤ n + 1 ∧
      Filled fields ((field.name :: later).zip items) a c := by
  obtain ⟨items, text, rfl, hTail, hLength, hFilled⟩ := hTail
  obtain ⟨before, value, rfl, hBefore, hPuts⟩ := (hMatches.reads a).sound hRead
  refine ⟨value :: items, before ++ value ++ text, by simp, hTail.listed hBefore,
    Nat.succ_le_succ hLength, ?_⟩
  rw [List.zip_cons_cons]
  exact .cons ((h.fills_iff hField).2 hPuts) hFilled

/-- Values by position, from one of the fields on. -/
theorem Schema.further_sound (h : Schema fields readers)
    (hFits : List.Forall₂ (Matches fields) fs rest) (hFields : ∀ field ∈ fs, field ∈ fields)
    (hRead : readFurther a rest s = .ok (c, r)) :
    ∃ items text, s = text ++ ']' :: r ∧ ItemsTail items text ∧ items.length ≤ fs.length ∧
      Filled fields ((names fs).zip items) a c := by
  fun_induction readFurther a rest s generalizing fs with
  | case1 a rest s r hStart =>
    obtain ⟨blanks, rfl, hBlanks⟩ := eq_of_skipBlanks hStart
    obtain ⟨rfl, rfl⟩ := Prod.mk.inj (Except.ok.inj hRead)
    refine ⟨[], blanks, rfl, .nil hBlanks, Nat.zero_le _, ?_⟩
    rw [List.zip_nil_right]
    exact .nil
  | case3 a s reader rest u hStart b v hValue ih =>
    cases hFits with
    | @cons field _ fs _ hMatches hFits =>
      obtain ⟨hField, hFields⟩ := List.forall_mem_cons.1 hFields
      obtain ⟨blanks, rfl, hBlanks⟩ := eq_of_skipBlanks hStart
      obtain ⟨items, text, rfl, hListed, hLength, hFilled⟩ :=
        h.item_sound hField hMatches hValue (ih hFits hFields hRead)
      exact ⟨items, blanks ++ ',' :: text, by simp, .cons hBlanks hListed, hLength, hFilled⟩
  | _ => cases hRead

theorem readFurther_end (h : skipBlanks s = ']' :: r) : readFurther a readers s = .ok (a, r) := by
  rw [readFurther.eq_def]
  simp only [h]

theorem readFurther_cons {reader : FieldReader α} (h : skipBlanks s = ',' :: r) :
    readFurther a (reader :: rest) s =
      (reader.read a r).bind fun (b, u) => readFurther b rest u := by
  rw [readFurther.eq_def]
  simp only [h]
  cases reader.read a r <;> rfl

theorem readArray_cons {reader : FieldReader α} (h : ∀ t, skipBlanks s ≠ ']' :: t) :
    readArray a (reader :: rest) s =
      (reader.read a s).bind fun (b, u) => readFurther b rest u := by
  unfold readArray
  split
  next hEnd => exact absurd hEnd (h _)
  next hCons _ =>
    obtain ⟨rfl, rfl⟩ := List.cons.inj hCons
    cases reader.read a s <;> rfl
  next hNil _ => cases hNil

/-- The first of these fields is read, and then the further ones. -/
theorem Schema.items_complete (h : Schema fields readers) {items : List (List Char)}
    {text : List Char} (hListed : Listed ItemText items text)
    (hFits : List.Forall₂ (Matches fields) fs rest) (hFields : ∀ field ∈ fs, field ∈ fields)
    (hLength : items.length ≤ fs.length) (hFilled : Filled fields ((names fs).zip items) a c)
    (r : List Char) :
    ∃ reader further b u, rest = reader :: further ∧
      reader.read a (text ++ ']' :: r) = .ok (b, u) ∧ readFurther b further u = .ok (c, r) := by
  induction hListed generalizing fs rest a with
  | @one value piece hPiece =>
    cases hFits with
    | nil => cases hLength
    | @cons field reader fs further hMatches hFits =>
      rw [names_cons, List.zip_cons_cons, List.zip_nil_right] at hFilled
      cases hFilled with
      | cons hFills hRest =>
        cases hRest
        have hPuts := (h.fills_iff (hFields field List.mem_cons_self)).1 hFills
        obtain ⟨hBefore, hBehind⟩ := hPiece
        rw [List.append_assoc]
        refine ⟨reader, further, c, _, rfl, (hMatches.reads a).complete hBefore hPuts
          (stops_blanks hBehind (stops_cons (by decide) r)), ?_⟩
        exact readFurther_end (skipBlanks_behind hBehind (by decide) r)
  | @more value items piece text hPiece _ ih =>
    cases hFits with
    | nil => cases hLength
    | @cons field reader fs further hMatches hFits =>
      rw [names_cons, List.zip_cons_cons] at hFilled
      cases hFilled with
      | @cons _ _ _ b _ hFills hRest =>
        obtain ⟨hField, hFields⟩ := List.forall_mem_cons.1 hFields
        have hPuts := (h.fills_iff hField).1 hFills
        obtain ⟨hBefore, hBehind⟩ := hPiece
        obtain ⟨reader', further', b', u, rfl, hRead, hFurther⟩ :=
          ih hFits hFields (Nat.le_of_succ_le_succ hLength) hRest
        rw [List.append_assoc, List.append_assoc, List.cons_append]
        refine ⟨reader, reader' :: further', b, _, rfl, (hMatches.reads a).complete hBefore hPuts
          (stops_blanks hBehind (stops_cons (by decide) _)), ?_⟩
        rw [readFurther_cons (skipBlanks_behind hBehind (by decide) _), hRead]
        exact hFurther

theorem zip_names_sublist (names : List String) (items : List (List Char)) :
    ((names.zip items).map Prod.fst).Sublist names := by
  induction names generalizing items with
  | nil => exact .slnil
  | cons name names ih =>
    cases items with
    | nil => exact List.nil_sublist _
    | cons item items => exact (ih items).cons_cons name

theorem count_zip_le_one {names : List String} (h : names.Nodup) (items : List (List Char))
    (name : String) : ((names.zip items).map Prod.fst).count name ≤ 1 :=
  List.nodup_iff_count_le_one.1 (h.sublist (zip_names_sublist names items)) name

theorem Schema.once_zip (h : Schema fields readers) (items : List (List Char)) :
    Once fields [] ((names fields).zip items) :=
  once_of_count fun name _ => count_zip_le_one h.nodup items name

/-- Every member of an array has the name of a field. -/
theorem known_of_mem_zip {names : List String} {items : List (List Char)}
    {member : String × List Char} (h : member ∈ names.zip items) : member.1 ∈ names :=
  (zip_names_sublist names items).subset (List.mem_map_of_mem h)

/-- No item of an array is without a field. -/
theorem exists_mem_zip {items : List (List Char)} {item : List Char}
    (hLength : items.length ≤ fields.length) (h : item ∈ items) :
    ∃ name, (name, item) ∈ (names fields).zip items := by
  obtain ⟨k, hk, rfl⟩ := List.getElem_of_mem h
  have hName : k < (names fields).length := by
    rw [names, List.length_map]
    omega
  have hZip : k < ((names fields).zip items).length := by
    rw [List.length_zip]
    omega
  exact ⟨(names fields)[k], List.mem_iff_getElem.2 ⟨k, hZip, List.getElem_zip⟩⟩

/-! ### Records are values -/

theorem Schema.isValue_of_given (h : Schema fields readers) (hOnce : Once fields [] given)
    (hValues : ∀ member ∈ given, member.1 ∉ names fields → IsValue member.2)
    (hTakes : ∀ field ∈ fields, field.Takes given a c) : ∀ member ∈ given, IsValue member.2 := by
  have hFilled := h.filled_of_takes hOnce hValues hTakes
  clear hOnce hValues hTakes
  induction hFilled with
  | nil => exact fun _ hMember => absurd hMember List.not_mem_nil
  | cons hFills _ ih =>
    refine List.forall_mem_cons.2 ⟨?_, ih⟩
    rcases hFills with ⟨field, hField, -, hText, -⟩ | ⟨-, hValue, -⟩
    · exact h.isValue field hField hText
    · exact hValue

theorem listed_members {text : List Char} (h : Listed GivenText given text)
    (hValues : ∀ member ∈ given, IsValue member.2) :
    ∃ members, Listed MemberText members text ∧ (∀ member ∈ members, IsString member.1) ∧
      ∀ member ∈ members, IsValue member.2 := by
  induction h with
  | one hPiece =>
    obtain ⟨hSpells, hPiece⟩ := hPiece
    exact ⟨_, .one hPiece, List.forall_mem_singleton.2 hSpells.isString,
      List.forall_mem_singleton.2 (hValues _ List.mem_cons_self)⟩
  | more hPiece _ ih =>
    obtain ⟨hValue, hRest⟩ := List.forall_mem_cons.1 hValues
    obtain ⟨hSpells, hPiece⟩ := hPiece
    obtain ⟨members, hListed, hNames, hMembers⟩ := ih hRest
    exact ⟨_, .more hPiece hListed, List.forall_mem_cons.2 ⟨hSpells.isString, hNames⟩,
      List.forall_mem_cons.2 ⟨hValue, hMembers⟩⟩

theorem Schema.isValue_of_items (h : Schema fields readers) {items : List (List Char)}
    (hLength : items.length ≤ fields.length)
    (hTakes : ∀ field ∈ fields, field.Takes ((names fields).zip items) a c) :
    ∀ item ∈ items, IsValue item := by
  have hAll := h.isValue_of_given (h.once_zip items)
    (fun _ hMember hName => absurd (known_of_mem_zip hMember) hName) hTakes
  intro item hItem
  obtain ⟨name, hMember⟩ := exists_mem_zip hLength hItem
  exact hAll (name, item) hMember

theorem Schema.isValue_of_record (h : Schema fields readers) (hText : RecordText fields a value c) :
    IsValue value := by
  cases hText with
  | object hText hOnce hValues hTakes =>
    have hAll := h.isValue_of_given (once_of_count hOnce) hValues hTakes
    cases hText with
    | empty hBlanks =>
      exact .object (.empty hBlanks) (fun _ h => nomatch h) (fun _ h => nomatch h)
    | listed hListed =>
      obtain ⟨members, hListed, hNames, hMembers⟩ := listed_members hListed hAll
      exact .object (.listed hListed) hNames hMembers
  | array hText hLength hTakes => exact .array hText (h.isValue_of_items hLength hTakes)

/-! ### Records -/

/-- Members of other names make no difference. -/
theorem recordText_of_unknown {text : List Char} (hText : Bracketed GivenText '{' '}' given text)
    (hUnknown : ∀ name ∈ names fields, name ∉ given.map Prod.fst)
    (hValues : ∀ member ∈ given, IsValue member.2) : RecordText fields a text a := by
  refine .object hText ?_ (fun member hMember _ => hValues member hMember) ?_
  · intro name hName
    rw [List.count_eq_zero.2 (hUnknown name hName)]
    exact Nat.zero_le _
  · intro field hField
    exact (takes_of_not_given (hUnknown field.name (mem_names hField))).2 rfl

theorem Schema.eq_of_takes_nil (h : Schema fields readers)
    (hTakes : ∀ field ∈ fields, field.Takes [] a c) : c = a := h.ext hTakes

theorem Schema.object_sound (h : Schema fields readers)
    (hRead : readObject a readers s = .ok (c, r)) :
    ∃ rest, s = rest ++ '}' :: r ∧ RecordText fields a ('{' :: rest ++ ['}']) c := by
  unfold readObject at hRead
  split at hRead
  next hEnd =>
    obtain ⟨blanks, rfl, hBlanks⟩ := eq_of_skipBlanks hEnd
    obtain ⟨rfl, rfl⟩ := Prod.mk.inj (Except.ok.inj hRead)
    exact ⟨blanks, rfl, .object (.empty hBlanks) (by simp) (by simp) fun _ _ => rfl⟩
  next =>
    obtain ⟨given, text, rfl, hListed, hOnce, hFilled⟩ := h.members_sound hRead
    obtain ⟨hValues, hTakes⟩ := h.takes_of_filled hFilled hOnce
    exact ⟨text, rfl, .object (.listed hListed) (fun name hName => (hOnce name hName).1) hValues
      hTakes⟩

theorem Schema.array_sound (h : Schema fields readers)
    (hRead : readArray a readers s = .ok (c, r)) :
    ∃ rest, s = rest ++ ']' :: r ∧ RecordText fields a ('[' :: rest ++ [']']) c := by
  have hFits := h.fits
  unfold readArray at hRead
  split at hRead
  next hEnd =>
    obtain ⟨blanks, rfl, hBlanks⟩ := eq_of_skipBlanks hEnd
    obtain ⟨rfl, rfl⟩ := Prod.mk.inj (Except.ok.inj hRead)
    refine ⟨blanks, rfl, .array (.empty hBlanks) (Nat.zero_le _) ?_⟩
    rw [List.zip_nil_right]
    exact fun _ _ => rfl
  next reader rest _ _ =>
    split at hRead
    next => cases hRead
    next b u hValue =>
      obtain ⟨field, fs, hMatches, hRest, rfl⟩ := List.forall₂_cons_right_iff.1 hFits
      obtain ⟨hField, hFields⟩ := List.forall_mem_cons.1 fun field (hMem : field ∈ _) => hMem
      obtain ⟨items, text, rfl, hListed, hLength, hFilled⟩ :=
        h.item_sound hField hMatches hValue (h.further_sound hRest hFields hRead)
      exact ⟨text, rfl, .array (.listed hListed) hLength
        (h.takes_of_filled hFilled (h.once_zip items)).2⟩
  next => cases hRead

theorem Schema.object_complete (h : Schema fields readers)
    (hText : Bracketed GivenText '{' '}' given value) (hOnce : Once fields [] given)
    (hValues : ∀ member ∈ given, member.1 ∉ names fields → IsValue member.2)
    (hTakes : ∀ field ∈ fields, field.Takes given a c) (r : List Char) :
    ∃ rest, value = '{' :: rest ++ ['}'] ∧
      readObject a readers (rest ++ '}' :: r) = .ok (c, r) := by
  cases hText with
  | @empty rest hBlanks =>
    obtain rfl := h.eq_of_takes_nil hTakes
    refine ⟨rest, rfl, ?_⟩
    simp only [readObject, skipBlanks_behind hBlanks (show isBlank '}' = false by decide)]
  | @listed _ rest hListed =>
    obtain ⟨u, hOpens⟩ := listed_opens hListed ('}' :: r)
    refine ⟨rest, rfl, ?_⟩
    simp only [readObject, hOpens]
    exact h.members_complete hListed hOnce (h.filled_of_takes hOnce hValues hTakes) r

theorem Schema.array_complete (h : Schema fields readers) {items : List (List Char)}
    (hText : ArrayText items value) (hLength : items.length ≤ fields.length)
    (hTakes : ∀ field ∈ fields, field.Takes ((names fields).zip items) a c) (r : List Char) :
    ∃ rest, value = '[' :: rest ++ [']'] ∧
      readArray a readers (rest ++ ']' :: r) = .ok (c, r) := by
  cases hText with
  | @empty rest hBlanks =>
    rw [List.zip_nil_right] at hTakes
    obtain rfl := h.eq_of_takes_nil hTakes
    refine ⟨rest, rfl, ?_⟩
    simp only [readArray, skipBlanks_behind hBlanks (show isBlank ']' = false by decide)]
  | @listed _ rest hListed =>
    have hAll := h.isValue_of_items hLength hTakes
    have hFilled := h.filled_of_takes (h.once_zip items)
      (fun _ hMember hName => absurd (known_of_mem_zip hMember) hName) hTakes
    obtain ⟨reader, further, b, u, rfl, hRead, hFurther⟩ :=
      h.items_complete hListed h.fits (fun _ => id) hLength hFilled r
    refine ⟨rest, rfl, ?_⟩
    rw [readArray_cons (items_first hListed hAll (']' :: r)), hRead]
    exact hFurther

/-- A record shows where it ends, so any text may follow. -/
theorem Schema.record_complete (h : Schema fields readers) (expected : Expected)
    {blanks : List Char} (hBlanks : Blanks blanks) (hText : RecordText fields a value c)
    (r : List Char) : readRecord expected a readers (blanks ++ value ++ r) = .ok (c, r) := by
  have hStart := (h.isValue_of_record hText).begins.skipBlanks hBlanks r
  cases hText with
  | object hText hOnce hValues hTakes =>
    obtain ⟨rest, rfl, hRead⟩ := h.object_complete hText (once_of_count hOnce) hValues hTakes r
    rw [bracketed_append] at hStart
    simp only [readRecord, token?_object hStart]
    exact hRead
  | array hText hLength hTakes =>
    obtain ⟨rest, rfl, hRead⟩ := h.array_complete hText hLength hTakes r
    rw [bracketed_append] at hStart
    simp only [readRecord, token?_array hStart]
    exact hRead

theorem Schema.reads (h : Schema fields readers) (expected : Expected) (a : α) :
    Reads (readRecord expected a readers) (RecordText fields a) := by
  constructor
  · intro s r c hRead
    unfold readRecord at hRead
    split at hRead
    next => cases hRead
    next hToken =>
      obtain ⟨blanks, rfl, hBlanks⟩ := eq_of_skipBlanks (token?_sound hToken)
      obtain ⟨rest, rfl, hText⟩ := h.array_sound hRead
      exact ⟨blanks, _, by simp, hBlanks, hText⟩
    next hToken =>
      obtain ⟨blanks, rfl, hBlanks⟩ := eq_of_skipBlanks (token?_sound hToken)
      obtain ⟨rest, rfl, hText⟩ := h.object_sound hRead
      exact ⟨blanks, _, by simp, hBlanks, hText⟩
    next => cases hRead
  · exact fun hBlanks hText _ => h.record_complete expected hBlanks hText _

theorem readWhole_ok {read : List Char → Except Rejection (β × List Char)} {text : String} {b : β} :
    readWhole read text = .ok b ↔ ∃ behind, read text.toList = .ok (b, behind) ∧ Blanks behind := by
  rw [readWhole]
  cases read text.toList with
  | error e => simp
  | ok read =>
    obtain ⟨b', behind⟩ := read
    dsimp only
    split
    next hEnd => simp [blanks_of_skipBlanks hEnd]
    next hEnd =>
      have hBehind : ¬Blanks behind := fun h => hEnd (skipBlanks_blanks h)
      simp [hBehind]

/-- A whole text is a value with blanks around it. -/
theorem Reads.whole {read : List Char → Except Rejection (β × List Char)}
    {Text : List Char → β → Prop} (h : Reads read Text) {text : String} {b : β} :
    readWhole read text = .ok b ↔ ∃ before value behind,
      text.toList = before ++ value ++ behind ∧ Blanks before ∧ Blanks behind ∧ Text value b := by
  rw [readWhole_ok]
  constructor
  · rintro ⟨behind, hRead, hBehind⟩
    obtain ⟨before, value, hText, hBefore, hValue⟩ := h.sound hRead
    exact ⟨before, value, behind, hText, hBefore, hBehind, hValue⟩
  · rintro ⟨before, value, behind, hText, hBefore, hBehind, hValue⟩
    have hStops : Stops behind := List.append_nil behind ▸ stops_blanks hBehind stops_nil
    rw [hText]
    exact ⟨behind, h.complete hBefore hValue hStops, hBehind⟩

end Chip8Launcher.Config
