import Mathlib.Data.List.Nodup
import Chip8Launcher.Proofs.Config.FirstProblem

/-!
# One value in a record that is otherwise in order

`TextAround` says of a text that it gives some value for one field, be it of the right kind or not,
and that all the rest is as the schema has it.  What comes of such a text hangs on that value alone.
If its field can hold it, the text is that of a record (`TextAround.recordText`).  And if it cannot
be read, this is the first problem, because whatever stands before it is in order
(`Schema.record_failing`).
-/

namespace Chip8Launcher.Config

open Json

variable {α : Type} {fields fs : List (Field α)} {readers rest : List (FieldReader α)}
  {standard a b c : α} {name : String} {literal text value : List Char} {e : Rejection}
  {given front behind : List (String × List Char)} {member : String × List Char}

/-- The value is given for the field of that name, and all that is given for other fields is as in
the record `a`. -/
structure GivesAround (fields : List (Field α)) (standard : α) (name : String)
    (literal : List Char) (given : List (String × List Char)) (a : α) : Prop where
  mem : (name, literal) ∈ given
  once : ∀ known ∈ names fields, (given.map Prod.fst).count known ≤ 1
  isValue : ∀ member ∈ given, member.1 ∉ names fields → IsValue member.2
  takes : ∀ field ∈ fields, field.name ≠ name → field.Takes given standard a

/-- A text that gives the value for the field of that name, as a member or as an item, and is
otherwise a text of the record `a`. -/
inductive TextAround (fields : List (Field α)) (standard : α) (name : String)
    (literal : List Char) : List Char → α → Prop where
  | object {given : List (String × List Char)} {text : List Char} {a : α} :
      Bracketed GivenText '{' '}' given text → GivesAround fields standard name literal given a →
      TextAround fields standard name literal text a
  | array {items : List (List Char)} {text : List Char} {a : α} :
      ArrayText items text → items.length ≤ fields.length →
      GivesAround fields standard name literal ((names fields).zip items) a →
      TextAround fields standard name literal text a

/-! ### A value that the field can hold -/

theorem lookup_of_mem (hOnce : (given.map Prod.fst).count name ≤ 1) (h : (name, value) ∈ given) :
    given.lookup name = some value := by
  induction given with
  | nil => cases h
  | cons member given ih =>
    rw [List.map_cons, List.count_cons] at hOnce
    rw [List.lookup_cons]
    rcases List.mem_cons.1 h with rfl | hLater
    · rw [beq_self_eq_true]
    · have hPos : 0 < (given.map Prod.fst).count name :=
        List.count_pos_iff.2 (List.mem_map_of_mem hLater)
      have hOther : ¬(member.1 == name) = true := fun hEq => by
        rw [if_pos hEq] at hOnce
        omega
      rw [if_neg hOther] at hOnce
      rw [beq_eq_false_iff_ne.2 fun hEq => hOther (beq_iff_eq.2 hEq.symm)]
      exact ih hOnce hLater

theorem takes_congr {field : Field α} (h : field.Takes given standard a)
    (hGet : field.get b = field.get a) : field.Takes given standard b := by
  unfold Field.Takes at *
  rwa [hGet]

theorem GivesAround.takes_all (h : GivesAround fields standard name literal given a)
    (hNodup : (names fields).Nodup) {field : Field α} (hField : field ∈ fields)
    (hName : field.name = name) (hText : field.Text literal (field.get b))
    (hOthers : ∀ other ∈ fields, other.name ≠ name → other.get b = other.get a) :
    ∀ other ∈ fields, other.Takes given standard b := by
  intro other hOther
  by_cases hEq : other.name = name
  · obtain rfl := List.inj_on_of_nodup_map hNodup hOther hField (hEq.trans hName.symm)
    have hLookup := lookup_of_mem (h.once other.name (mem_names hOther)) (hEq ▸ h.mem)
    rw [Field.Takes, hLookup]
    exact hText
  · exact takes_congr (h.takes other hOther hEq) (hOthers other hOther hEq)

/-- If the field can hold the value, nothing is wrong with the text. -/
theorem TextAround.recordText (h : TextAround fields standard name literal text a)
    (hNodup : (names fields).Nodup) {field : Field α} (hField : field ∈ fields)
    (hName : field.name = name) (hText : field.Text literal (field.get b))
    (hOthers : ∀ other ∈ fields, other.name ≠ name → other.get b = other.get a) :
    RecordText fields standard text b := by
  cases h with
  | object hObject hGives =>
    exact .object hObject hGives.once hGives.isValue
      (hGives.takes_all hNodup hField hName hText hOthers)
  | array hArray hLength hGives =>
    exact .array hArray hLength (hGives.takes_all hNodup hField hName hText hOthers)

/-! ### What stands before the value -/

/-- The member has a name that is passed over, or a value that its field can hold. -/
def InOrder (fields : List (Field α)) (member : String × List Char) : Prop :=
  (∃ field ∈ fields, field.name = member.1 ∧ ∃ a, field.Text member.2 (field.get a)) ∨
    member.1 ∉ names fields ∧ IsValue member.2

theorem GivesAround.inOrder (h : GivesAround fields standard name literal given a)
    (hMember : member ∈ given) (hName : member.1 ≠ name) : InOrder fields member := by
  obtain ⟨known, value⟩ := member
  by_cases hKnown : known ∈ names fields
  · obtain ⟨field, hField, rfl⟩ := List.mem_map.1 hKnown
    have hTakes := h.takes field hField hName
    rw [Field.Takes, lookup_of_mem (h.once _ hKnown) hMember] at hTakes
    exact .inl ⟨field, hField, rfl, a, hTakes⟩
  · exact .inr ⟨hKnown, h.isValue _ hMember hKnown⟩

theorem GivesAround.split (h : GivesAround fields standard name literal given a)
    (hName : name ∈ names fields) :
    ∃ front behind, given = front ++ (name, literal) :: behind ∧
      ∀ member ∈ front, InOrder fields member := by
  obtain ⟨front, behind, rfl⟩ := List.append_of_mem h.mem
  refine ⟨front, behind, rfl, fun member hMember => h.inOrder ?_ fun hEq => ?_⟩
  · exact List.mem_append_left _ hMember
  · -- the name would be given twice
    have hOnce := h.once name hName
    have hEarlier : 0 < (front.map Prod.fst).count name :=
      List.count_pos_iff.2 (hEq ▸ List.mem_map_of_mem hMember)
    rw [List.map_append, List.count_append, List.map_cons, List.count_cons_self] at hOnce
    omega

/-- The values before it are read, whatever they are. -/
theorem Schema.exists_filled (h : Schema fields readers)
    (hFront : ∀ member ∈ front, InOrder fields member) (a : α) :
    ∃ b, Filled fields front a b := by
  induction front generalizing a with
  | nil => exact ⟨a, .nil⟩
  | cons member front ih =>
    obtain ⟨hMember, hLater⟩ := List.forall_mem_cons.1 hFront
    rcases hMember with ⟨field, hField, hName, c, hText⟩ | ⟨hUnknown, hValue⟩
    · obtain ⟨reader, hMatches⟩ : ∃ reader, Matches fields field reader := h.exists_reader hField
      obtain ⟨b, hGet, hOthers⟩ := hMatches.update a c
      obtain ⟨last, hFilled⟩ := ih hLater b
      exact ⟨last, .cons (.inl ⟨field, hField, hName, hGet ▸ hText, hOthers⟩) hFilled⟩
    · obtain ⟨last, hFilled⟩ := ih hLater a
      exact ⟨last, .cons (.inr ⟨hUnknown, hValue, rfl⟩) hFilled⟩

theorem Schema.isValue_of_inOrder (h : Schema fields readers) (hMember : InOrder fields member) :
    IsValue member.2 := by
  rcases hMember with ⟨field, hField, -, a, hText⟩ | ⟨-, hValue⟩
  · exact h.isValue field hField hText
  · exact hValue

/-- All that is given is JSON if the value in question is. -/
theorem GivesAround.isValue_all (hGives : GivesAround fields standard name literal given a)
    (h : Schema fields readers) (hName : name ∈ names fields) (hLiteral : IsValue literal) :
    ∀ member ∈ given, IsValue member.2 := by
  rintro ⟨other, value⟩ hMember
  by_cases hEq : other = name
  · subst hEq
    have hOnce := hGives.once other hName
    have hValue := (lookup_of_mem hOnce hMember).symm.trans (lookup_of_mem hOnce hGives.mem)
    rwa [Option.some.inj hValue]
  · exact h.isValue_of_inOrder (hGives.inOrder hMember hEq)

/-! ### A value that cannot be read -/

/-- The reader of that field ends at the value with this problem. -/
def FailsAt (readers : List (FieldReader α)) (name : String) (literal : List Char)
    (e : Rejection) : Prop :=
  ∀ reader ∈ readers, reader.name = name → ∀ (a : α) (blanks r : List Char), Blanks blanks →
    Stops r → reader.read a (blanks ++ literal ++ r) = .error e

theorem Schema.readValue_failing (h : Schema fields readers) (hName : name ∈ names fields)
    (hFails : FailsAt readers name literal e) (a : α) {blanks r : List Char}
    (hBlanks : Blanks blanks) (hr : Stops r) :
    Config.readValue readers name a (blanks ++ literal ++ r) = .error e := by
  have hFind := find?_cases h.fits name
  unfold Config.readValue
  split
  next reader hSome =>
    have hReader : (reader.name == name) = true := by simpa using List.find?_some hSome
    exact hFails reader (List.mem_of_find?_eq_some hSome) (beq_iff_eq.1 hReader) a blanks r
      hBlanks hr
  next hNone =>
    rw [hNone] at hFind
    exact absurd hName hFind

/-- The members before the value are read, and then the reading ends. -/
theorem Schema.members_failing (h : Schema fields readers) (hName : name ∈ names fields)
    (hFails : FailsAt readers name literal e) {seen : List String}
    (hListed : Listed GivenText (front ++ (name, literal) :: behind) text)
    (hOnce : Once fields seen (front ++ (name, literal) :: behind))
    (hFilled : Filled fields front a b) (r : List Char) :
    readMembers readers seen a (text ++ '}' :: r) = .error e := by
  -- what stands at the value, whether or not it is the last
  have hLast : ∀ {seen : List String} {a : α} {piece r : List Char},
      GivenText (name, literal) piece → (name ∈ names fields → name ∉ seen) → Stops r →
      readMembers readers seen a (piece ++ r) = .error e := by
    intro seen a piece r hPiece hFresh hr
    obtain ⟨u, v, first, last, hStart, hString, hColon, hFirst, hLast⟩ := hPiece.opens r
    rw [← not_and, ← h.repeats_iff] at hFresh
    exact readMembers_failing hStart hString hFresh hColon
      (h.readValue_failing hName hFails a hFirst (stops_blanks hLast hr))
  induction front generalizing seen a text with
  | nil =>
    have hFresh := (once_cons.1 hOnce).1
    cases hListed with
    | one hPiece => exact hLast hPiece hFresh (stops_cons (by decide) r)
    | more hPiece _ =>
      rw [List.append_assoc]
      exact hLast hPiece hFresh (stops_cons (by decide) _)
  | cons member front ih =>
    obtain ⟨other, value⟩ := member
    obtain ⟨hFresh, hOnce⟩ := once_cons.1 hOnce
    rw [← not_and, ← h.repeats_iff] at hFresh
    rw [List.cons_append] at hListed
    generalize hLater : front ++ (name, literal) :: behind = later at hListed
    cases hListed with
    | one => simp at hLater
    | @more _ _ piece later hPiece hListed =>
      subst hLater
      cases hFilled with
      | cons hFills hFilled =>
        rw [List.append_assoc, List.cons_append]
        obtain ⟨u, v, w, x, hStart, hString, hColon, hValue, hNext⟩ :=
          h.member_complete hPiece hFills (stops_cons (c := ',') (by decide) (later ++ '}' :: r))
        rw [readMembers_more hStart hString hFresh hColon hValue
          (hNext.trans (skipBlanks_cons (by decide) _))]
        exact ih hListed hOnce hFilled

/-- The items before the value are read, and then the reading ends. -/
theorem Schema.items_failing (h : Schema fields readers) {items : List (List Char)}
    (hListed : Listed ItemText items text) (hFits : List.Forall₂ (Matches fields) fs rest)
    (hFields : ∀ field ∈ fs, field ∈ fields)
    (hZip : (names fs).zip items = front ++ (name, literal) :: behind)
    (hFilled : Filled fields front a b) (hFails : FailsAt rest name literal e) (r : List Char) :
    ∃ reader further, rest = reader :: further ∧
      (reader.read a (text ++ ']' :: r)).bind (fun (b, u) => readFurther b further u) =
        .error e := by
  induction hListed generalizing fs rest front a with
  | @one value piece hPiece =>
    cases hFits with
    | nil => simp [names] at hZip
    | @cons field reader fs further hMatches hFits =>
      refine ⟨reader, further, rfl, ?_⟩
      obtain ⟨hBefore, hBehind⟩ := hPiece
      cases front with
      | cons member front => simp [names_cons] at hZip
      | nil =>
        simp only [names_cons, List.zip_cons_cons, List.nil_append, List.cons.injEq,
          Prod.mk.injEq] at hZip
        obtain ⟨⟨hName, rfl⟩, -⟩ := hZip
        rw [List.append_assoc, hFails reader List.mem_cons_self (hMatches.name.trans hName) a _ _
          hBefore (stops_blanks hBehind (stops_cons (by decide) r))]
        rfl
  | @more value items piece text hPiece _ ih =>
    cases hFits with
    | nil => simp [names] at hZip
    | @cons field reader fs further hMatches hFits =>
      refine ⟨reader, further, rfl, ?_⟩
      obtain ⟨hField, hFields⟩ := List.forall_mem_cons.1 hFields
      obtain ⟨hBefore, hBehind⟩ := hPiece
      have hStops := stops_blanks hBehind (stops_cons (c := ',') (by decide) (text ++ ']' :: r))
      rw [List.append_assoc, List.append_assoc, List.cons_append]
      rw [names_cons, List.zip_cons_cons] at hZip
      cases front with
      | nil =>
        obtain ⟨hEq, -⟩ := List.cons.inj hZip
        obtain ⟨hName, rfl⟩ := Prod.mk.inj hEq
        rw [hFails reader List.mem_cons_self (hMatches.name.trans hName) a _ _ hBefore hStops]
        rfl
      | cons member front =>
        obtain ⟨rfl, hRest⟩ := List.cons.inj hZip
        cases hFilled with
        | @cons _ _ _ b _ hFills hFilled =>
          have hPuts := (h.fills_iff hField).1 hFills
          obtain ⟨next, later, rfl, hLater⟩ := ih hFits hFields hRest hFilled
            fun reader hReader => hFails reader (List.mem_cons_of_mem _ hReader)
          rw [(hMatches.reads a).complete hBefore hPuts hStops]
          exact (readFurther_cons (skipBlanks_behind hBehind (by decide) _)).trans hLater

/-- **The value is the first problem**, wherever in the record it stands. -/
theorem Schema.record_failing (h : Schema fields readers) (expected : Expected)
    (hText : TextAround fields standard name literal text a) (hName : name ∈ names fields)
    (hLiteral : IsValue literal) (hFails : FailsAt readers name literal e) {blanks : List Char}
    (hBlanks : Blanks blanks) (r : List Char) :
    readRecord expected standard readers (blanks ++ text ++ r) = .error e := by
  cases hText with
  | @object given _ _ hObject hGives =>
    cases hObject with
    | empty => cases hGives.mem
    | @listed _ inner hListed =>
      have hStart := skipBlanks_behind hBlanks (c := '{') (by decide) (inner ++ '}' :: r)
      obtain ⟨u, hOpens⟩ := listed_opens hListed ('}' :: r)
      obtain ⟨front, behind, rfl, hFront⟩ := hGives.split hName
      obtain ⟨b, hFilled⟩ := h.exists_filled hFront standard
      rw [List.append_assoc, bracketed_append, readRecord, token?_object hStart]
      simp only [readObject, hOpens]
      exact h.members_failing hName hFails hListed (once_of_count hGives.once) hFilled r
  | @array items _ _ hArray hLength hGives =>
    cases hArray with
    | empty =>
      have hMem := hGives.mem
      rw [List.zip_nil_right] at hMem
      cases hMem
    | @listed _ inner hListed =>
      have hStart := skipBlanks_behind hBlanks (c := '[') (by decide) (inner ++ ']' :: r)
      have hValues : ∀ item ∈ items, IsValue item := by
        intro item hItem
        obtain ⟨known, hMember⟩ := exists_mem_zip hLength hItem
        exact hGives.isValue_all h hName hLiteral (known, item) hMember
      obtain ⟨front, behind, hZip, hFront⟩ := hGives.split hName
      obtain ⟨b, hFilled⟩ := h.exists_filled hFront standard
      obtain ⟨reader, further, rfl, hRead⟩ :=
        h.items_failing hListed h.fits (fun _ hField => hField) hZip hFilled hFails r
      rw [List.append_assoc, bracketed_append, readRecord, token?_array hStart]
      exact (readArray_cons fun t => items_first hListed hValues (']' :: r) t).trans hRead

end Chip8Launcher.Config
