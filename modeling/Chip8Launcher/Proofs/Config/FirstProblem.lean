import Mathlib
import Chip8Launcher.Proofs.Config.OfText
import Chip8Launcher.Proofs.Json.Extending

/-!
# The first problem wins

A record is read from left to right, and what was found wrong with it is not changed by what comes
behind.  A reader is `Steady` if neither its results nor its faults depend on the rest of the text.
When the reader of every field is steady, so is that of the record (`Schema.steady`), and the
texts of a whole record obey `FirstProblemWins`.

A numeral at the very end of a text is not settled yet: with more digits it may be out of range, or
no longer an integer.  But a numeral that is at fault is so with more digits too, and therefore a
text with a fault is the beginning of no text that is in order.
-/

namespace Chip8Launcher.Config

open Json

variable {α β γ : Type} {s r u : List Char} {fault : Fault}

/-- Nothing was read, and for this fault if `r` does not go on with a numeral. -/
def Upholds (fault : Fault) (r : List Char) (read : Except Rejection γ) : Prop :=
  ∃ e, read = .error e ∧ (Stops r → e = .fault fault)

theorem upholds_of_eq {read : Except Rejection γ} (h : read = .error (.fault fault)) :
    Upholds fault r read := ⟨_, h, fun _ => rfl⟩

theorem upholds_of_not_stops {read : Except Rejection γ} {e : Rejection} (h : read = .error e)
    (hr : ¬Stops r) : Upholds fault r read := ⟨e, h, fun hStops => absurd hStops hr⟩

structure Steady (read : List Char → Except Rejection (β × List Char)) : Prop where
  blanks : ∀ {s : List Char}, Blanks s → read s = .error .malformed
  ok : ∀ {s u : List Char} {b : β}, read s = .ok (b, u) → ∀ r, Stops (u ++ r) →
    read (s ++ r) = .ok (b, u ++ r)
  fault : ∀ {s : List Char} {fault : Fault}, read s = .error (.fault fault) → ∀ r,
    Upholds fault r (read (s ++ r))

/-- A reader that knows where its values end has steady results. -/
theorem Reads.ok_append {read : List Char → Except Rejection (β × List Char)}
    {Text : List Char → β → Prop} (h : Reads read Text) {b : β} (hRead : read s = .ok (b, u))
    (r : List Char) (hStops : Stops (u ++ r)) : read (s ++ r) = .ok (b, u ++ r) := by
  obtain ⟨blanks, value, rfl, hBlanks, hText⟩ := h.sound hRead
  rw [List.append_assoc]
  exact h.complete hBlanks hText hStops

/-! ### Strings -/

theorem token?_of_blanks (h : Blanks s) : token? s = none := by
  rw [token?, skipBlanks_blanks h]
  rfl

/-- A reader that finds another token than it expects, and does not expect numbers. -/
theorem upholds_of_token {read : List Char → Except Rejection (β × List Char)}
    {expected : Expected} {t : Token} (h : token? s = some (t, u))
    (hNone : ∀ {s}, token? s = none → read s = .error .malformed)
    (hNumber : ∀ {s n u}, token? s = some (.number n, u) →
      read s = .error (.fault (.invalidType (found (.number n)) expected)))
    (hSame : ∀ {s u}, token? s = some (t, u) →
      read s = .error (.fault (.invalidType (found t) expected))) (r : List Char) :
    Upholds (.invalidType (found t) expected) r (read (s ++ r)) := by
  rcases token?_append h r with hToken | ⟨hr, -, hToken | ⟨n, v, hToken⟩⟩
  · exact upholds_of_eq (hSame hToken)
  · exact upholds_of_not_stops (hNone hToken) hr
  · exact upholds_of_not_stops (hNumber hToken) hr

theorem readString_mismatch {t : Token} (h : token? s = some (t, u))
    (ht : ∀ text, t ≠ .string text) :
    readString s = .error (.fault (.invalidType (found t) .string)) := by
  rw [readString, h]
  cases t with
  | string text => exact absurd rfl (ht text)
  | _ => rfl

theorem steady_string : Steady readString where
  blanks h := by rw [readString, token?_of_blanks h]
  ok h := reads_string.ok_append h
  fault {s fault} h r := by
    cases hToken : token? s with
    | none =>
      rw [readString, hToken] at h
      cases h
    | some read =>
      obtain ⟨t, u⟩ := read
      by_cases hString : ∃ text, t = .string text
      · obtain ⟨text, rfl⟩ := hString
        rw [readString, hToken] at h
        cases h
      · have ht : ∀ text, t ≠ .string text := fun text hEq => hString ⟨text, hEq⟩
        obtain rfl : fault = .invalidType (found t) .string := by
          have hFault := h.symm.trans (readString_mismatch hToken ht)
          cases hFault
          rfl
        refine upholds_of_token hToken ?_ ?_ ?_ r
        · intro s hNone
          rw [readString, hNone]
        · intro s n u hNumber
          exact readString_mismatch hNumber (by simp)
        · intro s u hSame
          exact readString_mismatch hSame ht

/-! ### Sizes -/

theorem magnitude_le_append (ds more : List Char) :
    Numeral.magnitude ds ≤ Numeral.magnitude (ds ++ more) := by
  have hFold : ∀ (more : List Char) (total : Nat),
      total ≤ more.foldl (fun total c => total * 10 + Numeral.digitValue c) total := by
    intro more
    induction more with
    | nil => exact fun total => Nat.le_refl total
    | cons c more ih =>
      intro total
      have hNext : total ≤ total * 10 + Numeral.digitValue c := by omega
      exact Nat.le_trans hNext (ih _)
  rw [Numeral.magnitude, Numeral.magnitude, List.foldl_append]
  exact hFold more _

/-- A size that has lost some of its last digits is another size. -/
theorem SizeText.of_append {ds more : List Char} {n : UInt32} (h : SizeText (ds ++ more) n)
    (hds : ds ≠ []) : ∃ m, SizeText ds m := by
  obtain ⟨⟨⟨-, hDigits⟩, hZero⟩, hMagnitude⟩ := h
  have hSmall : Numeral.magnitude ds < UInt32.size := by
    have := magnitude_le_append ds more
    have := n.toNat_lt
    rw [UInt32.size]
    omega
  refine ⟨UInt32.ofNat (Numeral.magnitude ds), ⟨⟨hds, ?_⟩, ?_⟩, ?_⟩
  · exact fun c hc => hDigits c (List.mem_append_left _ hc)
  · intro hHead
    have hLong := hZero (by rw [List.head?_append, hHead]; rfl)
    have := List.length_pos_iff.2 hds
    rw [List.length_append] at hLong
    omega
  · rw [UInt32.toNat_ofNat_of_lt' hSmall]

theorem stops_of_readSize {n : UInt32} (h : readSize s = .ok (n, u)) : Stops u := by
  unfold readSize at h
  split at h
  next => cases h
  next k v hToken =>
    split at h
    next hRange =>
      obtain ⟨-, rfl⟩ := Prod.mk.inj (Except.ok.inj h)
      obtain ⟨numeral, hScan, hValue⟩ := token?_sound hToken
      obtain ⟨-, hFraction, hExponent, -⟩ := value?_integer hValue hRange.1
      exact Numeral.stops_of_scan? hScan hFraction hExponent
    next => cases h
  next => cases h

/-- What stands before the rest of a size is no fault. -/
theorem readSize_of_append {n : UInt32} (h : readSize (s ++ r) = .ok (n, u)) :
    readSize s ≠ .error (.fault fault) := by
  have hStops := stops_of_readSize h
  obtain ⟨blanks, value, hText, hBlanks, hSize⟩ := reads_size.sound h
  intro hFault
  have hNotBlank : ¬Blanks s := by
    intro hs
    rw [readSize, token?_of_blanks hs] at hFault
    cases hFault
  -- the shorter text ends among the blanks, behind the size or inside of it
  rw [List.append_assoc, List.append_eq_append_iff] at hText
  rcases hText with ⟨rest, rfl, -⟩ | ⟨text, rfl, hText⟩
  · exact hNotBlank fun c hc => hBlanks c (List.mem_append_left _ hc)
  rw [List.append_eq_append_iff] at hText
  rcases hText with ⟨rest, rfl, rfl⟩ | ⟨more, rfl, rfl⟩
  · have hRead := reads_size.complete hBlanks hSize hStops.of_append
    rw [List.append_assoc, hFault] at hRead
    cases hRead
  · have hText : text ≠ [] := by
      rintro rfl
      exact hNotBlank (by rwa [List.append_nil])
    obtain ⟨m, hShorter⟩ := hSize.of_append hText
    have hRead := reads_size.complete hBlanks hShorter stops_nil
    rw [List.append_nil, hFault] at hRead
    cases hRead

theorem steady_size : Steady readSize where
  blanks h := by rw [readSize, token?_of_blanks h]
  ok h := reads_size.ok_append h
  fault {s fault} h r := by
    cases hToken : token? s with
    | none =>
      rw [readSize, hToken] at h
      cases h
    | some read =>
      obtain ⟨t, u⟩ := read
      rcases token?_append hToken r with hSame | ⟨hr, -⟩
      · refine upholds_of_eq ?_
        rw [readSize, hToken] at h
        rw [readSize, hSame]
        cases t with
        | number n =>
          cases n with
          | integer k =>
            dsimp only at h ⊢
            split at h
            next => cases h
            next hRange => exact (if_neg hRange).trans h
          | float x => exact h
        | _ => exact h
      · cases hRead : readSize (s ++ r) with
        | error e => exact upholds_of_not_stops rfl hr
        | ok read => exact absurd h (readSize_of_append hRead)

/-! ### Members -/

variable {readers rest : List (FieldReader α)} {a b : α} {name : String} {seen : List String}

theorem Steady.ofRead {read : List Char → Except Rejection (β × List Char)} (h : Steady read)
    (name : String) (hLength : ∀ {b s r}, read s = .ok (b, r) → r.length < s.length)
    (set : α → β → α) (a : α) : Steady ((FieldReader.ofRead name read hLength set).read a) where
  blanks hs := by
    show (read _).map _ = _
    rw [h.blanks hs]
    rfl
  ok {s u b} hRead r hStops := by
    show (read _).map _ = _
    cases hValue : read s with
    | error e =>
      simp only [FieldReader.ofRead, hValue] at hRead
      cases hRead
    | ok value =>
      simp only [FieldReader.ofRead, hValue] at hRead
      obtain ⟨rfl, rfl⟩ := Prod.mk.inj (Except.ok.inj hRead)
      rw [h.ok hValue r hStops]
      rfl
  fault {s fault} hFault r := by
    show Upholds fault r ((read _).map _)
    cases hValue : read s with
    | error e =>
      simp only [FieldReader.ofRead, hValue] at hFault
      obtain rfl := Except.error.inj hFault
      obtain ⟨e, hError, hStops⟩ := h.fault hValue r
      rw [hError]
      exact ⟨e, rfl, hStops⟩
    | ok value =>
      simp only [FieldReader.ofRead, hValue] at hFault
      cases hFault

theorem skipValue?_of_blanks (h : Blanks s) : skipValue? [] s = none := by
  cases hSkip : skipValue? [] s with
  | none => rfl
  | some u =>
    obtain ⟨blanks, value, rfl, hBlanks, hValue⟩ := skipValue?_sound hSkip
    have hStart := hValue.begins.skipBlanks hBlanks u
    rw [skipBlanks_blanks h] at hStart
    have := hValue.length_pos
    have := congrArg List.length hStart
    rw [List.length_append, List.length_nil] at this
    omega

theorem steady_readValue (h : ∀ reader ∈ readers, ∀ a, Steady (reader.read a)) (name : String)
    (a : α) : Steady (readValue readers name a) := by
  cases hFind : readers.find? (·.name == name) with
  | some reader =>
    have hReader := h reader (List.mem_of_find?_eq_some hFind) a
    have hEq : readValue readers name a = reader.read a := by
      funext s
      rw [readValue, hFind]
    rwa [hEq]
  | none =>
    constructor
    · intro s hs
      rw [readValue, hFind, skipValue?_of_blanks hs]
    · intro s u b hRead r hStops
      rw [readValue, hFind] at hRead ⊢
      cases hSkip : skipValue? [] s with
      | none =>
        rw [hSkip] at hRead
        cases hRead
      | some v =>
        rw [hSkip] at hRead
        obtain ⟨rfl, rfl⟩ := Prod.mk.inj (Except.ok.inj hRead)
        obtain ⟨blanks, value, rfl, hBlanks, hValue⟩ := skipValue?_sound hSkip
        rw [List.append_assoc, skipValue?_complete hBlanks hValue hStops]
    · -- a value that is passed over has no type to be at fault with
      intro s fault hRead
      rw [readValue, hFind] at hRead
      cases hSkip : skipValue? [] s with
      | none =>
        rw [hSkip] at hRead
        cases hRead
      | some v =>
        rw [hSkip] at hRead
        cases hRead

theorem stops_of_skipBlanks {c : Char} {t : List Char} (h : skipBlanks s = c :: t)
    (hc : c.isDigit = false ∧ c ≠ '.' ∧ c ≠ 'e' ∧ c ≠ 'E') (r : List Char) : Stops (s ++ r) := by
  obtain ⟨blanks, rfl, hBlanks⟩ := eq_of_skipBlanks h
  rw [List.append_assoc]
  exact stops_blanks hBlanks (stops_cons hc (t ++ r))

theorem readMembers_repeated {u v : List Char} (hStart : skipBlanks s = '"' :: u)
    (hString : string? u = some (name.toList, v))
    (hRepeated : (readers.any (·.name == name) && seen.contains name) = true) :
    readMembers readers seen a s = .error (.fault (.duplicate name)) := by
  obtain ⟨cs, rfl⟩ : ∃ cs, name = String.ofList cs := ⟨name.toList, String.ofList_toList.symm⟩
  rw [String.toList_ofList] at hString
  rw [readMembers]
  grind

theorem readMembers_failing {u v w : List Char} {e : Rejection} (hStart : skipBlanks s = '"' :: u)
    (hString : string? u = some (name.toList, v))
    (hFresh : ¬(readers.any (·.name == name) && seen.contains name) = true)
    (hColon : skipBlanks v = ':' :: w) (hValue : readValue readers name a w = .error e) :
    readMembers readers seen a s = .error e := by
  obtain ⟨cs, rfl⟩ : ∃ cs, name = String.ofList cs := ⟨name.toList, String.ofList_toList.symm⟩
  rw [String.toList_ofList] at hString
  rw [readMembers]
  grind

/-- The members before a fault are read as before, and so is the one at fault. -/
theorem readMembers_fault (h : ∀ reader ∈ readers, ∀ a, Steady (reader.read a))
    (hRead : readMembers readers seen a s = .error (.fault fault)) (r : List Char) :
    Upholds fault r (readMembers readers seen a (s ++ r)) := by
  fun_induction readMembers readers seen a s with
  | case2 seen a s u hStart cs v hString name hRepeated =>
    obtain rfl := Rejection.fault.inj (Except.error.inj hRead)
    have hString : string? u = some (name.toList, v) := by rwa [String.toList_ofList]
    exact upholds_of_eq (readMembers_repeated (skipBlanks_append_of_cons hStart r)
      (string?_append hString r) hRepeated)
  | case3 seen a s u hStart cs v hString name hFresh w hColon e hValue =>
    obtain rfl := Except.error.inj hRead
    have hString : string? u = some (name.toList, v) := by rwa [String.toList_ofList]
    obtain ⟨e, hError, hStops⟩ := (steady_readValue h name a).fault hValue r
    exact ⟨e, readMembers_failing (skipBlanks_append_of_cons hStart r) (string?_append hString r)
      hFresh (skipBlanks_append_of_cons hColon r) hError, hStops⟩
  | case4 seen a s u hStart cs v hString name hFresh w hColon b x hValue y hNext ih =>
    have hString : string? u = some (name.toList, v) := by rwa [String.toList_ofList]
    have hLater := (steady_readValue h name a).ok hValue r (stops_of_skipBlanks hNext (by decide) r)
    rw [readMembers_more (skipBlanks_append_of_cons hStart r) (string?_append hString r) hFresh
      (skipBlanks_append_of_cons hColon r) hLater (skipBlanks_append_of_cons hNext r)]
    exact ih hRead
  | _ => cases hRead

/-! ### Items -/

theorem readFurther_fault (h : ∀ reader ∈ readers, ∀ a, Steady (reader.read a))
    (hRead : readFurther a readers s = .error (.fault fault)) (r : List Char) :
    Upholds fault r (readFurther a readers (s ++ r)) ∧ Stops (s ++ r) := by
  fun_induction readFurther a readers s with
  | case2 a s reader rest t hNext e hItem =>
    obtain rfl := Except.error.inj hRead
    obtain ⟨hReader, -⟩ := List.forall_mem_cons.1 h
    obtain ⟨e, hError, hStops⟩ := (hReader a).fault hItem r
    rw [readFurther_cons (skipBlanks_append_of_cons hNext r), hError]
    exact ⟨⟨e, rfl, hStops⟩, stops_of_skipBlanks hNext (by decide) r⟩
  | case3 a s reader rest t hNext b v hItem ih =>
    obtain ⟨hReader, hRest⟩ := List.forall_mem_cons.1 h
    obtain ⟨hLater, hStops⟩ := ih hRest hRead
    rw [readFurther_cons (skipBlanks_append_of_cons hNext r), (hReader a).ok hItem r hStops]
    exact ⟨hLater, stops_of_skipBlanks hNext (by decide) r⟩
  | _ => cases hRead

theorem readArray_fault (h : ∀ reader ∈ readers, ∀ a, Steady (reader.read a))
    (hRead : readArray a readers s = .error (.fault fault)) (r : List Char) :
    Upholds fault r (readArray a readers (s ++ r)) := by
  have hEnd : ∀ t, skipBlanks s ≠ ']' :: t := by
    intro t hEnd
    rw [readArray.eq_def, hEnd] at hRead
    cases hRead
  cases readers with
  | nil =>
    unfold readArray at hRead
    split at hRead
    next hStart => exact absurd hStart (hEnd _)
    next hCons _ => cases hCons
    next => cases hRead
  | cons reader rest =>
    obtain ⟨hReader, hRest⟩ := List.forall_mem_cons.1 h
    rw [readArray_cons hEnd] at hRead
    cases hStart : skipBlanks s with
    | nil =>
      rw [(hReader a).blanks (blanks_of_skipBlanks hStart)] at hRead
      cases hRead
    | cons c t =>
      have hLonger : ∀ t, skipBlanks (s ++ r) ≠ ']' :: t := by
        intro t' hEq
        rw [skipBlanks_append_of_cons hStart] at hEq
        exact hEnd t (hStart.trans (congrArg (· :: t) (List.cons.inj hEq).1))
      rw [readArray_cons hLonger]
      cases hItem : reader.read a s with
      | error e =>
        rw [hItem] at hRead
        obtain rfl := Except.error.inj hRead
        obtain ⟨e, hError, hStops⟩ := (hReader a).fault hItem r
        rw [hError]
        exact ⟨e, rfl, hStops⟩
      | ok read =>
        rw [hItem] at hRead
        obtain ⟨hLater, hStops⟩ := readFurther_fault hRest hRead r
        rw [(hReader a).ok hItem r hStops]
        exact hLater

/-! ### Records -/

theorem readRecord_mismatch {expected : Expected} {t : Token} (h : token? s = some (t, u))
    (hArray : t ≠ .openArray) (hObject : t ≠ .openObject) :
    readRecord expected a readers s = .error (.fault (.invalidType (found t) expected)) := by
  rw [readRecord, h]
  cases t with
  | openArray => exact absurd rfl hArray
  | openObject => exact absurd rfl hObject
  | _ => rfl

theorem readObject_fault (h : ∀ reader ∈ readers, ∀ a, Steady (reader.read a))
    (hRead : readObject a readers s = .error (.fault fault)) (r : List Char) :
    Upholds fault r (readObject a readers (s ++ r)) := by
  unfold readObject at hRead
  split at hRead
  next => cases hRead
  next =>
    obtain ⟨u, hStart⟩ : ∃ u, skipBlanks s = '"' :: u := by
      unfold readMembers at hRead
      split at hRead
      next u hStart => exact ⟨u, hStart⟩
      next => cases hRead
    simp only [readObject, skipBlanks_append_of_cons hStart r]
    exact readMembers_fault h hRead r

theorem readRecord_fault (h : ∀ reader ∈ readers, ∀ a, Steady (reader.read a))
    {expected : Expected} (hRead : readRecord expected a readers s = .error (.fault fault))
    (r : List Char) : Upholds fault r (readRecord expected a readers (s ++ r)) := by
  cases hToken : token? s with
  | none =>
    rw [readRecord, hToken] at hRead
    cases hRead
  | some read =>
    obtain ⟨t, u⟩ := read
    have hNest : (∀ n, t ≠ .number n) → token? (s ++ r) = some (t, u ++ r) := by
      intro ht
      rcases token?_append hToken r with hSame | ⟨-, ⟨n, hNumber⟩, -⟩
      · exact hSame
      · exact absurd hNumber (ht n)
    by_cases hArray : t = .openArray
    · subst hArray
      rw [readRecord, hToken] at hRead
      rw [readRecord, hNest (by simp)]
      exact readArray_fault h hRead r
    by_cases hObject : t = .openObject
    · subst hObject
      rw [readRecord, hToken] at hRead
      rw [readRecord, hNest (by simp)]
      exact readObject_fault h hRead r
    have hFault := hRead.symm.trans (readRecord_mismatch hToken hArray hObject)
    obtain rfl := Rejection.fault.inj (Except.error.inj hFault)
    refine upholds_of_token hToken ?_ ?_ ?_ r
    · intro s hNone
      rw [readRecord, hNone]
    · intro s n u hNumber
      exact readRecord_mismatch hNumber (by simp) (by simp)
    · intro s u hSame
      exact readRecord_mismatch hSame hArray hObject

theorem Schema.steady {fields : List (Field α)} (hSchema : Schema fields readers)
    (h : ∀ reader ∈ readers, ∀ a, Steady (reader.read a)) (expected : Expected) (a : α) :
    Steady (readRecord expected a readers) where
  blanks hs := by rw [readRecord, token?_of_blanks hs]
  ok hRead := (hSchema.reads expected a).ok_append hRead
  fault hRead := readRecord_fault h hRead

theorem steady_palette_fields : ∀ reader ∈ Palette.fields, ∀ a, Steady (reader.read a) := by
  simp only [Palette.fields, List.forall_mem_cons]
  exact ⟨steady_string.ofRead _ _ _, steady_string.ofRead _ _ _, fun _ h => nomatch h⟩

theorem steady_palette : Steady Palette.read :=
  palette_schema.steady steady_palette_fields .palette .standard

theorem steady_fields : ∀ reader ∈ fields, ∀ a, Steady (reader.read a) := by
  simp only [fields, List.forall_mem_cons]
  exact ⟨steady_string.ofRead _ _ _, steady_string.ofRead _ _ _, steady_size.ofRead _ _ _,
    steady_size.ofRead _ _ _, steady_palette.ofRead _ _ _, steady_string.ofRead _ _ _,
    fun _ h => nomatch h⟩

/-! ### Texts -/

/-- What is wrong first is what is wrong. -/
structure FirstProblemWins (decode : String → Except Rejection α) : Prop where
  /-- Whatever comes behind a fault and a blank, the fault remains. -/
  fault_stays : ∀ {text : String} {fault : Fault}, decode text = .error (.fault fault) →
    ∀ blank : Char, isBlank blank = true →
      ∀ more : String, decode (text.push blank ++ more) = .error (.fault fault)
  /-- Without the bracket that closes it a text is malformed, and so is what is left when more of
  its end is missing. -/
  cut_malformed : ∀ {text : String} {a : α}, decode text = .ok a →
    ∃ body close behind, text.toList = body ++ close :: behind ∧ (close = ']' ∨ close = '}') ∧
      Blanks behind ∧ ∀ part : String, part.toList <+: body → decode part = .error .malformed

theorem readWhole_fault {read : List Char → Except Rejection (α × List Char)} {text : String} :
    readWhole read text = .error (.fault fault) ↔ read text.toList = .error (.fault fault) := by
  rw [readWhole]
  cases read text.toList with
  | error e => simp
  | ok value =>
    dsimp only
    split <;> simp

/-- The bracket at the end of a record. -/
theorem RecordText.close {fields : List (Field α)} {value : List Char}
    (h : RecordText fields a value b) :
    ∃ body close, value = body ++ [close] ∧ (close = ']' ∨ close = '}') := by
  cases h with
  | object hText =>
    cases hText with
    | empty => exact ⟨_, '}', rfl, .inr rfl⟩
    | listed => exact ⟨_, '}', rfl, .inr rfl⟩
  | array hText =>
    cases hText with
    | empty => exact ⟨_, ']', rfl, .inl rfl⟩
    | listed => exact ⟨_, ']', rfl, .inl rfl⟩

theorem Schema.firstProblemWins {fields : List (Field α)} (hSchema : Schema fields readers)
    (h : ∀ reader ∈ readers, ∀ a, Steady (reader.read a)) (expected : Expected) (a : α) :
    FirstProblemWins (readWhole (readRecord expected a readers)) := by
  have hReads := hSchema.reads expected a
  have hSteady := hSchema.steady h expected a
  constructor
  · intro text fault hFault blank hBlank more
    rw [readWhole_fault] at hFault ⊢
    obtain ⟨e, hError, hStops⟩ := hSteady.fault hFault (blank :: more.toList)
    rw [hStops (stops_blank hBlank _)] at hError
    rw [String.toList_append, String.toList_push, List.append_assoc]
    exact hError
  · intro text b hOk
    obtain ⟨before, value, behind, hText, hBefore, hBehind, hRecord⟩ := hReads.whole.1 hOk
    obtain ⟨body, close, rfl, hClose⟩ := hRecord.close
    refine ⟨before ++ body, close, behind, by simp [hText], hClose, hBehind, ?_⟩
    rintro part ⟨missing, hMissing⟩
    obtain ⟨rest, hRead, hRest⟩ := readWhole_ok.1 hOk
    have hWhole : text.toList = part.toList ++ (missing ++ close :: behind) := by
      rw [← List.append_assoc, hMissing, hText]
      simp
    rw [hWhole] at hRead
    cases hPart : readWhole (readRecord expected a readers) part with
    | error e =>
      cases e with
      | malformed => rfl
      | fault fault =>
        -- the whole text would be at fault, too
        obtain ⟨e, hError, -⟩ :=
          hSteady.fault (readWhole_fault.1 hPart) (missing ++ close :: behind)
        cases hRead.symm.trans hError
    | ok c =>
      -- the record would have ended before the bracket
      obtain ⟨before', value', behind', hText', hBefore', -, hRecord'⟩ := hReads.whole.1 hPart
      have hEarly := hSchema.record_complete expected hBefore' hRecord'
        (behind' ++ (missing ++ close :: behind))
      rw [hText', List.append_assoc, hEarly] at hRead
      obtain ⟨-, rfl⟩ := Prod.mk.inj (Except.ok.inj hRead)
      have hBlank := hRest close (by simp)
      rcases hClose with rfl | rfl <;> cases hBlank

/-- **The first problem wins.**  A fault in a configuration or a palette, be it a value of the wrong
type, a size out of range or a field given twice, stays the same fault when a blank and any text
come behind it.  And a text that is in order is malformed, and not at fault, as soon as the bracket
at its end is missing. -/
theorem first_problem_wins :
    FirstProblemWins Config.ofText ∧ FirstProblemWins Palette.ofText :=
  ⟨config_schema.firstProblemWins steady_fields .config .standard,
    palette_schema.firstProblemWins steady_palette_fields .palette .standard⟩

/-- A negative width at the very end of a text, and a width that is cut in its last digit. -/
theorem first_problem_wins_at_the_end :
    let faulty := "[\"display\",\"rom\",-1"
    let whole := "[\"display\",\"rom\",128]"
    ofText faulty = .error (.fault (.invalidValue (.integer (-1)) .size)) ∧
      isBlank '\n' = true ∧
      (∀ more : String, ofText (faulty.push '\n' ++ more) =
        .error (.fault (.invalidValue (.integer (-1)) .size))) ∧
      ofText whole = .ok { Config.standard with selectorId := "rom", width := 128 } ∧
      ofText "[\"display\",\"rom\",12" = .error .malformed := by
  intro faulty whole
  have hFaulty : ofText faulty = .error (.fault (.invalidValue (.integer (-1)) .size)) := by cbv
  have hWhole : ofText whole = .ok { Config.standard with selectorId := "rom", width := 128 } := by
    cbv
  have hBlank : isBlank '\n' = true := by decide
  refine ⟨hFaulty, hBlank, first_problem_wins.1.fault_stays hFaulty _ hBlank, hWhole, ?_⟩
  obtain ⟨body, close, behind, hText, -, hBehind, hCut⟩ := first_problem_wins.1.cut_malformed hWhole
  -- the bracket is the last character, as that is no blank
  have hChars : whole.toList = "[\"display\",\"rom\",12".toList ++ ['8'] ++ [']'] := by decide
  rw [hChars] at hText
  obtain rfl : behind = [] := by
    rcases List.eq_nil_or_concat behind with hNil | ⟨front, last, rfl⟩
    · exact hNil
    · rw [List.concat_eq_append, ← List.cons_append, ← List.append_assoc] at hText
      obtain rfl := List.singleton_inj.1 (List.append_inj_right' hText rfl)
      exact absurd (hBehind ']' (by simp)) (by decide)
  obtain rfl := List.append_inj_left' hText rfl
  exact hCut _ (List.prefix_append _ _)

end Chip8Launcher.Config
