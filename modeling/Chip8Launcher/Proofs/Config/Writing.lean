import Mathlib.Data.List.Forall2
import Mathlib.Data.List.Nodup
import Chip8Launcher.Proofs.Config.OfText

/-!
# A configuration that is written out is read back

A writer has many choices.  It may write a record as an object, in any order and under names that
are spelt in any way, or as an array, and it may leave out what is as in the standard record: any
members of an object, but only the last items of an array (`RecordWritten`).  The palette in a
configuration is a record again, and the choices for it are free, too (`writing`).

None of this matters to the reader.  What is written so is a text of the record after the schema
(`RecordWritten.recordText`).
-/

namespace Chip8Launcher

open Json

namespace Config

variable {α : Type} {fields written omitted : List (Field α)} {field finer : Field α}
  {standard a : α} {values : List (List Char)} {given : List (String × List Char)}
  {text : List Char}

/-! ### What a writer may do -/

/-- One value for each of the fields, with its content. -/
def ValuesOf (a : α) (written : List (Field α)) (values : List (List Char)) : Prop :=
  List.Forall₂ (fun field value => field.Text value (field.get a)) written values

def ObjectWritten (written : List (Field α)) (text : List Char) (a : α) : Prop :=
  ∃ values, ValuesOf a written values ∧
    Bracketed GivenText '{' '}' ((names written).zip values) text

def ArrayWritten (written : List (Field α)) (text : List Char) (a : α) : Prop :=
  ∃ values, ValuesOf a written values ∧ ArrayText values text

inductive RecordWritten (fields : List (Field α)) (standard : α) : List Char → α → Prop where
  /-- Members in any order. -/
  | object {written omitted : List (Field α)} {text : List Char} {a : α} :
      (written ++ omitted).Perm fields → (∀ field ∈ omitted, field.get a = field.get standard) →
      ObjectWritten written text a → RecordWritten fields standard text a
  /-- Items in the order of the fields. -/
  | array {written omitted : List (Field α)} {text : List Char} {a : α} :
      written ++ omitted = fields → (∀ field ∈ omitted, field.get a = field.get standard) →
      ArrayWritten written text a → RecordWritten fields standard text a

theorem takes_of_written (hNodup : (names (written ++ omitted)).Nodup)
    (hValues : ValuesOf a written values)
    (hOmitted : ∀ field ∈ omitted, field.get a = field.get standard)
    (hField : field ∈ written ++ omitted) :
    field.Takes ((names written).zip values) standard a := by
  -- along the fields that are written, each of which has one value
  induction hValues with
  | nil => exact hOmitted field hField
  | @cons first value fs values hText _ ih =>
    rw [List.cons_append, names_cons, List.nodup_cons] at hNodup
    rw [names_cons, List.zip_cons_cons]
    rcases List.mem_cons.1 hField with rfl | hLater
    · exact takes_cons_self.2 hText
    · have hName : field.name ≠ first.name := fun hEq => hNodup.1 (hEq ▸ mem_names hLater)
      exact (takes_cons_ne hName rfl).2 (ih hNodup.2 hLater)

theorem names_append (written omitted : List (Field α)) :
    names (written ++ omitted) = names written ++ names omitted := List.map_append

theorem RecordWritten.recordText (hNodup : (names fields).Nodup)
    (h : RecordWritten fields standard text a) : RecordText fields standard text a := by
  cases h with
  | @object written omitted _ _ hPerm hOmitted hWritten =>
    obtain ⟨values, hValues, hText⟩ := hWritten
    have hNames : (names (written ++ omitted)).Perm (names fields) := hPerm.map Field.name
    have hNodup := hNames.nodup_iff.2 hNodup
    have hFirst : (names written).Nodup := by
      rw [names_append] at hNodup
      exact hNodup.of_append_left
    refine .object hText (fun name _ => count_zip_le_one hFirst values name) ?_ ?_
    · intro member hMember hUnknown
      refine absurd (hNames.subset ?_) hUnknown
      rw [names_append]
      exact List.mem_append_left _ (known_of_mem_zip hMember)
    · intro field hField
      exact takes_of_written hNodup hValues hOmitted (hPerm.mem_iff.2 hField)
  | @array written omitted _ _ hFields hOmitted hWritten =>
    obtain ⟨values, hValues, hText⟩ := hWritten
    subst hFields
    have hLength : (names written).length = values.length :=
      (List.length_map Field.name).trans hValues.length_eq
    have hZip : (names (written ++ omitted)).zip values = (names written).zip values := by
      rw [names_append, ← List.append_nil values, List.zip_append hLength, List.zip_nil_right,
        List.append_nil, List.append_nil]
    refine .array hText ?_ fun field hField => ?_
    · rw [← hValues.length_eq, List.length_append]
      exact Nat.le_add_right _ _
    · rw [hZip]
      exact takes_of_written hNodup hValues hOmitted hField

/-! ### Schemas that allow more -/

/-- The same field, with more texts. -/
structure Refines (finer field : Field α) : Prop where
  name : finer.name = field.name
  get : ∀ {a b : α}, finer.get a = finer.get b → field.get a = field.get b
  text : ∀ {value : List Char} {a : α}, finer.Text value (finer.get a) →
    field.Text value (field.get a)

theorem Refines.takes (h : Refines finer field) (hTakes : finer.Takes given standard a) :
    field.Takes given standard a := by
  unfold Field.Takes at *
  rw [← h.name]
  cases hLookup : given.lookup finer.name with
  | some value =>
    rw [hLookup] at hTakes
    exact h.text hTakes
  | none =>
    rw [hLookup] at hTakes
    exact h.get hTakes

theorem names_eq_of_refines {fs : List (Field α)} (h : List.Forall₂ Refines fs fields) :
    names fs = names fields := by
  induction h with
  | nil => rfl
  | cons hRefines _ ih => exact congrArg₂ List.cons hRefines.name ih

theorem exists_refines {fs : List (Field α)} (h : List.Forall₂ Refines fs fields)
    (hField : field ∈ fields) : ∃ finer ∈ fs, Refines finer field := by
  induction h with
  | nil => cases hField
  | @cons finer _ fs _ hRefines _ ih =>
    rcases List.mem_cons.1 hField with rfl | hLater
    · exact ⟨finer, List.mem_cons_self, hRefines⟩
    · obtain ⟨other, hOther, hRefines⟩ := ih hLater
      exact ⟨other, List.mem_cons_of_mem _ hOther, hRefines⟩

theorem RecordText.mono {fs : List (Field α)} (hFits : List.Forall₂ Refines fs fields)
    (h : RecordText fs standard text a) : RecordText fields standard text a := by
  have hNames := names_eq_of_refines hFits
  have hAll : ∀ {given}, (∀ field ∈ fs, field.Takes given standard a) →
      ∀ field ∈ fields, field.Takes given standard a := by
    intro given hTakes field hField
    obtain ⟨finer, hFiner, hRefines⟩ := exists_refines hFits hField
    exact hRefines.takes (hTakes finer hFiner)
  cases h with
  | object hText hOnce hValues hTakes =>
    rw [hNames] at hOnce
    simp only [hNames] at hValues
    exact .object hText hOnce hValues (hAll hTakes)
  | array hText hLength hTakes =>
    rw [hNames] at hTakes
    exact .array hText (hFits.length_eq ▸ hLength) (hAll hTakes)

end Config

end Chip8Launcher
