import Chip8Launcher.Config.OfText
import Chip8Launcher.Proofs.Json.Grammar

/-!
# How records are written

A schema lists the fields of a record: the name of each, what it holds and how that is written.
`RecordText` says which texts are written after a schema and which record they mean.  An object
gives values by name and an array by position, so an array is as good as an object with the names
of the first fields (`List.zip`).  What is not given is as in the standard record.
-/

namespace Chip8Launcher

open Json

namespace Config

structure Field (α : Type) where
  name : String
  Content : Type
  get : α → Content
  /-- How the content is written. -/
  Text : List Char → Content → Prop

variable {α : Type}

def names (fields : List (Field α)) : List String := fields.map Field.name

/-- The record `a` has in this field what is given for it, or else what `standard` has. -/
def Field.Takes (field : Field α) (given : List (String × List Char)) (standard a : α) : Prop :=
  match given.lookup field.name with
  | some value => field.Text value (field.get a)
  | none => field.get a = field.get standard

/-- The text of a member whose name is meant by its string. -/
inductive GivenText : String × List Char → List Char → Prop where
  | mk {name : String} {string value piece : List Char} : Spells string name.toList →
      MemberText (string, value) piece → GivenText (name, value) piece

inductive RecordText (fields : List (Field α)) (standard : α) : List Char → α → Prop where
  /-- No field is given twice, and members of other names may have any value. -/
  | object {given : List (String × List Char)} {text : List Char} {a : α} :
      Bracketed GivenText '{' '}' given text →
      (∀ name ∈ names fields, (given.map Prod.fst).count name ≤ 1) →
      (∀ member ∈ given, member.1 ∉ names fields → IsValue member.2) →
      (∀ field ∈ fields, field.Takes given standard a) → RecordText fields standard text a
  | array {items : List (List Char)} {text : List Char} {a : α} :
      ArrayText items text → items.length ≤ fields.length →
      (∀ field ∈ fields, field.Takes ((names fields).zip items) standard a) →
      RecordText fields standard text a

def StringText (value : List Char) (s : String) : Prop :=
  ∃ body, value = '"' :: body ++ ['"'] ∧ Spells body s.toList

/-- A size is written in digits alone. -/
def SizeText (value : List Char) (n : UInt32) : Prop :=
  Whole value ∧ Numeral.magnitude value = n.toNat

end Config

open Config

def Palette.schema : List (Config.Field Palette) := [
  ⟨"foreground", String, Palette.foreground, StringText⟩,
  ⟨"background", String, Palette.background, StringText⟩]

def PaletteText : List Char → Palette → Prop := RecordText Palette.schema .standard

def Config.schema : List (Config.Field Config) := [
  ⟨"surfaceId", String, Config.surfaceId, StringText⟩,
  ⟨"selectorId", String, Config.selectorId, StringText⟩,
  ⟨"width", UInt32, Config.width, SizeText⟩,
  ⟨"height", UInt32, Config.height, SizeText⟩,
  ⟨"palette", Palette, Config.palette, PaletteText⟩,
  ⟨"logLevel", String, Config.logLevel, StringText⟩]

def ConfigText : List Char → Config → Prop := RecordText Config.schema .standard

namespace Config

variable {α : Type}

/-! ### Records are values -/

theorem StringText.isValue {value : List Char} {s : String} (h : StringText value s) :
    IsValue value := by
  obtain ⟨body, rfl, hSpells⟩ := h
  exact .string hSpells.isString

theorem SizeText.numeral {value : List Char} {n : UInt32} (h : SizeText value n) :
    NumeralText ⟨false, value, none, none⟩ value := ⟨[], [], h.1, rfl, rfl, by simp⟩

theorem SizeText.isValue {value : List Char} {n : UInt32} (h : SizeText value n) :
    IsValue value := .number h.numeral

end Config

end Chip8Launcher
