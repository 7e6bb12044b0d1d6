import Chip8Launcher.Proofs.Display.Painting
import Chip8Launcher.Proofs.Text.Joined

/-!
# What a picture tells

Pixels are kept column after column and shown row after row.  `getElem?_rowText` is the only place
where the two orders meet; from there on a picture is its lines, joined by newlines that occur in
none of them, so that it can be taken apart again.

A picture tells everything of a framebuffer that shows at all: `eq_of_lines` reads the size and the
pixels off the lines, and `text_eq_nil_iff` says which framebuffers show nothing.
-/

namespace Chip8Launcher.Framebuffer

variable {screen other : Framebuffer} {x y : Nat}

theorem glyph_injective : Function.Injective glyph := by
  intro a b h
  cases a <;> cases b <;> simp [glyph] at h ⊢

theorem glyph_ne_newline (shade : Shade) : glyph shade ≠ '\n' := by
  cases shade <;> decide

/-! ### Rows -/

/-- Within the surface no column is left out of a row. -/
theorem rowText_eq (hy : y < screen.rows.toNat) :
    screen.rowText y = (List.range screen.columns.toNat).map fun x =>
      glyph ((screen.pixel? x y).getD default) := by
  rw [rowText, List.filterMap_eq_map_iff_forall_eq_some]
  intro x hx
  obtain ⟨_, hShade⟩ := pixel?_eq_some (List.mem_range.1 hx) hy
  rw [hShade]
  rfl

theorem length_rowText (hy : y < screen.rows.toNat) :
    (screen.rowText y).length = screen.columns.toNat := by
  rw [rowText_eq hy, List.length_map, List.length_range]

theorem getElem?_rowText (hy : y < screen.rows.toNat) (x : Nat) :
    (screen.rowText y)[x]? = (screen.pixel? x y).map glyph := by
  by_cases hx : x < screen.columns.toNat
  · obtain ⟨_, hShade⟩ := pixel?_eq_some hx hy
    rw [rowText_eq hy, List.getElem?_map, List.getElem?_range hx, Option.map_some, hShade]
    rfl
  · have hOutside : (screen.rowText y).length ≤ x := by
      rw [length_rowText hy]
      omega
    rw [List.getElem?_eq_none hOutside, pixel?_of_not_lt fun h => hx h.1]
    rfl

theorem getElem?_rowText_eq_glyph (hy : y < screen.rows.toNat) (x : Nat) (shade : Shade) :
    (screen.rowText y)[x]? = some (glyph shade) ↔ screen.pixel? x y = some shade := by
  rw [getElem?_rowText hy, Option.map_eq_some_iff]
  constructor
  · rintro ⟨shown, hShown, hGlyph⟩
    rw [hShown, glyph_injective hGlyph]
  · intro hShade
    exact ⟨shade, hShade, rfl⟩

/-! ### Lines -/

/-- The rows as they are shown, from the top. -/
def lines (screen : Framebuffer) : List (List Char) :=
  (List.range screen.rows.toNat).map screen.rowText

theorem text_eq (screen : Framebuffer) : screen.text = ['\n'].intercalate screen.lines := rfl

@[simp] theorem length_lines (screen : Framebuffer) :
    screen.lines.length = screen.rows.toNat := by
  rw [lines, List.length_map, List.length_range]

theorem getElem?_lines_eq_some {line : List Char} :
    screen.lines[y]? = some line ↔ y < screen.rows.toNat ∧ line = screen.rowText y := by
  rw [lines, List.getElem?_map, Option.map_eq_some_iff]
  constructor
  · rintro ⟨y', hy', rfl⟩
    obtain ⟨hLt, rfl⟩ := List.getElem?_eq_some_iff.1 hy'
    rw [List.length_range] at hLt
    rw [List.getElem_range]
    exact ⟨hLt, rfl⟩
  · rintro ⟨hLt, rfl⟩
    exact ⟨y, List.getElem?_range hLt, rfl⟩

theorem newline_not_mem {line : List Char} (h : line ∈ screen.lines) : '\n' ∉ line := by
  intro hMem
  obtain ⟨y, -, rfl⟩ := List.mem_map.1 h
  obtain ⟨x, -, hShown⟩ := List.mem_filterMap.1 hMem
  obtain ⟨shade, -, hGlyph⟩ := Option.map_eq_some_iff.1 hShown
  exact glyph_ne_newline shade hGlyph

/-- A surface that has rows is its lines: how many there are, how long they are and what they
show. -/
theorem eq_of_lines (hRows : screen.rows.toNat ≠ 0) (h : screen.lines = other.lines) :
    screen = other := by
  have hSame : screen.rows.toNat = other.rows.toNat := by
    rw [← length_lines, h, length_lines]
  have hRow : ∀ y, y < screen.rows.toNat → screen.rowText y = other.rowText y := by
    intro y hy
    have hLine : screen.lines[y]? = some (screen.rowText y) :=
      getElem?_lines_eq_some.2 ⟨hy, rfl⟩
    rw [h] at hLine
    exact (getElem?_lines_eq_some.1 hLine).2
  have hWidth : screen.columns.toNat = other.columns.toNat := by
    rw [← length_rowText (Nat.pos_of_ne_zero hRows), hRow 0 (Nat.pos_of_ne_zero hRows),
      length_rowText (by omega)]
  refine ext_pixel (UInt64.toNat_inj.1 hWidth) (UInt64.toNat_inj.1 hSame) fun x y => ?_
  by_cases hy : y < screen.rows.toNat
  · have hGlyphs : (screen.pixel? x y).map glyph = (other.pixel? x y).map glyph := by
      rw [← getElem?_rowText hy, hRow y hy, getElem?_rowText (hSame ▸ hy)]
    exact Option.map_injective glyph_injective hGlyphs
  · rw [pixel?_of_not_lt fun hInside => hy hInside.2,
      pixel?_of_not_lt fun hInside => hy (hSame ▸ hInside.2)]

/-! ### The text -/

theorem text_eq_nil_iff :
    screen.text = [] ↔
      screen.rows.toNat = 0 ∨ screen.columns.toNat = 0 ∧ screen.rows.toNat = 1 := by
  rw [text_eq, Text.intercalate_eq_nil_iff]
  refine or_congr ?_ ?_
  · rw [← length_lines, List.length_eq_zero_iff]
  · constructor
    · intro hLines
      have hRows : screen.rows.toNat = 1 := by rw [← length_lines, hLines]; rfl
      have hLine : screen.lines[0]? = some [] := by rw [hLines]; rfl
      obtain ⟨hTop, hEmpty⟩ := getElem?_lines_eq_some.1 hLine
      rw [← length_rowText hTop, ← hEmpty]
      exact ⟨rfl, hRows⟩
    · rintro ⟨hColumns, hRows⟩
      have hTop : 0 < screen.rows.toNat := by omega
      have hEmpty : screen.rowText 0 = [] :=
        List.length_eq_zero_iff.1 ((length_rowText hTop).trans hColumns)
      rw [lines, hRows, List.range_one, List.map_singleton, hEmpty]

/-- Texts that show something come from one framebuffer only. -/
theorem text_eq_text_iff :
    screen.text = other.text ↔ screen = other ∨ screen.text = [] ∧ other.text = [] := by
  constructor
  · intro h
    by_cases hNothing : screen.text = []
    · exact .inr ⟨hNothing, h ▸ hNothing⟩
    · have hRows : screen.rows.toNat ≠ 0 := fun h => hNothing (text_eq_nil_iff.2 (.inl h))
      have hRows' : other.rows.toNat ≠ 0 := fun h' =>
        hNothing (h.trans (text_eq_nil_iff.2 (.inl h')))
      refine .inl (eq_of_lines hRows ?_)
      refine Text.intercalate_injective (fun _ => newline_not_mem) (fun _ => newline_not_mem)
        ?_ ?_ h
      · rwa [Ne, ← List.length_eq_zero_iff, length_lines]
      · rwa [Ne, ← List.length_eq_zero_iff, length_lines]
  · rintro (rfl | ⟨hNothing, hNothing'⟩)
    · rfl
    · rw [hNothing, hNothing']

/-- Rows without pixels leave only what stands between them. -/
theorem text_of_no_columns (hColumns : screen.columns.toNat = 0) :
    screen.text = List.replicate (screen.rows.toNat - 1) '\n' := by
  have hLines : screen.lines = List.replicate screen.rows.toNat [] := by
    rw [List.eq_replicate_iff, length_lines]
    refine ⟨rfl, fun line hLine => ?_⟩
    obtain ⟨y, hy⟩ := List.mem_iff_getElem?.1 hLine
    obtain ⟨hInside, rfl⟩ := getElem?_lines_eq_some.1 hy
    exact List.length_eq_zero_iff.1 ((length_rowText hInside).trans hColumns)
  rw [text_eq, hLines, Text.intercalate_replicate_nil]

theorem isBlank_iff_text : screen.isBlank = true ↔ glyph .background ∉ screen.text := by
  rw [isBlank_iff, text_eq, Text.mem_intercalate (glyph_ne_newline _)]
  constructor
  · rintro hBlank ⟨line, hLine, hMem⟩
    obtain ⟨y, hy⟩ := List.mem_iff_getElem?.1 hLine
    obtain ⟨hInside, rfl⟩ := getElem?_lines_eq_some.1 hy
    obtain ⟨x, hx⟩ := List.mem_iff_getElem?.1 hMem
    have hColumn := (List.getElem?_eq_some_iff.1 hx).1
    rw [length_rowText hInside] at hColumn
    rw [getElem?_rowText_eq_glyph hInside, hBlank x y hColumn hInside] at hx
    cases hx
  · intro hNone x y hx hy
    obtain ⟨_, hShade⟩ := pixel?_eq_some hx hy
    generalize screen.pixels[x * screen.rows.toNat + y] = shade at hShade
    cases shade with
    | foreground => exact hShade
    | background =>
      refine absurd ⟨screen.rowText y, ?_, ?_⟩ hNone
      · exact List.mem_iff_getElem?.2 ⟨y, getElem?_lines_eq_some.2 ⟨hy, rfl⟩⟩
      · exact List.mem_iff_getElem?.2 ⟨x, (getElem?_rowText_eq_glyph hy x _).2 hShade⟩

/-! ### The picture -/

theorem picture_eq_picture_iff : screen.picture = other.picture ↔ screen.text = other.text :=
  String.ofList_inj

theorem picture_eq_empty_iff : screen.picture = "" ↔ screen.text = [] := String.ofList_eq_empty_iff

/-- **A picture is faithful and nearly injective.**  It has a line for each row and in it a
character for each pixel, the surface is blank if no background shows, and two pictures are equal
only if the framebuffers are or if both show nothing at all. -/
theorem picture_tells_all (screen other : Framebuffer) :
    (∃ lines : List String, screen.picture = "\n".intercalate lines ∧
      lines.length = screen.rows.toNat ∧
      ∀ y line, lines[y]? = some line → line.length = screen.columns.toNat ∧
        ∀ x, (line.toList[x]? = some '#' ↔ screen.pixel? x y = some .foreground) ∧
          (line.toList[x]? = some '.' ↔ screen.pixel? x y = some .background)) ∧
      (screen.rows.toNat = 0 → screen.picture = "") ∧
      (screen.columns.toNat = 0 →
        screen.picture = String.ofList (List.replicate (screen.rows.toNat - 1) '\n')) ∧
      (screen.isBlank = true ↔ '.' ∉ screen.picture.toList) ∧
      (screen.picture = other.picture ↔
        screen = other ∨ screen.picture = "" ∧ other.picture = "") ∧
      (screen.picture = "" ↔
        screen.rows.toNat = 0 ∨ screen.columns.toNat = 0 ∧ screen.rows.toNat = 1) := by
  refine ⟨⟨screen.lines.map String.ofList, ?_, ?_, ?_⟩, ?_, ?_, ?_, ?_, ?_⟩
  · rw [← String.toList_inj, String.toList_intercalate, List.map_map]
    simp [picture, text_eq, Function.comp_def]
  · rw [List.length_map, length_lines]
  · intro y line hLine
    rw [List.getElem?_map, Option.map_eq_some_iff] at hLine
    obtain ⟨shown, hShown, rfl⟩ := hLine
    obtain ⟨hy, rfl⟩ := getElem?_lines_eq_some.1 hShown
    rw [String.length_ofList, String.toList_ofList]
    exact ⟨length_rowText hy, fun x => ⟨getElem?_rowText_eq_glyph hy x .foreground,
      getElem?_rowText_eq_glyph hy x .background⟩⟩
  · intro hRows
    exact picture_eq_empty_iff.2 (text_eq_nil_iff.2 (.inl hRows))
  · intro hColumns
    rw [picture, text_of_no_columns hColumns]
  · rw [picture, String.toList_ofList]
    exact isBlank_iff_text
  · rw [picture_eq_picture_iff, picture_eq_empty_iff, picture_eq_empty_iff]
    exact text_eq_text_iff
  · rw [picture_eq_empty_iff]
    exact text_eq_nil_iff

/-- The lines of a surface that is wider than high are not its columns, and surfaces of different
sizes look alike if neither has anything to show. -/
theorem picture_tells_all_degenerate :
    let wide : Framebuffer := (filled 3 2 .background).fill ⟨⟨0, 0, 1, 2⟩, .foreground⟩
    let flat : Framebuffer := filled 5 0 .foreground
    let narrow : Framebuffer := filled 0 1 .background
    wide.picture = "#..\n#.." ∧ flat.picture = narrow.picture ∧ flat ≠ narrow ∧
      narrow.isBlank = true ∧ wide.isBlank = false := by
  intro wide flat narrow
  have hWide : wide.picture = "#..\n#.." := by decide
  obtain ⟨-, -, -, hBlank, hSame, hNothing⟩ := picture_tells_all flat narrow
  obtain ⟨-, -, -, hNarrow, -, hNothing'⟩ := picture_tells_all narrow flat
  obtain ⟨-, -, -, hWideBlank, -, -⟩ := picture_tells_all wide flat
  have hFlat : flat.picture = "" := hNothing.2 (by decide)
  have hEmpty : narrow.picture = "" := hNothing'.2 (by decide)
  refine ⟨hWide, hSame.2 (.inr ⟨hFlat, hEmpty⟩), by decide, ?_, ?_⟩
  · rw [hNarrow, hEmpty]
    decide
  · rw [Bool.eq_false_iff, Ne, hWideBlank, hWide]
    decide

end Chip8Launcher.Framebuffer
