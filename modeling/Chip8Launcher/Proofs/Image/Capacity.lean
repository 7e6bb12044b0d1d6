import Chip8Launcher.Proofs.Image.Dump

/-!
# Images that fit

Whether an image fits is said by its length, and it can be seen in its full dump as well: memory
ends where an address needs a fourth digit, and an image is too long by a byte just when a line
begins there (`fits_iff_dumpLines`).

As long as all addresses have three digits every full line is as long as any other, so the length of
a dump is known from the number of bytes it lists (`length_dump`).
-/

namespace Chip8Launcher

/-! ### Digits that suffice -/

/-- The width is enough for the numbers that have no more digits. -/
theorem Hex.length_padded_eq_iff {width n : Nat} (hWidth : 0 < width) :
    (padded width n).length = width ↔ n < 16 ^ width := by
  rw [length_padded, ← Nat.length_toDigits_le_iff (by decide) hWidth]
  omega

/-! ### Lines -/

/-- The lines of a text.  An empty text has none. -/
def Text.lines (text : String) : List String :=
  if text = "" then [] else (text.toList.splitOn '\n').map String.ofList

/-- Between two pieces there is one separator. -/
theorem Text.length_intercalate {α : Type} {separator : α} (pieces : List (List α)) :
    ([separator].intercalate pieces).length =
      (pieces.map List.length).sum + (pieces.length - 1) := by
  induction pieces with
  | nil => rfl
  | cons piece pieces ih =>
    cases pieces with
    | nil => simp
    | cons next pieces =>
      rw [List.intercalate_cons_cons, List.length_append, List.length_append, ih]
      simp only [List.map_cons, List.sum_cons, List.length_cons, List.length_nil]
      omega

/-- The line begins with an address of that many hexadecimal digits. -/
def Image.Addressed (width : Nat) (line : String) : Prop :=
  ∃ address rest : String, line = "0x" ++ address ++ ": " ++ rest ∧
    address.length = width ∧ ∀ c ∈ address.toList, c ∈ Hex.digits

namespace Image

variable {image : Image} {limit k width : Nat} {group : List UInt8}

/-- A dump is taken apart into the lines it was made of. -/
theorem lines_hexdump (image : Image) (limit : Nat) :
    Text.lines (image.hexdump limit) = (image.dumpLines limit).map String.ofList := by
  rw [Text.lines]
  split
  next hNothing =>
    have hNone : (image.dumpLines limit).length = 0 := by
      rw [length_dumpLines, dump_eq_nil_iff.1 (String.ofList_eq_empty_iff.1 hNothing)]
    rw [List.length_eq_zero_iff.1 hNone]
    rfl
  next hSomething =>
    have hLines : image.dumpLines limit ≠ [] := by
      intro hNone
      exact hSomething (by rw [hexdump, dump_eq, hNone]; rfl)
    rw [hexdump, String.toList_ofList, dump_eq,
      List.splitOn_intercalate '\n' (fun _ => newline_not_mem_dumpLines) hLines]

/-- The digits end at the colon, so an address can be read in one way only. -/
theorem takeWhile_address {address rest : List Char} (hDigits : ∀ c ∈ address, c ∈ Hex.digits) :
    (address ++ ':' :: rest).takeWhile (· ∈ Hex.digits) = address := by
  rw [List.takeWhile_append_of_pos (by simpa using hDigits),
    List.takeWhile_cons_of_neg (by simpa using Hex.separators_not_mem_digits.2.1), List.append_nil]

theorem addressed_dumpLine_iff (k : Nat) (group : List UInt8) :
    Addressed width (String.ofList (dumpLine k group)) ↔
      (Hex.padded 3 (loadAddress + 8 * k)).length = width := by
  let tail := ' ' :: [' '].intercalate (group.map Hex.byte)
  have hLine : dumpLine k group =
      '0' :: 'x' :: (Hex.padded 3 (loadAddress + 8 * k) ++ ':' :: tail) := by
    simp [dumpLine, tail]
  constructor
  · rintro ⟨address, rest, hAddress, rfl, hDigits⟩
    rw [← String.toList_inj, String.toList_ofList, hLine] at hAddress
    simp only [String.toList_append] at hAddress
    have hSame : Hex.padded 3 (loadAddress + 8 * k) ++ ':' :: tail =
        address.toList ++ ':' :: ' ' :: rest.toList := by simpa using hAddress
    have hTaken := congrArg (List.takeWhile (· ∈ Hex.digits)) hSame
    rw [takeWhile_address fun c => mem_digits_of_mem_address, takeWhile_address hDigits] at hTaken
    rw [hTaken, String.length_toList]
  · rintro rfl
    refine ⟨String.ofList (Hex.padded 3 (loadAddress + 8 * k)),
      String.ofList ([' '].intercalate (group.map Hex.byte)), ?_, String.length_ofList, ?_⟩
    · rw [← String.toList_inj]
      simp [dumpLine]
    · intro c hc
      rw [String.toList_ofList] at hc
      exact mem_digits_of_mem_address hc

/-! ### Capacity and addresses -/

theorem fits_iff : image.fits = true ↔ image.size ≤ 0xE00 := by
  rw [fits, decide_eq_true_iff]
  rfl

/-- Every byte loads below the end of memory. -/
theorem fits_iff_addresses : image.fits = true ↔ ∀ i < image.size, 0x200 + i < 0x1000 := by
  rw [fits_iff]
  constructor
  · intro hSize i hi
    omega
  · intro hAll
    by_contra hLong
    have hLast := hAll 0xE00 (by omega)
    omega

/-- Memory ends at the beginning of a line, which is the first with a fourth digit. -/
theorem fits_iff_dumpLines (hLimit : image.size ≤ limit) :
    image.fits = true ↔ ∀ line ∈ image.dumpLines limit, Addressed 3 (String.ofList line) := by
  have hWhole : min limit image.size = image.size := by omega
  rw [fits_iff]
  constructor
  · intro hSize line hLine
    obtain ⟨k, hk⟩ := List.mem_iff_getElem?.1 hLine
    obtain ⟨hInside, rfl⟩ := getElem?_dumpLines_eq_some.1 hk
    rw [addressed_dumpLine_iff, Hex.length_padded_eq_iff (by decide), loadAddress]
    omega
  · intro hShort
    by_contra hLong
    have hBeyond := getElem?_dumpLines_eq_some.2
      ⟨show 8 * 0x1C0 < min limit image.size by omega, rfl⟩
    have hAddress := hShort _ (List.mem_of_getElem? hBeyond)
    rw [addressed_dumpLine_iff, Hex.length_padded_eq_iff (by decide)] at hAddress
    exact absurd hAddress (by decide)

/-! ### The length of a dump -/

/-- Each byte takes two digits and the blank in front. -/
theorem length_dumpLine (hGroup : group ≠ []) (k : Nat) :
    (dumpLine k group).length =
      (Hex.padded 3 (loadAddress + 8 * k)).length + 3 * group.length + 3 := by
  have hPos := List.length_pos_iff.2 hGroup
  have hBytes : ((group.map Hex.byte).map List.length).sum = 2 * group.length := by
    simp [Function.comp_def, Nat.mul_comm]
  rw [dumpLine, List.length_append, Text.length_intercalate, hBytes, List.length_map]
  simp only [List.length_append, List.length_cons, List.length_nil]
  omega

/-- Every byte is in one of the groups. -/
theorem sum_length_groups (bytes : List UInt8) :
    ((groups bytes).map List.length).sum = bytes.length := by
  induction bytes using groups.induct with
  | case1 bytes hEmpty =>
    rw [List.isEmpty_iff.1 hEmpty, groups_nil]
    rfl
  | case2 bytes hEmpty ih =>
    rw [groups_of_ne_nil (by simpa using hEmpty), List.map_cons, List.sum_cons, ih,
      List.length_take, List.length_drop]
    omega

/-- The lines of an image that fits are as long as their groups. -/
theorem map_length_dumpLines (hFits : image.fits = true) (limit : Nat) :
    (image.dumpLines limit).map List.length =
      (groups (image.bytes.take limit)).map fun group => 3 * group.length + 6 := by
  refine List.ext_getElem? fun k => ?_
  rw [dumpLines, List.getElem?_map, List.getElem?_mapIdx, List.getElem?_map]
  cases hGroup : (groups (image.bytes.take limit))[k]? with
  | none => rfl
  | some group =>
    have hNe : group ≠ [] := ne_nil_of_mem_groups (List.mem_of_getElem? hGroup)
    have hInside : k < (groups (image.bytes.take limit)).length :=
      (List.getElem?_eq_some_iff.1 hGroup).1
    have hSize := fits_iff.1 hFits
    have hThree : (Hex.padded 3 (loadAddress + 8 * k)).length = 3 := by
      rw [length_groups, List.length_take] at hInside
      rw [size] at hSize
      rw [Hex.length_padded_eq_iff (by decide), loadAddress]
      omega
    simp only [Option.map_some, length_dumpLine hNe, hThree]
    rw [show 3 + 3 * group.length + 3 = 3 * group.length + 6 by omega]

/-- Seven signs stand in front of the bytes of a line, and a newline between two lines instead of
the blank after the last byte. -/
theorem length_dump (hFits : image.fits = true) (limit : Nat) :
    (image.dump limit).length =
      7 * ((min limit image.size + 7) / 8) + 3 * min limit image.size - 1 := by
  have hBytes : (image.bytes.take limit).length = min limit image.size := List.length_take
  rw [dump_eq, Text.length_intercalate, length_dumpLines, map_length_dumpLines hFits,
    List.sum_map_add, List.sum_map_mul_left, sum_length_groups, List.map_const', List.sum_replicate,
    length_groups, hBytes, smul_eq_mul]
  omega

/-- **An image fits exactly when the addresses of its full dump have three digits**, that is when
every byte loads below the end of memory.  Of an image that fits, the length of any dump is known
from the number of bytes that it lists. -/
theorem fits_iff_addresses_are_short (image : Image) :
    (∀ limit, image.size ≤ limit →
      (image.fits = true ↔ ∀ line ∈ Text.lines (image.hexdump limit), Addressed 3 line)) ∧
      (image.fits = true ↔ ∀ i < image.size, 0x200 + i < 0x1000) ∧
      (image.fits = true → ∀ limit, let n := min limit image.size
        0 < n → (image.hexdump limit).length = 7 * ((n + 7) / 8) + 3 * n - 1) := by
  refine ⟨fun limit hLimit => ?_, fits_iff_addresses, fun hFits limit => ?_⟩
  · rw [lines_hexdump, List.forall_mem_map]
    exact fits_iff_dumpLines hLimit
  · intro n _
    rw [hexdump, String.length_ofList]
    exact length_dump hFits limit

/-- A dump of nine bytes has a second line, and one byte too many makes a line with an address of
four digits. -/
theorem fits_iff_addresses_are_short_at_the_end :
    let image : Image := ⟨List.replicate 9 0xe0⟩
    let full : Image := ⟨List.replicate 0xE00 0x12⟩
    let long : Image := ⟨List.replicate 0xE01 0x12⟩
    (image.fits = true ∧ 0 < min 16 image.size ∧ (image.hexdump 16).length = 40) ∧
      (full.size ≤ 0x1000 ∧ full.fits = true ∧
        ∀ line ∈ Text.lines (full.hexdump 0x1000), Addressed 3 line) ∧
      (long.size ≤ 0xE01 ∧ long.fits = false ∧
        ∃ line ∈ Text.lines (long.hexdump 0xE01), ¬Addressed 3 line) := by
  intro image full long
  have hSizes : full.size = 0xE00 ∧ long.size = 0xE01 :=
    ⟨List.length_replicate, List.length_replicate⟩
  obtain ⟨-, -, hLength⟩ := fits_iff_addresses_are_short image
  obtain ⟨hFull, -⟩ := fits_iff_addresses_are_short full
  obtain ⟨hLong, -⟩ := fits_iff_addresses_are_short long
  have hFits : full.fits = true := fits_iff.2 hSizes.1.le
  have hNot : long.fits = false := by
    rw [Bool.eq_false_iff, Ne, fits_iff, hSizes.2]
    decide
  refine ⟨⟨by decide, by decide, (hLength (by decide) 16 (by decide)).trans (by decide)⟩,
    ⟨?_, hFits, ?_⟩, ?_, hNot, ?_⟩
  · rw [hSizes.1]
    decide
  · exact (hFull 0x1000 (by rw [hSizes.1]; decide)).1 hFits
  · exact hSizes.2.le
  · by_contra hNone
    push Not at hNone
    exact Bool.false_ne_true (hNot.symm.trans ((hLong 0xE01 hSizes.2.le).2 hNone))

end Image

end Chip8Launcher
