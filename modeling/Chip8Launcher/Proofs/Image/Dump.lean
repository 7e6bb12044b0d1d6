import Mathlib
import Chip8Launcher.Image
import Chip8Launcher.Proofs.Image.Digits
import Chip8Launcher.Proofs.Text.Joined

/-!
# Reading a dump back

A dump is lines joined by newlines, and a line is an address and bytes joined by blanks; no digit
is a separator, so both can be taken apart.  `readDump?` does so, knowing nothing of the image but
the text, and `readDump?_dump` says that it finds the bytes that were listed, in order and each with
the address it loads at.

What is known of the groups of eight is `getElem?_groups`; all lengths come from `length_groups`.
-/

namespace Chip8Launcher.Image

/-- Reads a line of a dump.  Its first byte loads at the address in front. -/
def readLine? (line : List Char) : Option (List (Nat × UInt8)) :=
  match line with
  | '0' :: 'x' :: rest =>
    match rest.splitOn ' ' with
    | [] => none
    | address :: pairs => do
      let address ← if address.getLast? = some ':' then Hex.number? address.dropLast else none
      let bytes ← pairs.mapM Hex.byte?
      return bytes.mapIdx fun i b => (address + i, b)
  | _ => none

/-- Reads a dump: the bytes that it lists, each with the address it loads at. -/
def readDump? (text : List Char) : Option (List (Nat × UInt8)) :=
  if text = [] then some [] else ((text.splitOn '\n').mapM readLine?).map List.flatten

variable {bytes : List UInt8} {image other : Image} {k limit : Nat}

/-! ### Groups -/

theorem groups_nil : groups [] = [] := by
  rw [groups]
  rfl

theorem groups_of_ne_nil (h : bytes ≠ []) :
    groups bytes = bytes.take 8 :: groups (bytes.drop 8) := by
  rw [groups, if_neg (by simpa using h)]

theorem length_groups (bytes : List UInt8) : (groups bytes).length = (bytes.length + 7) / 8 := by
  induction bytes using groups.induct with
  | case1 bytes hEmpty =>
    rw [List.isEmpty_iff.1 hEmpty, groups_nil]
    rfl
  | case2 bytes hEmpty ih =>
    have hNe : bytes ≠ [] := by simpa using hEmpty
    have hPos := List.length_pos_iff.2 hNe
    rw [groups_of_ne_nil hNe, List.length_cons, ih, List.length_drop]
    omega

theorem getElem?_groups (bytes : List UInt8) (k : Nat) :
    (groups bytes)[k]? = if 8 * k < bytes.length then some ((bytes.drop (8 * k)).take 8)
      else none := by
  induction bytes using groups.induct generalizing k with
  | case1 bytes hEmpty =>
    rw [List.isEmpty_iff.1 hEmpty, groups_nil]
    rfl
  | case2 bytes hEmpty ih =>
    have hNe : bytes ≠ [] := by simpa using hEmpty
    have hPos := List.length_pos_iff.2 hNe
    rw [groups_of_ne_nil hNe]
    cases k with
    | zero => rw [if_pos (by omega)]; rfl
    | succ k =>
      rw [List.getElem?_cons_succ, ih, List.length_drop, List.drop_drop, Nat.mul_succ,
        Nat.add_comm 8]
      exact if_congr (by omega) rfl rfl

theorem ne_nil_of_mem_groups {group : List UInt8} (h : group ∈ groups bytes) : group ≠ [] := by
  obtain ⟨k, hk⟩ := List.mem_iff_getElem?.1 h
  rw [getElem?_groups] at hk
  split at hk
  next hInside =>
    obtain rfl := Option.some.inj hk
    rw [← List.length_pos_iff, List.length_take, List.length_drop]
    omega
  next => cases hk

theorem mapIdx_eq_append {β : Type} (f : Nat → UInt8 → β) (bytes : List UInt8) :
    bytes.mapIdx f =
      (bytes.take 8).mapIdx f ++ (bytes.drop 8).mapIdx fun i b => f (i + 8) b := by
  conv_lhs => rw [← List.take_append_drop 8 bytes, List.mapIdx_append]
  by_cases hLong : 8 ≤ bytes.length
  · rw [List.length_take_of_le hLong]
  · rw [List.drop_eq_nil_of_le (by omega)]
    rfl

/-- The places in the groups, one group after the other, are the places in the whole. -/
theorem flatten_mapIdx_groups {β : Type} (f : Nat → UInt8 → β) (bytes : List UInt8) :
    ((groups bytes).mapIdx fun k group => group.mapIdx fun i b => f (8 * k + i) b).flatten =
      bytes.mapIdx f := by
  induction bytes using groups.induct generalizing f with
  | case1 bytes hEmpty =>
    rw [List.isEmpty_iff.1 hEmpty, groups_nil]
    rfl
  | case2 bytes hEmpty ih =>
    have hNext := ih fun i b => f (i + 8) b
    rw [groups_of_ne_nil (by simpa using hEmpty), List.mapIdx_cons, List.flatten_cons,
      mapIdx_eq_append f bytes, ← hNext]
    simp only [Nat.mul_zero, Nat.zero_add, Nat.mul_succ, Nat.add_right_comm]

/-! ### Lines -/

/-- The lines of a dump. -/
def dumpLines (image : Image) (limit : Nat) : List (List Char) :=
  (groups (image.bytes.take limit)).mapIdx dumpLine

theorem dump_eq (image : Image) (limit : Nat) :
    image.dump limit = ['\n'].intercalate (image.dumpLines limit) := rfl

theorem length_dumpLines (image : Image) (limit : Nat) :
    (image.dumpLines limit).length = (min limit image.size + 7) / 8 := by
  rw [dumpLines, List.length_mapIdx, length_groups, List.length_take]
  rfl

theorem getElem?_dumpLines_eq_some {line : List Char} :
    (image.dumpLines limit)[k]? = some line ↔
      8 * k < min limit image.size ∧
        line = dumpLine k (((image.bytes.take limit).drop (8 * k)).take 8) := by
  rw [dumpLines, List.getElem?_mapIdx, getElem?_groups, List.length_take]
  by_cases hInside : 8 * k < min limit image.bytes.length
  · simp [size, hInside, eq_comm]
  · simp [size, hInside]

/-- What follows the two leading signs is the address, with a colon, and the bytes. -/
theorem dumpLine_eq {group : List UInt8} (h : group ≠ []) (k : Nat) :
    dumpLine k group = '0' :: 'x' :: [' '].intercalate
      ((Hex.padded 3 (loadAddress + 8 * k) ++ [':']) :: group.map Hex.byte) := by
  rw [List.intercalate_cons_of_ne_nil (by simpa using h)]
  simp [dumpLine]

theorem mem_digits_of_mem_byte {b : UInt8} {c : Char} (h : c ∈ Hex.byte b) : c ∈ Hex.digits :=
  (Hex.spells_byte b).lower c h

theorem mem_digits_of_mem_address {c : Char} (h : c ∈ Hex.padded 3 (loadAddress + 8 * k)) :
    c ∈ Hex.digits :=
  (Hex.spells_padded (by decide)).lower c h

theorem blank_not_mem_pieces (k : Nat) (group : List UInt8) :
    ∀ piece ∈ (Hex.padded 3 (loadAddress + 8 * k) ++ [':']) :: group.map Hex.byte,
      ' ' ∉ piece := by
  intro piece hPiece hBlank
  rcases List.mem_cons.1 hPiece with rfl | hPiece
  · rcases List.mem_append.1 hBlank with hBlank | hBlank
    · exact Hex.separators_not_mem_digits.1 (mem_digits_of_mem_address hBlank)
    · simp at hBlank
  · obtain ⟨b, -, rfl⟩ := List.mem_map.1 hPiece
    exact Hex.separators_not_mem_digits.1 (mem_digits_of_mem_byte hBlank)

theorem newline_not_mem_dumpLine (k : Nat) (group : List UInt8) : '\n' ∉ dumpLine k group := by
  have hDigits : '\n' ∉ Hex.digits := Hex.separators_not_mem_digits.2.2
  intro hMem
  simp only [dumpLine, List.mem_append, List.mem_cons, List.not_mem_nil, or_false] at hMem
  rcases hMem with (((h | h) | h) | h | h) | h
  · cases h
  · cases h
  · exact hDigits (mem_digits_of_mem_address h)
  · cases h
  · cases h
  · obtain ⟨piece, hPiece, h⟩ := (Text.mem_intercalate (by decide)).1 h
    obtain ⟨b, -, rfl⟩ := List.mem_map.1 hPiece
    exact hDigits (mem_digits_of_mem_byte h)

theorem newline_not_mem_dumpLines {line : List Char} (h : line ∈ image.dumpLines limit) :
    '\n' ∉ line := by
  obtain ⟨k, hk⟩ := List.mem_iff_getElem?.1 h
  rw [(getElem?_dumpLines_eq_some.1 hk).2]
  exact newline_not_mem_dumpLine k _

theorem dump_eq_nil_iff : image.dump limit = [] ↔ min limit image.size = 0 := by
  rw [dump_eq, Text.intercalate_eq_nil_iff, ← List.length_eq_zero_iff, length_dumpLines]
  constructor
  · rintro (hNone | hEmpty)
    · omega
    · have hLine : (image.dumpLines limit)[0]? = some [] := by rw [hEmpty]; rfl
      have hBegins := (getElem?_dumpLines_eq_some.1 hLine).2
      simp [dumpLine] at hBegins
  · intro hNothing
    left
    omega

/-! ### Reading -/

theorem mapM_byte? (group : List UInt8) : (group.map Hex.byte).mapM Hex.byte? = some group := by
  induction group with
  | nil => rfl
  | cons b group ih => simp [Hex.byte?_byte, ih]

theorem readLine?_dumpLine {group : List UInt8} (h : group ≠ []) (k : Nat) :
    readLine? (dumpLine k group) =
      some (group.mapIdx fun i b => (loadAddress + 8 * k + i, b)) := by
  have hSpells : Hex.Spells 3 (loadAddress + 8 * k) (Hex.padded 3 (loadAddress + 8 * k)) :=
    Hex.spells_padded (by decide)
  have hAddress := hSpells.number
  rw [dumpLine_eq h, readLine?,
    List.splitOn_intercalate ' ' (blank_not_mem_pieces k group) (List.cons_ne_nil _ _)]
  simp [hAddress, mapM_byte?, -List.mapM_map]

theorem mapM_mapIdx {α β γ : Type} {f : Nat → α → β} {g : β → Option γ} {h : Nat → α → γ}
    {l : List α} (hRead : ∀ a ∈ l, ∀ k, g (f k a) = some (h k a)) :
    (l.mapIdx f).mapM g = some (l.mapIdx h) := by
  induction l generalizing f h with
  | nil => rfl
  | cons a l ih =>
    have hRest := ih (f := fun k => f (k + 1)) (h := fun k => h (k + 1)) fun a' hMem k =>
      hRead a' (List.mem_cons_of_mem a hMem) (k + 1)
    simp only [List.mapIdx_cons, List.mapM_cons, hRead a List.mem_cons_self, hRest]
    rfl

/-- **Reading a dump gives back what was listed**, each byte with the address it loads at. -/
theorem readDump?_dump (image : Image) (limit : Nat) :
    readDump? (image.dump limit) =
      some ((image.bytes.take limit).mapIdx fun i b => (loadAddress + i, b)) := by
  rw [readDump?]
  split
  next hNothing =>
    have hNone : image.bytes.take limit = [] := by
      rw [← List.length_eq_zero_iff, List.length_take]
      exact dump_eq_nil_iff.1 hNothing
    rw [hNone]
    rfl
  next hSomething =>
    have hLines : image.dumpLines limit ≠ [] := by
      intro hNone
      exact hSomething (by rw [dump_eq, hNone]; rfl)
    have hRead : (image.dumpLines limit).mapM readLine? =
        some ((groups (image.bytes.take limit)).mapIdx
          fun k group => group.mapIdx fun i b => (loadAddress + 8 * k + i, b)) :=
      mapM_mapIdx fun group hGroup k => readLine?_dumpLine (ne_nil_of_mem_groups hGroup) k
    rw [dump_eq, List.splitOn_intercalate '\n' (fun _ => newline_not_mem_dumpLines) hLines, hRead,
      Option.map_some, ← flatten_mapIdx_groups]
    simp only [Nat.add_assoc]

theorem map_snd_mapIdx (start : Nat) (bytes : List UInt8) :
    (bytes.mapIdx fun i b => (start + i, b)).map Prod.snd = bytes := by
  refine List.ext_getElem? fun i => ?_
  rw [List.getElem?_map, List.getElem?_mapIdx, Option.map_map]
  exact Option.map_id'

theorem dump_eq_dump_iff {limit' : Nat} :
    image.dump limit = other.dump limit' ↔
      image.bytes.take limit = other.bytes.take limit' := by
  constructor
  · intro h
    have hRead := readDump?_dump image limit
    rw [h, readDump?_dump] at hRead
    have hBytes := congrArg (List.map Prod.snd) (Option.some.inj hRead)
    rw [map_snd_mapIdx, map_snd_mapIdx] at hBytes
    exact hBytes.symm
  · intro h
    rw [dump, dump, h]

/-! ### Dumps as texts -/

/-- The first bytes are cut at whichever comes first, the limit or the end. -/
theorem take_limit (image : Image) (limit : Nat) :
    image.bytes.take limit = image.bytes.take (min limit image.size) := by
  rw [size, List.take_eq_take_min]

/-- A line spells its address and each of its bytes. -/
theorem exists_spelled (k : Nat) (group : List UInt8) :
    ∃ (address : String) (pairs : List String),
      String.ofList (dumpLine k group) = "0x" ++ address ++ ": " ++ " ".intercalate pairs ∧
      Hex.Spells 3 (loadAddress + 8 * k) address.toList ∧
      List.Forall₂ (fun b pair => pair.length = 2 ∧ Hex.Spells 2 b.toNat pair.toList)
        group pairs := by
  refine ⟨String.ofList (Hex.padded 3 (loadAddress + 8 * k)),
    group.map fun b => String.ofList (Hex.byte b), ?_, ?_, ?_⟩
  · rw [← String.toList_inj]
    simp [dumpLine, Function.comp_def]
  · rw [String.toList_ofList]
    exact Hex.spells_padded (by decide)
  · rw [List.forall₂_map_right_iff, List.forall₂_same]
    intro b _
    rw [String.length_ofList, String.toList_ofList]
    exact ⟨Hex.length_byte b, Hex.spells_byte b⟩

/-- **A dump can be read back.**  It has a line for every eight bytes, each line spells its address,
which fits a word, and its bytes, and a reader finds the listed bytes at their addresses.  So two
dumps are equal only if they list the same bytes. -/
theorem hexdump_can_be_read_back (image other : Image) (limit limit' : Nat) :
    let n := min limit image.size
    let n' := min limit' other.size
    (image.hexdump limit = "" ↔ n = 0) ∧
      (0 < n → ∃ lines : List String, image.hexdump limit = "\n".intercalate lines ∧
        lines.length = (n + 7) / 8 ∧
        ∀ k line, lines[k]? = some line → ∃ (address : String) (pairs : List String),
          line = "0x" ++ address ++ ": " ++ " ".intercalate pairs ∧
          Hex.Spells 3 (0x200 + 8 * k) address.toList ∧
          (image.size < 2 ^ 63 → 0x200 + 8 * k < 2 ^ 64) ∧
          List.Forall₂ (fun b pair => pair.length = 2 ∧ Hex.Spells 2 b.toNat pair.toList)
            (((image.bytes.take n).drop (8 * k)).take 8) pairs) ∧
      readDump? (image.hexdump limit).toList =
        some ((image.bytes.take n).mapIdx fun i b => (0x200 + i, b)) ∧
      (image.hexdump limit = other.hexdump limit' ↔
        image.bytes.take n = other.bytes.take n') := by
  intro n n'
  refine ⟨?_, ?_, ?_, ?_⟩
  · rw [hexdump, String.ofList_eq_empty_iff]
    exact dump_eq_nil_iff
  · intro _
    refine ⟨(image.dumpLines limit).map String.ofList, ?_, ?_, ?_⟩
    · rw [← String.toList_inj]
      simp [hexdump, dump_eq, Function.comp_def]
    · rw [List.length_map, length_dumpLines]
    · intro k line hLine
      rw [List.getElem?_map, Option.map_eq_some_iff] at hLine
      obtain ⟨signs, hSigns, rfl⟩ := hLine
      obtain ⟨hInside, rfl⟩ := getElem?_dumpLines_eq_some.1 hSigns
      obtain ⟨address, pairs, hLine, hAddress, hPairs⟩ := exists_spelled k
        (((image.bytes.take limit).drop (8 * k)).take 8)
      rw [← take_limit]
      exact ⟨address, pairs, hLine, hAddress, fun hSize => by omega, hPairs⟩
  · rw [hexdump, String.toList_ofList, ← take_limit]
    exact readDump?_dump image limit
  · rw [hexdump, hexdump, String.ofList_inj, dump_eq_dump_iff, take_limit image, take_limit other]

/-- The last line is ragged, and a limit beyond the end lists no more. -/
theorem hexdump_can_be_read_back_ragged :
    let image : Image := ⟨[0x00, 0xe0, 0x6a, 0x02, 0x6b, 0x0c, 0x6c, 0x3f, 0x12, 0x0a]⟩
    image.hexdump 16 = "0x200: 00 e0 6a 02 6b 0c 6c 3f\n0x208: 12 0a" ∧
      image.hexdump 16 = image.hexdump 10 ∧ image.hexdump 9 ≠ image.hexdump 10 := by
  intro image
  obtain ⟨-, -, -, hSame⟩ := hexdump_can_be_read_back image image 16 10
  obtain ⟨-, -, -, hOther⟩ := hexdump_can_be_read_back image image 9 10
  refine ⟨by cbv, hSame.2 rfl, fun h => ?_⟩
  exact absurd (hOther.1 h) (by decide)

end Chip8Launcher.Image
