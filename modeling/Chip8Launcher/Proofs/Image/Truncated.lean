import Mathlib.Data.List.Infix
import Chip8Launcher.Proofs.Image.Dump
import Chip8Launcher.Proofs.Session.Journal

/-!
# Dumps that are cut short

The dump of the first bytes is the beginning of the dump of more of them.  It ends inside a line of
the longer dump or at the end of one, so that what comes next there is a blank or a newline; either
way the lines agree up to the last, and that one is cut short (`dump_prefix`).

So the head of an image that is traced before its engine starts is the beginning of the dump of what
the engine gets.
-/

namespace Chip8Launcher

namespace Image

variable {image other : Image} {i j k : Nat}

theorem dumpLine_prefix {group longer : List UInt8} (h : group <+: longer) (k : Nat) :
    dumpLine k group <+: dumpLine k longer := by
  rw [dumpLine, dumpLine, List.prefix_append_right_inj]
  refine Text.intercalate_prefix fun n piece hPiece => ⟨piece, ?_, List.prefix_rfl, fun _ => rfl⟩
  obtain ⟨rest, hRest⟩ := h.map Hex.byte
  rw [← hRest, List.getElem?_append_left (List.getElem?_eq_some_iff.1 hPiece).1, hPiece]

/-- A group that is not the last is the same in the longer dump. -/
theorem take_drop_eq {bytes longer : List UInt8} (h : bytes <+: longer)
    (hFull : 8 * k + 8 ≤ bytes.length) :
    (bytes.drop (8 * k)).take 8 = (longer.drop (8 * k)).take 8 := by
  obtain ⟨rest, rfl⟩ := h
  rw [List.drop_append_of_le_length (by omega), List.take_append_of_le_length]
  rw [List.length_drop]
  omega

theorem dump_prefix (h : image.bytes.take i <+: other.bytes.take j) :
    image.dump i <+: other.dump j := by
  have hLength := h.length_le
  rw [List.length_take, List.length_take] at hLength
  rw [dump_eq, dump_eq]
  refine Text.intercalate_prefix fun k line hLine => ?_
  obtain ⟨hInside, rfl⟩ := getElem?_dumpLines_eq_some.1 hLine
  refine ⟨_, getElem?_dumpLines_eq_some.2 ⟨Nat.lt_of_lt_of_le hInside hLength, rfl⟩,
    dumpLine_prefix ((h.drop _).take _) k, fun hMore => ?_⟩
  -- where a line follows, this one lists eight bytes
  rw [length_dumpLines] at hMore
  rw [take_drop_eq h]
  rw [List.length_take]
  change 8 * k + 8 ≤ min i image.size
  omega

theorem hexdump_prefix (h : image.bytes.take i <+: other.bytes.take j) :
    (image.hexdump i).toList <+: (other.hexdump j).toList := by
  rw [hexdump, hexdump, String.toList_ofList, String.toList_ofList]
  exact dump_prefix h

theorem hexdump_prefix_of_le (image : Image) (h : i ≤ j) :
    (image.hexdump i).toList <+: (image.hexdump j).toList :=
  hexdump_prefix (List.take_prefix_take_left h)

/-- A limit beyond the end lists no more than the end does. -/
theorem hexdump_prefix_full (image : Image) (limit : Nat) :
    (image.hexdump limit).toList <+: (image.hexdump image.bytes.length).toList := by
  refine hexdump_prefix ?_
  rw [List.take_length]
  exact List.take_prefix limit image.bytes

theorem hexdump_eq_hexdump_iff :
    image.hexdump i = image.hexdump j ↔
      min i image.bytes.length = min j image.bytes.length := by
  rw [hexdump, hexdump, String.ofList_inj, dump_eq_dump_iff, List.take_eq_take_iff]

end Image

namespace Session

/-! ### The traced head -/

/-- The heads of the images that were released are all that has ever been traced. -/
theorem filter_log_traces (engine : Engine) (screen : Framebuffer) (actions : List Action) :
    (Loader.armedEntry :: (arm engine screen).logged actions).filter (·.level = .trace) =
      ((uses ((arm engine screen).calls actions)).filterMap Use.released?).map
        (·.image.headEntry) := by
  have hArmed : ¬Loader.armedEntry.level = .trace := by decide
  rw [List.filter_cons_of_neg (by simpa using hArmed), logged_eq]
  exact filter_entries (fun use => (filter_levels use).2.2.2) _

/-- The engine has no other image than the one that was released. -/
theorem released_of_given {engine : Engine} {screen : Framebuffer} {actions : List Action}
    {image : Image}
    (h : image ∈ ((arm engine screen).after actions).received ++
      ((arm engine screen).after actions).running.map (·.handoff.image)) :
    ∃ handoff : Handoff Engine, handoff.image = image ∧
      (uses ((arm engine screen).calls actions)).filterMap Use.released? = [handoff] := by
  have hCourse := Course.after_arm engine screen actions
  rw [← hCourse.entered_eq] at h
  obtain ⟨handoff, hReleased, rfl⟩ := List.mem_map.1 (hCourse.entered_prefix.subset h)
  obtain ⟨only, hOnly⟩ := List.length_eq_one_iff.1
    (Nat.le_antisymm hCourse.released_length_le_one (List.length_pos_of_mem hReleased))
  rw [hOnly, List.mem_singleton] at hReleased
  exact ⟨handoff, rfl, by rw [hOnly, hReleased]⟩

end Session

/-- **A dump that is cut short is a prefix of the longer one**: with a lower limit, and of an image
that begins another.  Two limits give the same only if they cut at the same byte.  In every run what
is traced is one head for each image that is released, the dump of its first 32 bytes.  When the
engine has got an image, its head is all that has been traced, and it is the beginning of the full
dump of that image. -/
theorem Image.truncated_dump_is_prefix :
    (∀ (image : Image) (i j : Nat), i ≤ j →
      (image.hexdump i).toList <+: (image.hexdump j).toList ∧
        (image.hexdump i = image.hexdump j ↔
          min i image.bytes.length = min j image.bytes.length)) ∧
      (∀ image other : Image, image.bytes <+: other.bytes → ∀ limit,
        (image.hexdump limit).toList <+: (other.hexdump limit).toList) ∧
      ∀ (engine : Engine) (screen : Framebuffer) (actions : List Action),
        let s := (Session.arm engine screen).after actions
        let made := uses ((Session.arm engine screen).calls actions)
        let log := Loader.armedEntry :: (Session.arm engine screen).logged actions
        log.filter (·.level = .trace) = (made.filterMap Use.released?).map
            (fun handoff => .trace ("image head:\n" ++ handoff.image.hexdump 32)) ∧
          ∀ image ∈ s.received ++ s.running.map (·.handoff.image),
            log.filter (·.level = .trace) = [.trace ("image head:\n" ++ image.hexdump 32)] ∧
              (image.hexdump 32).toList <+: (image.hexdump image.bytes.length).toList := by
  refine ⟨fun image i j h => ⟨image.hexdump_prefix_of_le h, hexdump_eq_hexdump_iff⟩,
    fun image other h limit => hexdump_prefix (h.take limit), ?_⟩
  intro engine screen actions s made log
  have hTraces : log.filter (·.level = .trace) =
      (made.filterMap Use.released?).map (·.image.headEntry) :=
    Session.filter_log_traces engine screen actions
  refine ⟨hTraces, fun image hGiven => ⟨?_, image.hexdump_prefix_full 32⟩⟩
  obtain ⟨handoff, rfl, hOne⟩ := Session.released_of_given hGiven
  rw [hTraces, hOne]
  rfl

/-- The longer dump goes on inside the second line and then with a third one.  The head of a game of
34 bytes lists all but the last two. -/
theorem Image.truncated_dump_is_prefix_ragged :
    let image : Image := ⟨[0x00, 0xe0, 0x6a, 0x02, 0x6b, 0x0c, 0x6c, 0x3f, 0x12, 0x0a]⟩
    let longer : Image := ⟨image.bytes ++ [0xa2, 0xea, 0xda, 0xb6, 0xdc, 0xd6, 0x6e]⟩
    let game : Image := ⟨longer.bytes ++ longer.bytes⟩
    (9 ≤ 10 ∧ image.hexdump 9 = "0x200: 00 e0 6a 02 6b 0c 6c 3f\n0x208: 12" ∧
      (image.hexdump 9).toList <+: (image.hexdump 10).toList ∧
        image.hexdump 9 ≠ image.hexdump 10 ∧ image.hexdump 10 = image.hexdump 32) ∧
      (image.bytes <+: longer.bytes ∧ (image.hexdump 32).toList <+: (longer.hexdump 32).toList) ∧
      let actions : List Action := [.pick [⟨"ibm.ch8", .ok game.bytes, 0⟩], .read, .start]
      let s := (Session.arm ⟨none⟩ .standard).after actions
      let log := Loader.armedEntry :: (Session.arm ⟨none⟩ .standard).logged actions
      game ∈ s.received ++ s.running.map (·.handoff.image) ∧
        log.filter (·.level = .trace) = [.trace ("image head:\n" ++ game.hexdump 32)] ∧
          (game.hexdump 32).toList <+: (game.hexdump game.bytes.length).toList ∧
            game.hexdump 32 ≠ game.hexdump game.bytes.length := by
  intro image longer game
  obtain ⟨hLimits, hImages, hTraced⟩ := Image.truncated_dump_is_prefix
  obtain ⟨hPrefix, hSame⟩ := hLimits image 9 10 (by decide)
  obtain ⟨-, hBeyond⟩ := hLimits image 10 32 (by decide)
  have hBegins : image.bytes <+: longer.bytes := List.prefix_append _ _
  refine ⟨⟨by decide, by cbv, hPrefix, ?_, hBeyond.2 rfl⟩,
    ⟨hBegins, hImages image longer hBegins 32⟩, ?_⟩
  · intro hEq
    exact absurd (hSame.1 hEq) (by decide)
  · intro actions s log
    have hGiven : game ∈ s.received ++ s.running.map (·.handoff.image) := List.mem_singleton.2 rfl
    obtain ⟨hHead, hStart⟩ := (hTraced ⟨none⟩ .standard actions).2 game hGiven
    refine ⟨hGiven, hHead, hStart, fun hEq => ?_⟩
    exact absurd ((hLimits game 32 34 (by decide)).2.1 hEq) (by decide)

end Chip8Launcher
