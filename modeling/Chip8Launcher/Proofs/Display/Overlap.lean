import Chip8Launcher.Proofs.Display.Painting

/-!
# Fills that change places

Two fills can change places unless they have different shades and share a pixel of the surface
(`Rect.Overlap`).  Where they share one, the fill that comes last shows there, whatever the surface
was before, so that the two orders never agree.

Rectangles that share a pixel share the one at the upper left of what they have in common
(`Rect.overlap_iff_corner`).
-/

namespace Chip8Launcher

variable {columns rows : UInt64} {a b : Rect}

namespace Rect

/-- A surface of this size has a pixel that both rectangles cover. -/
def Overlap (a b : Rect) (columns rows : UInt64) : Prop :=
  ∃ x y, x < columns.toNat ∧ y < rows.toNat ∧ a.Covers x y ∧ b.Covers x y

/-- The corner lies furthest to the left and to the top of all that is covered twice. -/
theorem overlap_iff_corner :
    let x := max a.x.toNat b.x.toNat
    let y := max a.y.toNat b.y.toNat
    a.Overlap b columns rows ↔
      (x < columns.toNat ∧ y < rows.toNat) ∧ a.Covers x y ∧ b.Covers x y := by
  intro x y
  constructor
  · rintro ⟨x', y', hx, hy, ha, hb⟩
    obtain ⟨⟨haLeft, haRight⟩, haTop, haBottom⟩ := ha
    obtain ⟨⟨hbLeft, hbRight⟩, hbTop, hbBottom⟩ := hb
    have hx' : x ≤ x' := Nat.max_le.2 ⟨haLeft, hbLeft⟩
    have hy' : y ≤ y' := Nat.max_le.2 ⟨haTop, hbTop⟩
    refine ⟨⟨by omega, by omega⟩, ?_, ?_⟩
    · exact ⟨⟨Nat.le_max_left .., by omega⟩, Nat.le_max_left .., by omega⟩
    · exact ⟨⟨Nat.le_max_right .., by omega⟩, Nat.le_max_right .., by omega⟩
  · rintro ⟨⟨hx, hy⟩, ha, hb⟩
    exact ⟨x, y, hx, hy, ha, hb⟩

instance (a b : Rect) (columns rows : UInt64) : Decidable (a.Overlap b columns rows) :=
  decidable_of_iff' _ overlap_iff_corner

end Rect

namespace Framebuffer

/-! ### Two fills -/

theorem pixel?_fill_fill (screen : Framebuffer) (first second : Fill) (x y : Nat) :
    ((screen.fill first).fill second).pixel? x y = (screen.pixel? x y).map fun old =>
      if second.rect.Covers x y then second.shade
      else if first.rect.Covers x y then first.shade else old := by
  obtain ⟨-, -, hFirst⟩ := screen.fill_spec first
  obtain ⟨-, -, hSecond⟩ := (screen.fill first).fill_spec second
  rw [hSecond, hFirst, Option.map_map]
  rfl

theorem size_fill_fill (screen : Framebuffer) (first second : Fill) :
    ((screen.fill first).fill second).columns = screen.columns ∧
      ((screen.fill first).fill second).rows = screen.rows := by
  obtain ⟨hColumns, hRows, -⟩ := screen.fill_spec first
  obtain ⟨hColumns', hRows', -⟩ := (screen.fill first).fill_spec second
  exact ⟨hColumns'.trans hColumns, hRows'.trans hRows⟩

theorem fill_fill_comm {screen : Framebuffer} {s t : Shade}
    (h : s = t ∨ ¬a.Overlap b screen.columns screen.rows) :
    (screen.fill ⟨a, s⟩).fill ⟨b, t⟩ = (screen.fill ⟨b, t⟩).fill ⟨a, s⟩ := by
  obtain ⟨hColumns, hRows⟩ := screen.size_fill_fill ⟨a, s⟩ ⟨b, t⟩
  obtain ⟨hColumns', hRows'⟩ := screen.size_fill_fill ⟨b, t⟩ ⟨a, s⟩
  refine ext_pixel (hColumns.trans hColumns'.symm) (hRows.trans hRows'.symm) fun x y => ?_
  rw [pixel?_fill_fill, pixel?_fill_fill]
  refine map_pixel?_congr fun hx hy old => ?_
  by_cases ha : a.Covers x y
  · by_cases hb : b.Covers x y
    · -- only here does it matter which fill was the last
      rcases h with rfl | hApart
      · simp [ha, hb]
      · exact absurd ⟨x, y, hx, hy, ha, hb⟩ hApart
    · simp [ha, hb]
  · simp [ha]

/-- The last fill shows at a pixel that both cover. -/
theorem fill_fill_ne {screen : Framebuffer} {s t : Shade} (hShade : s ≠ t)
    (h : a.Overlap b screen.columns screen.rows) :
    (screen.fill ⟨a, s⟩).fill ⟨b, t⟩ ≠ (screen.fill ⟨b, t⟩).fill ⟨a, s⟩ := by
  obtain ⟨x, y, hx, hy, ha, hb⟩ := h
  obtain ⟨_, hOld⟩ := pixel?_eq_some hx hy
  intro hEq
  have hPixel := congrArg (fun screen => screen.pixel? x y) hEq
  simp only [pixel?_fill_fill, hOld, Option.map_some, if_pos ha, if_pos hb] at hPixel
  exact hShade (Option.some.inj hPixel).symm

/-- **When two fills commute.**  On surfaces of one size, two fills give the same in either order,
on whatever was there before, if and only if they have one shade or share no pixel of the surface.
If they have two shades and do share a pixel, the order shows on every surface of that size. -/
theorem fills_commute_iff (columns rows : UInt64) (a b : Rect) (s t : Shade) :
    ((∀ screen : Framebuffer, screen.columns = columns → screen.rows = rows →
        (screen.fill ⟨a, s⟩).fill ⟨b, t⟩ = (screen.fill ⟨b, t⟩).fill ⟨a, s⟩) ↔
      s = t ∨ ¬a.Overlap b columns rows) ∧
      (s ≠ t → a.Overlap b columns rows →
        ∀ screen : Framebuffer, screen.columns = columns → screen.rows = rows →
          (screen.fill ⟨a, s⟩).fill ⟨b, t⟩ ≠ (screen.fill ⟨b, t⟩).fill ⟨a, s⟩) := by
  refine ⟨⟨fun hAll => ?_, ?_⟩, ?_⟩
  · by_contra hSeen
    obtain ⟨hShade, hOverlap⟩ := not_or.1 hSeen
    -- any surface of the size will do
    exact fill_fill_ne hShade (not_not.1 hOverlap) (hAll (filled columns rows s) rfl rfl)
  · rintro h screen rfl rfl
    exact fill_fill_comm h
  · rintro hShade hOverlap screen rfl rfl
    exact fill_fill_ne hShade hOverlap

/-- Two rectangles that end beyond the largest word cross on the surface, and one that begins beside
the surface overlaps the first of them only where there are no pixels. -/
theorem fills_commute_iff_overflowing :
    let wide : Rect := ⟨0, 1, 0xFFFFFFFFFFFFFFFF, 0xFFFFFFFFFFFFFFFF⟩
    let high : Rect := ⟨1, 0, 0xFFFFFFFFFFFFFFFF, 0xFFFFFFFFFFFFFFFF⟩
    let beside : Rect := ⟨4, 0, 0xFFFFFFFFFFFFFFFF, 2⟩
    (Shade.foreground ≠ .background ∧ wide.Overlap high 4 2 ∧
      ∀ screen : Framebuffer, screen.columns = 4 → screen.rows = 2 →
        (screen.fill ⟨wide, .foreground⟩).fill ⟨high, .background⟩ ≠
          (screen.fill ⟨high, .background⟩).fill ⟨wide, .foreground⟩) ∧
      (wide.Overlap beside 5 2 ∧ ∀ screen : Framebuffer, screen.columns = 4 → screen.rows = 2 →
        (screen.fill ⟨wide, .foreground⟩).fill ⟨beside, .background⟩ =
          (screen.fill ⟨beside, .background⟩).fill ⟨wide, .foreground⟩) := by
  intro wide high beside
  have hShades : Shade.foreground ≠ .background := by decide
  have hCross : wide.Overlap high 4 2 := by decide
  have hApart : ¬wide.Overlap beside 4 2 := by decide
  obtain ⟨-, hOrder⟩ := fills_commute_iff 4 2 wide high .foreground .background
  obtain ⟨hCommute, -⟩ := fills_commute_iff 4 2 wide beside .foreground .background
  exact ⟨⟨hShades, hCross, hOrder hShades hCross⟩, by decide, hCommute.2 (.inr hApart)⟩

end Framebuffer

end Chip8Launcher
