import Mathlib.Data.List.Induction
import Chip8Launcher.Display.Framebuffer

/-!
# The painter's law

What shows at a pixel is the last fill that covers it (`Fill.onTop`).  A rectangle covers what it
would cover with unbounded coordinates: that its ends stop at the largest word and are clipped to
the surface is not seen, because no surface reaches beyond that word (`min_reach`).
-/

namespace Chip8Launcher

def Rect.Covers (r : Rect) (x y : Nat) : Prop :=
  (r.x.toNat ≤ x ∧ x < r.x.toNat + r.width.toNat) ∧ r.y.toNat ≤ y ∧ y < r.y.toNat + r.height.toNat

instance (r : Rect) (x y : Nat) : Decidable (r.Covers x y) :=
  inferInstanceAs (Decidable ((_ ∧ _) ∧ _))

/-- The shade of the last fill that covers the pixel, or what lies under all of them. -/
def Fill.onTop (under : Shade) (fills : List Fill) (x y : Nat) : Shade :=
  match fills.reverse.find? fun fill => fill.rect.Covers x y with
  | some fill => fill.shade
  | none => under

@[simp] theorem Fill.onTop_nil (under : Shade) (x y : Nat) : onTop under [] x y = under := rfl

theorem Fill.onTop_concat (under : Shade) (fills : List Fill) (fill : Fill) (x y : Nat) :
    onTop under (fills ++ [fill]) x y =
      if fill.rect.Covers x y then fill.shade else onTop under fills x y := by
  rw [onTop, List.reverse_concat, List.find?_cons]
  by_cases hCovers : fill.rect.Covers x y
  · simp [hCovers]
  · simp [hCovers, onTop]

namespace Framebuffer

variable {columns rows : UInt64} {x y : Nat}

/-! ### Pixels -/

theorem index_lt (hx : x < columns.toNat) (hy : y < rows.toNat) :
    x * rows.toNat + y < columns.toNat * rows.toNat := by
  have hColumn : (x + 1) * rows.toNat ≤ columns.toNat * rows.toNat := Nat.mul_le_mul_right _ hx
  rw [Nat.add_mul, Nat.one_mul] at hColumn
  omega

theorem index_mod (x : Nat) (hy : y < rows.toNat) : (x * rows.toNat + y) % rows.toNat = y := by
  rw [Nat.mul_comm, Nat.mul_add_mod, Nat.mod_eq_of_lt hy]

theorem index_div (x : Nat) (hy : y < rows.toNat) : (x * rows.toNat + y) / rows.toNat = x := by
  rw [Nat.mul_comm, Nat.mul_add_div (by omega), Nat.div_eq_of_lt hy, Nat.add_zero]

theorem pixel?_of_lt {screen : Framebuffer} (hx : x < screen.columns.toNat)
    (hy : y < screen.rows.toNat) :
    screen.pixel? x y = screen.pixels[x * screen.rows.toNat + y]? := if_pos ⟨hx, hy⟩

theorem pixel?_of_not_lt {screen : Framebuffer}
    (h : ¬(x < screen.columns.toNat ∧ y < screen.rows.toNat)) : screen.pixel? x y = none :=
  if_neg h

theorem pixel?_filled (columns rows : UInt64) (shade : Shade) (x y : Nat) :
    (filled columns rows shade).pixel? x y =
      if x < columns.toNat ∧ y < rows.toNat then some shade else none := by
  by_cases h : x < columns.toNat ∧ y < rows.toNat
  · rw [if_pos h, pixel?_of_lt h.1 h.2]
    exact (Array.getElem?_replicate ..).trans (if_pos (index_lt h.1 h.2))
  · rw [if_neg h, pixel?_of_not_lt h]

/-- A framebuffer has a pixel wherever it is not exceeded. -/
theorem pixel?_eq_some {screen : Framebuffer} (hx : x < screen.columns.toNat)
    (hy : y < screen.rows.toNat) :
    ∃ _ : x * screen.rows.toNat + y < screen.pixels.size,
      screen.pixel? x y = some screen.pixels[x * screen.rows.toNat + y] := by
  have hIndex : x * screen.rows.toNat + y < screen.pixels.size := by
    rw [screen.size_eq]
    exact index_lt hx hy
  exact ⟨hIndex, (pixel?_of_lt hx hy).trans (Array.getElem?_eq_getElem hIndex)⟩

/-- Only what changes pixels inside changes them at all. -/
theorem map_pixel?_congr {screen : Framebuffer} {f g : Shade → Shade}
    (h : x < screen.columns.toNat → y < screen.rows.toNat → ∀ shade, f shade = g shade) :
    (screen.pixel? x y).map f = (screen.pixel? x y).map g := by
  by_cases hInside : x < screen.columns.toNat ∧ y < screen.rows.toNat
  · exact Option.map_congr fun shade _ => h hInside.1 hInside.2 shade
  · rw [pixel?_of_not_lt hInside]
    rfl

/-- Every place of the store is that of a pixel. -/
theorem exists_index {screen : Framebuffer} {i : Nat} (h : i < screen.pixels.size) :
    ∃ x y, x < screen.columns.toNat ∧ y < screen.rows.toNat ∧
      i = x * screen.rows.toNat + y := by
  rw [screen.size_eq] at h
  have hRows : 0 < screen.rows.toNat := Nat.pos_of_lt_mul_left h
  refine ⟨i / screen.rows.toNat, i % screen.rows.toNat,
    Nat.div_lt_of_lt_mul (Nat.mul_comm .. ▸ h), Nat.mod_lt _ hRows, ?_⟩
  rw [Nat.mul_comm, Nat.div_add_mod]

/-- A framebuffer is its size and its pixels. -/
theorem ext_pixel {a b : Framebuffer} (hColumns : a.columns = b.columns) (hRows : a.rows = b.rows)
    (hPixel : ∀ x y, a.pixel? x y = b.pixel? x y) : a = b := by
  have hSize : a.pixels.size = b.pixels.size := by
    rw [a.size_eq, b.size_eq, hColumns, hRows]
  have hPixels : a.pixels = b.pixels := by
    refine Array.ext_getElem? fun i => ?_
    by_cases hi : i < a.pixels.size
    · obtain ⟨x, y, hx, hy, rfl⟩ := exists_index hi
      have hSame := hPixel x y
      rw [pixel?_of_lt hx hy, pixel?_of_lt (hColumns ▸ hx) (hRows ▸ hy), ← hRows] at hSame
      exact hSame
    · rw [Array.getElem?_eq_none (by omega), Array.getElem?_eq_none (by omega)]
  cases a
  cases b
  rw [mk.injEq]
  exact ⟨hColumns, hRows, hPixels⟩

theorem isBlank_iff {screen : Framebuffer} :
    screen.isBlank = true ↔ ∀ x y, x < screen.columns.toNat → y < screen.rows.toNat →
      screen.pixel? x y = some .foreground := by
  rw [isBlank, Array.all_eq_true]
  constructor
  · intro h x y hx hy
    obtain ⟨hIndex, hShade⟩ := pixel?_eq_some hx hy
    rw [hShade, beq_iff_eq.1 (h _ hIndex)]
  · intro h i hi
    obtain ⟨x, y, hx, hy, rfl⟩ := exists_index hi
    obtain ⟨_, hShade⟩ := pixel?_eq_some hx hy
    exact beq_iff_eq.2 (Option.some.inj (hShade.symm.trans (h x y hx hy)))

/-! ### Fills -/

/-- The largest word is no nearer than any end of a surface. -/
theorem min_reach (a b n : UInt64) :
    min (Rect.reach a b).toNat n.toNat = min (a.toNat + b.toNat) n.toNat := by
  have hn := n.toNat_lt
  have ha := a.toNat_lt
  have hb := b.toNat_lt
  rw [Rect.reach]
  split
  next hWrap =>
    rw [UInt64.lt_iff_toNat_lt, UInt64.toNat_add] at hWrap
    have hWord : (0xFFFFFFFFFFFFFFFF : UInt64).toNat = 0xFFFFFFFFFFFFFFFF := rfl
    omega
  next hWrap =>
    rw [UInt64.lt_iff_toNat_lt, UInt64.toNat_add] at hWrap
    rw [UInt64.toNat_add]
    omega

theorem paint?_eq_some {screen painted : Framebuffer} {left right top bottom : Nat} {shade : Shade}
    (h : screen.paint? left right top bottom shade = some painted) :
    painted.columns = screen.columns ∧ painted.rows = screen.rows ∧
      ∀ x y, painted.pixel? x y = (screen.pixel? x y).map fun old =>
        if left ≤ x ∧ x < right ∧ top ≤ y ∧ y < bottom then shade else old := by
  unfold paint? at h
  split at h
  next =>
    obtain rfl := Option.some.inj h
    refine ⟨rfl, rfl, fun x y => ?_⟩
    unfold pixel?
    dsimp only
    split
    next hInside =>
      rw [Array.getElem?_mapIdx]
      simp only [index_mod x hInside.2, index_div x hInside.2]
    next => rfl
  next => cases h

theorem fill?_eq_some (screen : Framebuffer) (request : Fill) :
    screen.fill? request = some (screen.fill request) :=
  (Option.some_get _).symm

/-- Outside of the surface there is nothing that a fill could miss. -/
theorem covers_iff {screen : Framebuffer} (request : Fill) (hx : x < screen.columns.toNat)
    (hy : y < screen.rows.toNat) :
    request.rect.Covers x y ↔
      (request.rect.x.toNat ≤ x ∧ x < min request.rect.right.toNat screen.columns.toNat) ∧
        request.rect.y.toNat ≤ y ∧ y < min request.rect.bottom.toNat screen.rows.toNat := by
  rw [Rect.right, Rect.bottom, min_reach, min_reach, Rect.Covers]
  omega

theorem fill_spec (screen : Framebuffer) (request : Fill) :
    (screen.fill request).columns = screen.columns ∧ (screen.fill request).rows = screen.rows ∧
      ∀ x y, (screen.fill request).pixel? x y = (screen.pixel? x y).map fun old =>
        if request.rect.Covers x y then request.shade else old := by
  have hFill := screen.fill?_eq_some request
  unfold fill? at hFill
  dsimp only at hFill
  split at hFill
  next hNothing =>
    rw [← Option.some.inj hFill]
    refine ⟨rfl, rfl, fun x y => Option.map_id'.symm.trans (map_pixel?_congr fun hx hy old => ?_)⟩
    have hCovers : ¬request.rect.Covers x y := by
      rw [covers_iff request hx hy]
      omega
    rw [if_neg hCovers]
  next =>
    obtain ⟨hColumns, hRows, hPixel⟩ := paint?_eq_some hFill
    refine ⟨hColumns, hRows, fun x y => (hPixel x y).trans (map_pixel?_congr fun hx hy old => ?_)⟩
    simp only [covers_iff request hx hy, and_assoc]

/-! ### Sequences of fills -/

/-- Fills lie one on the other, and the size stays. -/
theorem foldl_fill_spec (screen : Framebuffer) (fills : List Fill) :
    (fills.foldl fill screen).columns = screen.columns ∧
      (fills.foldl fill screen).rows = screen.rows ∧
      ∀ x y, (fills.foldl fill screen).pixel? x y =
        (screen.pixel? x y).map fun under => Fill.onTop under fills x y := by
  induction fills using List.reverseRecOn with
  | nil => exact ⟨rfl, rfl, fun x y => by simp⟩
  | append_singleton fills request ih =>
    obtain ⟨hColumns, hRows, hPixel⟩ := ih
    obtain ⟨hColumns', hRows', hPixel'⟩ := fill_spec (fills.foldl fill screen) request
    rw [List.foldl_append, List.foldl_cons, List.foldl_nil]
    refine ⟨hColumns'.trans hColumns, hRows'.trans hRows, fun x y => ?_⟩
    rw [hPixel', hPixel, Option.map_map]
    refine Option.map_congr fun under _ => ?_
    exact (Fill.onTop_concat under fills request x y).symm

/-- No fill of a sequence is refused. -/
theorem foldlM_fill? (screen : Framebuffer) (fills : List Fill) :
    fills.foldlM fill? screen = some (fills.foldl fill screen) := by
  induction fills generalizing screen with
  | nil => rfl
  | cons request fills ih =>
    rw [List.foldlM_cons, fill?_eq_some, List.foldl_cons]
    exact ih (screen.fill request)

/-! ### Blanking -/

theorem covers_full (hx : x < columns.toNat) (hy : y < rows.toNat) :
    (Rect.full columns rows).Covers x y := by
  simp only [Rect.Covers, Rect.full, UInt64.toNat_zero]
  omega

/-- Nothing of what was there before shows on a blanked surface. -/
theorem blank_eq_filled (screen : Framebuffer) :
    screen.blank = filled screen.columns screen.rows .foreground := by
  obtain ⟨hColumns, hRows, hPixel⟩ :=
    screen.fill_spec (.blanking screen.columns screen.rows)
  refine ext_pixel hColumns hRows fun x y => ?_
  rw [blank, hPixel, pixel?_filled]
  by_cases hInside : x < screen.columns.toNat ∧ y < screen.rows.toNat
  · obtain ⟨_, hShade⟩ := pixel?_eq_some hInside.1 hInside.2
    rw [hShade, if_pos hInside, Option.map_some]
    exact congrArg some (if_pos (covers_full hInside.1 hInside.2))
  · rw [pixel?_of_not_lt hInside, if_neg hInside]
    rfl

theorem isBlank_filled (columns rows : UInt64) :
    (filled columns rows .foreground).isBlank = true := by
  rw [isBlank_iff]
  intro x y hx hy
  rw [pixel?_filled]
  exact if_pos ⟨hx, hy⟩

/-! ### The law -/

theorem new?_eq_some {fresh : Framebuffer} (h : new? columns rows = some fresh) :
    fresh = filled columns rows .background := by
  unfold new? at h
  split at h
  · exact (Option.some.inj h).symm
  · cases h

/-- **The painter's law.**  A sequence of fills of a new framebuffer is never refused and keeps its
size, each pixel shows the last fill that covers it, and the whole is blank if each pixel shows the
foreground. -/
theorem painters_law {fresh : Framebuffer} (hFresh : new? columns rows = some fresh)
    (fills : List Fill) :
    ∃ screen, fills.foldlM fill? fresh = some screen ∧ fills.foldl fill fresh = screen ∧
      screen.columns = columns ∧ screen.rows = rows ∧
      (∀ x y, screen.pixel? x y =
        if x < columns.toNat ∧ y < rows.toNat then some (Fill.onTop .background fills x y)
        else none) ∧
      (screen.isBlank = true ↔ ∀ x y, x < columns.toNat → y < rows.toNat →
        Fill.onTop .background fills x y = .foreground) := by
  obtain rfl := new?_eq_some hFresh
  obtain ⟨hColumns, hRows, hPixel⟩ := foldl_fill_spec (filled columns rows .background) fills
  have hShown : ∀ x y, (fills.foldl fill (filled columns rows .background)).pixel? x y =
      if x < columns.toNat ∧ y < rows.toNat then some (Fill.onTop .background fills x y)
      else none := by
    intro x y
    rw [hPixel, pixel?_filled]
    split <;> rfl
  refine ⟨_, foldlM_fill? _ fills, rfl, hColumns, hRows, hShown, ?_⟩
  rw [isBlank_iff, hColumns, hRows]
  refine forall₄_congr fun x y hx hy => ?_
  rw [hShown, if_pos ⟨hx, hy⟩, Option.some.injEq]

/-- The largest rectangle there is ends beyond the largest word. -/
theorem painters_law_overflowing :
    let fills : List Fill :=
      [⟨⟨0, 1, 0xFFFFFFFFFFFFFFFF, 0xFFFFFFFFFFFFFFFF⟩, .foreground⟩, ⟨⟨9, 0, 1, 1⟩, .foreground⟩,
        ⟨⟨1, 0, 0xFFFFFFFFFFFFFFFF, 0xFFFFFFFFFFFFFFFF⟩, .background⟩, ⟨⟨2, 1, 1, 0⟩, .foreground⟩]
    new? 4 2 = some (filled 4 2 .background) ∧
      (fills.foldl fill (filled 4 2 .background)).pixel? 0 1 = some .foreground ∧
      (fills.foldl fill (filled 4 2 .background)).pixel? 3 1 = some .background ∧
      (fills.foldl fill (filled 4 2 .background)).isBlank = false := by
  intro fills
  have hFresh : new? 4 2 = some (filled 4 2 .background) := by decide
  obtain ⟨screen, -, hScreen, -, -, hPixel, hBlank⟩ := painters_law hFresh fills
  rw [hScreen]
  refine ⟨hFresh, (hPixel 0 1).trans (by decide), (hPixel 3 1).trans (by decide), ?_⟩
  rw [Bool.eq_false_iff, Ne, hBlank]
  intro hAll
  exact absurd (hAll 3 1 (by decide) (by decide)) (by decide)

end Framebuffer

end Chip8Launcher
