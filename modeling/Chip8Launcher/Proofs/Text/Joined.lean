import Mathlib.Data.List.Basic

/-!
# Joined pieces

A text that is joined from pieces by a separator can be taken apart again as long as no piece
contains the separator: `List.splitOn_intercalate` takes it apart, and `intercalate_injective` says
so of two texts.  Only the text of no pieces is also that of one empty piece.  And a text that is
joined from the first pieces, the last one cut short or not, is a prefix of the whole
(`intercalate_prefix`).
-/

namespace Chip8Launcher.Text

variable {α : Type} {separator a : α} {pieces others : List (List α)}

/-- What is not a separator comes from a piece. -/
theorem mem_intercalate (hNe : a ≠ separator) :
    a ∈ [separator].intercalate pieces ↔ ∃ piece ∈ pieces, a ∈ piece := by
  induction pieces with
  | nil => simp
  | cons piece pieces ih =>
    cases pieces with
    | nil => simp
    | cons next pieces =>
      rw [List.intercalate_cons_cons, List.mem_append, List.mem_append, List.mem_singleton,
        or_iff_left hNe, ih]
      exact (List.exists_mem_cons_iff _ piece (next :: pieces)).symm

theorem intercalate_injective [DecidableEq α] (hPieces : ∀ piece ∈ pieces, separator ∉ piece)
    (hOthers : ∀ piece ∈ others, separator ∉ piece) (hNe : pieces ≠ []) (hNe' : others ≠ [])
    (h : [separator].intercalate pieces = [separator].intercalate others) : pieces = others := by
  rw [← List.splitOn_intercalate separator hPieces hNe, h,
    List.splitOn_intercalate separator hOthers hNe']

/-- Nothing comes only of no pieces or of one that is empty. -/
theorem intercalate_eq_nil_iff :
    [separator].intercalate pieces = [] ↔ pieces = [] ∨ pieces = [[]] := by
  cases pieces with
  | nil => simp
  | cons piece pieces => cases pieces <;> simp

/-- If the last piece is cut short, or further pieces follow, the joined text is cut short. -/
theorem intercalate_prefix
    (h : ∀ k piece, pieces[k]? = some piece → ∃ other, others[k]? = some other ∧
      piece <+: other ∧ (k + 1 < pieces.length → piece = other)) :
    [separator].intercalate pieces <+: [separator].intercalate others := by
  induction pieces generalizing others with
  | nil => exact List.nil_prefix
  | cons piece pieces ih =>
    obtain ⟨other, hOther, hPiece, hSame⟩ := h 0 piece rfl
    cases others with
    | nil => cases hOther
    | cons _ others =>
      obtain rfl := Option.some.inj hOther
      have hLater : ∀ k piece, pieces[k]? = some piece → ∃ other, others[k]? = some other ∧
          piece <+: other ∧ (k + 1 < pieces.length → piece = other) :=
        fun k piece' hAt => by simpa using h (k + 1) piece' hAt
      cases pieces with
      | nil =>
        cases others with
        | nil => simpa using hPiece
        | cons next others =>
          rw [List.intercalate_singleton, List.intercalate_cons_cons]
          exact hPiece.trans (List.prefix_append_of_prefix (List.prefix_append _ _))
      | cons next pieces =>
        obtain rfl := hSame (by simp)
        obtain ⟨next', hNext, -⟩ := hLater 0 next rfl
        cases others with
        | nil => cases hNext
        | cons _ others =>
          rw [List.intercalate_cons_cons, List.intercalate_cons_cons]
          exact (List.prefix_append_right_inj _).2 (ih hLater)

theorem intercalate_replicate_nil (n : Nat) :
    [separator].intercalate (List.replicate n []) = List.replicate (n - 1) separator := by
  induction n with
  | zero => rfl
  | succ n ih =>
    cases n with
    | zero => simp
    | succ n =>
      rw [List.replicate_succ, List.replicate_succ, List.intercalate_cons_cons,
        ← List.replicate_succ, ih]
      rfl

end Chip8Launcher.Text
