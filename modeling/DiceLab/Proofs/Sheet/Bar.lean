import DiceLab.Proofs.Binary64.Halves
import DiceLab.Proofs.Fit
import DiceLab.Proofs.Sheet.Histogram

/-! Bars of counts: how many cells are filled follows the counts in their order, from none for zero to
the whole bar for the peak. -/

namespace DiceLab

open Binary64 (nearest nearest_zero reach lt_reach_of_short scale ofRatio ofUnits)

namespace Sheet

/-- The number of filled cells of a count: the share of the peak and its product with the width are
rounded to the grid, and the product is rounded to a whole number. -/
def filledOf (count peak width : Nat) : Nat :=
  roundQuotient (nearest (nearest (count * scale) peak * width) 1) scale

variable {count other peak width : Nat}

/-- A larger count fills no fewer cells. -/
theorem filledOf_mono (le : count ≤ other) : filledOf count peak width ≤ filledOf other peak width := by
  -- Each step on the way to the number of cells keeps the order.
  apply roundQuotient_mono
  apply Binary64.nearest_mono
  apply Nat.mul_le_mul_right width
  exact Binary64.nearest_mono (Nat.mul_le_mul_right scale le)

/-- A count of nothing fills no cell. -/
theorem filledOf_zero : filledOf 0 peak width = 0 := by
  rw [filledOf, Nat.zero_mul, nearest_zero, Nat.zero_mul, nearest_zero]
  simp [roundQuotient]

/-- A short number of cells stands on the grid. -/
theorem nearest_cells {denominator : Nat} (positive : 0 < denominator) (short : width ≤ twoTo 53) :
    nearest (width * scale * denominator) denominator = width * scale := by
  rw [Binary64.scale_eq]
  exact Binary64.nearest_of_onGrid positive (Binary64.onGrid_of_short short 1074)

/-- The share of the peak in itself is one. -/
theorem nearest_peak (positive : 0 < peak) : nearest (peak * scale) peak = scale := by
  have one := nearest_cells positive (show 1 ≤ twoTo 53 by decide)
  rwa [Nat.one_mul, Nat.mul_comm] at one

/-- The peak fills the bar. -/
theorem filledOf_peak (positive : 0 < peak) (short : width ≤ twoTo 53) :
    filledOf peak peak width = width := by
  have unit : 0 < scale := twoTo_pos _
  have length := nearest_cells Nat.one_pos short
  rw [Nat.mul_one, Nat.mul_comm] at length
  -- The peak is one whole of itself, so its bar is as long as there are cells.
  rw [filledOf, nearest_peak positive, length, Nat.mul_comm]
  exact roundQuotient_of_close (by omega) (by omega)

/-- No count up to the peak fills more than the bar. -/
theorem filledOf_le (le : count ≤ peak) (short : width ≤ twoTo 53) :
    filledOf count peak width ≤ width := by
  rcases Nat.eq_zero_or_pos peak with rfl | positive
  · obtain rfl := Nat.le_zero.mp le
    rw [filledOf_zero]
    exact Nat.zero_le _
  · -- No count exceeds the peak, and the peak fills the bar.
    have most : filledOf count peak width ≤ filledOf peak peak width := filledOf_mono le
    rwa [filledOf_peak positive short] at most

/-- A short number of cells is converted as it is. -/
theorem exists_ofInt_cells (short : width ≤ twoTo 53) :
    ∃ magnitude, wholeToReal width = .ok (.finite false magnitude) ∧
      magnitude.units = width * scale := by
  have unit : 0 < scale := twoTo_pos _
  have below := Nat.mul_lt_mul_of_pos_right (lt_reach_of_short short) unit
  have counted := nearest_cells Nat.one_pos short
  rw [Nat.mul_one] at counted
  rw [← Nat.mul_one (reach * scale)] at below
  -- A short number of cells stands on the grid, so it is converted as it is.
  obtain ⟨magnitude, finite, units⟩ := @Binary64.ofUnits_of_lt false _ _ Nat.one_pos below
  rw [counted] at units
  refine ⟨magnitude, ?_, units⟩
  rw [wholeToReal, Binary64.ofInt_natCast, ofRatio, finite]
  rfl

/-- A part is far below the bound of quotients by the whole. -/
theorem part_lt (positive : 0 < peak) (le : count ≤ peak) : count < reach * peak := by
  have limit : 1 < reach := lt_reach_of_short (by decide)
  exact Nat.lt_of_le_of_lt le ((Nat.lt_mul_iff_one_lt_left positive).mpr limit)

/-- A part is divided by the whole. -/
theorem div_part (positive : 0 < peak) (le : count ≤ peak) :
    (Number.whole count).div (.whole peak) = .ok (ofRatio false count peak) := by
  rw [Number.div, wholeQuotient_eq_ok (by omega), Int.natAbs_natCast]
  exact ⟨part_lt positive le, rfl⟩

/-- A count up to the peak has a share of it, which is at most one. -/
theorem exists_share (positive : 0 < peak) (le : count ≤ peak) :
    ∃ share, (Number.whole count).div (.whole peak) = .ok (.finite false share) ∧
      share.units = nearest (count * scale) peak ∧ share.units ≤ scale := by
  have unit : 0 < scale := twoTo_pos _
  have inUnits := Nat.mul_lt_mul_of_pos_right (part_lt positive le) unit
  rw [Nat.mul_right_comm] at inUnits
  obtain ⟨share, finite, units⟩ := @Binary64.ofUnits_of_lt false _ _ positive inUnits
  have divided := div_part positive le
  rw [ofRatio, finite] at divided
  refine ⟨share, divided, units, ?_⟩
  -- Rounding keeps the order, and the share of the peak is exact.
  have most : nearest (count * scale) peak ≤ nearest (peak * scale) peak :=
    Binary64.nearest_mono (Nat.mul_le_mul_right scale le)
  rwa [nearest_peak positive, ← units] at most

/-- A share of the peak in a length is rounded to the filled cells. -/
theorem roundEven_mul {share length : Binary64.Magnitude}
    (shareUnits : share.units = nearest (count * scale) peak) (most : share.units ≤ scale)
    (lengthUnits : length.units = width * scale) (short : width ≤ twoTo 53) :
    ((Binary64.finite false share).mul (.finite false length)).roundEven =
      .ok (filledOf count peak width : Int) := by
  have unit : 0 < scale := twoTo_pos _
  -- The product is no longer than the whole length, so it is finite.
  have below : share.units * length.units < reach * scale * scale := by
    rw [lengthUnits, ← Nat.mul_assoc]
    apply Nat.mul_lt_mul_of_pos_right _ unit
    calc
      share.units * width ≤ scale * width := Nat.mul_le_mul_right width most
      _ = width * scale := Nat.mul_comm _ _
      _ < reach * scale := Nat.mul_lt_mul_of_pos_right (lt_reach_of_short short) unit
  obtain ⟨drawn, finite, drawnUnits⟩ := @Binary64.ofUnits_of_lt false _ _ unit below
  -- The units of the length cancel those that a product is divided by.
  have scaled : nearest (share.units * length.units) scale = nearest (share.units * width) 1 := by
    have same := Binary64.nearest_mul_right (share.units * width) 1 unit
    rwa [Nat.one_mul, Nat.mul_assoc, ← lengthUnits] at same
  rw [scaled, shareUnits] at drawnUnits
  show (ofUnits false (share.units * length.units) scale).roundEven = _
  rw [finite, filledOf, ← drawnUnits]
  show Except.ok (Binary64.signed ((drawn.units : Int) < 0) (roundQuotient drawn.units scale)) = _
  rw [decide_eq_false (by omega)]
  rfl

/-- The filled cells of a count are counted without fail. -/
theorem filledCells_counts (le : count ≤ peak) (short : width ≤ twoTo 53) :
    filledCells (.whole count) (.whole peak) width = .ok (filledOf count peak width : Int) := by
  unfold filledCells
  rw [Number.le_whole]
  rcases Nat.eq_zero_or_pos peak with rfl | positive
  · -- Without a peak there is nothing to draw.
    obtain rfl := Nat.le_zero.mp le
    rw [filledOf_zero]
    rfl
  · obtain ⟨share, divided, shareUnits, most⟩ := exists_share positive le
    obtain ⟨length, converted, lengthUnits⟩ := exists_ofInt_cells short
    have cells := roundEven_mul shareUnits most lengthUnits short
    -- As many cells as that are already within the bar.
    have held := filledOf_le le short
    have drawnCells : max 0 (min (width : Int) (filledOf count peak width)) =
        filledOf count peak width := by omega
    rw [if_neg (by simpa using Nat.ne_of_gt positive), ← drawnCells]
    exact bind_eq_ok.mpr ⟨_, divided, bind_eq_ok.mpr ⟨_, converted, bind_eq_ok.mpr ⟨_, cells, rfl⟩⟩⟩

/-- The text of a bar with a number of filled cells and a number of empty ones behind them. -/
def barText (color : Text) (filled empty : Nat) : Text :=
  "[" ++ color ++ "]" ++ List.replicate filled fullCell ++ "[/][dim]" ++
    List.replicate empty emptyCell ++ "[/]"

/-- The bar of a count is as long as its width. -/
theorem bar_counts (color : Text) (le : count ≤ peak) (room : width ≤ mostCells) :
    bar (.whole count) (.whole peak) width color =
      .ok (barText color (filledOf count peak width) (width - filledOf count peak width)) := by
  have limit : mostCells ≤ twoTo 53 := by decide
  have short : width ≤ twoTo 53 := by omega
  have held := filledOf_le le short
  have rest : (width : Int) - filledOf count peak width = (width - filledOf count peak width : Nat) :=
    (Int.ofNat_sub held).symm
  have full := cells_natCast fullCell (show (filledOf count peak width : Int) ≤ mostCells by omega)
  have empty := cells_natCast emptyCell
    (show ((width - filledOf count peak width : Nat) : Int) ≤ mostCells by omega)
  -- What is not filled is left empty, and together they are as many cells as there are.
  rw [← rest] at empty
  exact bind_eq_ok.mpr ⟨_, filledCells_counts le short,
    bind_eq_ok.mpr ⟨_, full, bind_eq_ok.mpr ⟨_, empty, rfl⟩⟩⟩

end Sheet

end DiceLab
