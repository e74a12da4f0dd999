import DiceLab.Proofs.Decimal.Digits
import DiceLab.Proofs.Histogram
import DiceLab.Proofs.Sheet.Bar

/-! The table of a histogram of counts shows each of them once, by ascending total, with its share of
all and a bar that is no shorter than that of a smaller count. -/

namespace DiceLab

open Binary64 (reach ofInt ofRatio)
open Histogram (labelled ofCounts)

/-- A count below the bound has a finite value. -/
theorem Number.toReal_natCast {count : Nat} (below : count < reach) :
    (Number.whole count).toReal = .ok (ofInt count) := by
  obtain ⟨magnitude, finite⟩ := Binary64.exists_finite_ofInt below
  rw [toReal, wholeToReal, finite]
  rfl

namespace Sheet

/-- The percentage of a count in a sum; of nothing it is zero. -/
def shareOf (count sum : Nat) : Binary64 :=
  if sum = 0 then .zero false else (ofRatio false count sum).mul (ofInt 100)

/-- A count has a percentage of every sum that it is a part of. -/
theorem percentage_counts {count sum : Nat} (le : count ≤ sum) :
    percentage (.whole count) (.whole sum) = .ok (shareOf count sum) := by
  unfold percentage shareOf
  rcases Nat.eq_zero_or_pos sum with rfl | positive
  · rw [if_pos rfl]
    -- Without any counts the share is set to zero instead of divided by zero.
    exact if_pos rfl
  · have nonzero : sum ≠ 0 := Nat.ne_of_gt positive
    rw [if_neg (by simpa [Number.isZero] using nonzero), if_neg nonzero]
    exact bind_eq_ok.mpr ⟨_, div_part positive le, rfl⟩

/-- What the row of a total shows. -/
structure DrawnRow where
  total : Int
  count : Nat
  /-- The percentage of the count. -/
  share : Binary64
  /-- The filled cells of the bar. -/
  filled : Nat
  /-- The empty cells of the bar. -/
  empty : Nat

/-- The texts of a row. -/
def DrawnRow.cells (row : DrawnRow) : List Text :=
  [Decimal.wholeText row.total, Decimal.compactText (ofInt row.count),
    Decimal.fixedText 1 row.share, barText "blue" row.filled row.empty]

/-- The row of a count, given the sum of all counts, the greatest one, and the length of its bar. -/
def drawnRow (sum peak length : Nat) (entry : Int × Nat) : DrawnRow where
  total := entry.1
  count := entry.2
  share := shareOf entry.2 sum
  filled := filledOf entry.2 peak length
  empty := length - filledOf entry.2 peak length

/-- The row of a count is made up without fail. -/
theorem histogramRow_counts {sum peak length : Nat} {entry : Int × Nat}
    (written : Decimal.Writable entry.1) (below : entry.2 < reach) (part : entry.2 ≤ sum)
    (le : entry.2 ≤ peak) (room : length ≤ mostCells) :
    histogramRow (.whole sum) (.whole peak) length (entry.1, .whole entry.2) =
      .ok (drawnRow sum peak length entry).cells := by
  have total : Decimal.write entry.1 = .ok (Decimal.wholeText entry.1) := if_pos written
  -- Each cell of the row is known: the total, the count with its share, and the bar.
  rw [histogramRow, percentage_counts part, total, Number.toReal_natCast below,
    bar_counts "blue" le room]
  simp only [DrawnRow.cells, drawnRow]
  rfl

/-- The rows that draw some counts with bars of a length. -/
structure Draws (counts : List (Int × Nat)) (length : Nat) (rows : List DrawnRow) : Prop where
  /-- There is one row for each entry. -/
  entries : (rows.map fun row => (row.total, row.count)).Perm counts
  /-- The totals ascend. -/
  ascending : rows.Pairwise fun row next => row.total < next.total
  /-- Each share is the percentage of the count in the sum of all. -/
  share : ∀ row ∈ rows, percentage (.whole row.count) (.whole (naturalTotal (counts.map Prod.snd))) =
    .ok row.share
  /-- Each bar has the length that was asked for. -/
  cells : ∀ row ∈ rows, row.filled + row.empty = length
  /-- The bar of a count that no other exceeds is full, unless it counts nothing. -/
  full : ∀ row ∈ rows, 0 < row.count → (∀ other ∈ rows, other.count ≤ row.count) →
    row.filled = length
  /-- The bar of nothing is empty. -/
  none : ∀ row ∈ rows, row.count = 0 → row.filled = 0
  /-- A count that is no smaller than another one has a bar that is no shorter. -/
  order : ∀ row ∈ rows, ∀ other ∈ rows, row.count ≤ other.count → row.filled ≤ other.filled
  /-- Where all counts are zero there is nothing to share. -/
  blank : (∀ entry ∈ counts, entry.2 = 0) → ∀ row ∈ rows, row.filled = 0 ∧ row.share = .zero false

/-- The rows of counts by ascending total draw them. -/
theorem draws_drawnRows {counts ordered : List (Int × Nat)} {peak length : Nat}
    (same : ordered.Perm counts) (ascending : ordered.Pairwise fun first second => first.1 < second.1)
    (most : ∀ entry ∈ ordered, entry.2 ≤ peak) (source : peak = 0 ∨ ∃ entry ∈ ordered, entry.2 = peak)
    (short : length ≤ twoTo 53) :
    Draws counts length
      (ordered.map (drawnRow (naturalTotal (counts.map Prod.snd)) peak length)) where
  entries := by
    rw [List.map_map]
    exact (List.map_id ordered).symm ▸ same
  ascending := List.pairwise_map.mpr ascending
  share := by
    simp only [List.forall_mem_map, drawnRow]
    intro entry member
    exact percentage_counts (le_naturalTotal (List.mem_map_of_mem (same.mem_iff.mp member)))
  cells := by
    simp only [List.forall_mem_map, drawnRow]
    intro entry member
    exact Nat.add_sub_of_le (filledOf_le (most entry member) short)
  full := by
    simp only [List.forall_mem_map, drawnRow]
    intro entry member positive greatest
    -- What no other count exceeds is the peak, which is a count itself.
    have reached : entry.2 = peak := by
      apply Nat.le_antisymm (most entry member)
      rcases source with rfl | ⟨top, inside, rfl⟩
      · exact Nat.zero_le _
      · exact greatest top inside
    rw [reached] at positive ⊢
    exact filledOf_peak positive short
  none := by
    simp only [List.forall_mem_map, drawnRow]
    intro entry member nothing
    rw [nothing, filledOf_zero]
  order := by
    simp only [List.forall_mem_map, drawnRow]
    intro entry _ other _ le
    exact filledOf_mono le
  blank := by
    simp only [List.forall_mem_map, drawnRow]
    intro nothing entry member
    rw [nothing entry (same.mem_iff.mp member), filledOf_zero]
    exact ⟨rfl, if_pos (naturalTotal_of_zero (List.forall_mem_map.mpr nothing))⟩

/-- Counts under distinct totals are drawn without fail, and the order in which they are given makes
no difference. -/
theorem histogramTable_draws {counts : List (Int × Nat)} {length : Nat} (title : Text)
    (distinct : (counts.map Prod.fst).Nodup) (written : ∀ entry ∈ counts, Decimal.Writable entry.1)
    (small : ∀ entry ∈ counts, entry.2 < twoTo 50) (short : length ≤ twoTo 20) :
    ∃ rows, Draws counts length rows ∧
      ∀ others : List (Int × Nat), others.Perm counts →
        (do histogramTable (← Histogram.ofLabels (labelled others)) title length) =
          .ok ⟨titled title, histogramColumns, rows.map DrawnRow.cells⟩ := by
  have room : (twoTo 20 : Int) ≤ mostCells := by decide
  have limit : twoTo 20 ≤ twoTo 53 := by decide
  obtain ⟨ordered, same, ascending⟩ := Histogram.exists_ascending distinct
  obtain ⟨peak, greatest, most, source⟩ := Histogram.exists_greatest ordered
  refine ⟨_, draws_drawnRows same ascending most source (by omega), ?_⟩
  intro others moved
  -- Whatever order the counts are given in, they are read and sorted into the one ascending order.
  have read := Histogram.ofLabels_labelled ((moved.map Prod.fst).nodup_iff.mpr distinct)
  refine bind_eq_ok.mpr ⟨_, read, ?_⟩
  have sorted := Histogram.sorted_ofCounts (same.trans moved.symm) ascending
  have sum := Number.sum_ofCounts ordered
  rw [naturalTotal_perm (same.map Prod.snd)] at sum
  rw [histogramTable, sorted, greatest, List.map_map]
  -- Each count is a part of their sum and no greater than the greatest, so that its row is made up.
  have rows : (ofCounts ordered).mapM
      (histogramRow (.whole (naturalTotal (counts.map Prod.snd))) (.whole peak) length) =
        .ok (ordered.map fun entry =>
          (drawnRow (naturalTotal (counts.map Prod.snd)) peak length entry).cells) := by
    rw [mapM_eq_ok, ofCounts, List.forall₂_map_left_iff, List.forall₂_map_right_iff,
      List.forall₂_same]
    intro entry member
    have given := same.mem_iff.mp member
    have power : twoTo 50 ≤ twoTo 53 := by decide
    have below := Binary64.lt_reach_of_short (Nat.le_trans (small entry given).le power)
    exact histogramRow_counts (written entry given) below
      (le_naturalTotal (List.mem_map_of_mem given)) (most entry member) (by omega)
  exact bind_eq_ok.mpr ⟨_, sum, bind_eq_ok.mpr ⟨_, rows, rfl⟩⟩

/-- Two counts and a zero are drawn by ascending total, and the larger count fills its bar. -/
theorem histogramTable_draws_three :
    let counts : List (Int × Nat) := [(5, 2), (-1, 0), (3, 7)]
    let texts : List (List Text) := [
      ["-1", "0", "0.0", "[blue][/][dim]░░░░░░░░░░[/]"],
      ["3", "7", "77.8", "[blue]██████████[/][dim][/]"],
      ["5", "2", "22.2", "[blue]███[/][dim]░░░░░░░[/]"]]
    ∃ rows, Draws counts 10 rows ∧ rows.map DrawnRow.cells = texts := by
  intro counts texts
  obtain ⟨rows, draws, laid⟩ := @histogramTable_draws counts 10 "Rolls"
    (by decide) (by decide +kernel) (by decide +kernel) (by decide)
  refine ⟨rows, draws, ?_⟩
  have table : (do histogramTable (← Histogram.ofLabels (labelled counts)) "Rolls" 10) =
      .ok ⟨some "Rolls", histogramColumns, texts⟩ := by
    decide +kernel
  have same := (laid counts (List.Perm.refl counts)).symm.trans table
  exact congrArg Table.rows (Except.ok.inj same)

end Sheet

end DiceLab
