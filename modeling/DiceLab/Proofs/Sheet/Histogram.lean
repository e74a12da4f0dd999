import DiceLab.Proofs.Binary64.Order
import DiceLab.Proofs.Binary64.Within
import DiceLab.Proofs.Sheet
import DiceLab.Proofs.Sorting
import DiceLab.Sheet.Histogram

/-! Histograms are drawn whenever their totals can be written and their frequencies are either counts
that are not large or one share for all. -/

namespace DiceLab

open Binary64 (reach scale)

namespace Sheet

/-- A bar is never longer than its width. -/
theorem filledCells_between {value peak : Number} {width filled : Int} (positive : 0 ≤ width)
    (ok : filledCells value peak width = .ok filled) : 0 ≤ filled ∧ filled ≤ width := by
  unfold filledCells at ok
  split at ok
  · cases ok
    omega
  · -- Whatever the share is rounded to, the number of cells is held between the ends of the bar.
    obtain ⟨share, -, ok⟩ := bind_eq_ok.mp ok
    obtain ⟨length, -, ok⟩ := bind_eq_ok.mp ok
    obtain ⟨cells, -, ok⟩ := bind_eq_ok.mp ok
    cases ok
    omega

/-- A cell is repeated where there is room for that. -/
theorem cells_natCast (cell : CodePoint) {count : Nat} (room : count ≤ mostCells) :
    cells cell count = .ok (List.replicate count cell) := by
  have positions : mostCells < positionEnd := by decide
  rw [cells, if_neg (by omega), if_neg (by omega), Int.toNat_natCast]

/-- There is room for as many cells as a bar has. -/
theorem exists_cells (cell : CodePoint) {count : Int} (low : 0 ≤ count) (high : count ≤ barLength) :
    ∃ text, cells cell count = .ok text := by
  have room : barLength ≤ mostCells := by decide
  obtain ⟨number, rfl⟩ := Int.eq_ofNat_of_zero_le low
  exact ⟨_, cells_natCast cell (by omega)⟩

/-- A bar is drawn when its filled cells are known. -/
theorem exists_bar {value peak : Number} (color : Text)
    (known : ∃ filled, filledCells value peak barLength = .ok filled) :
    ∃ text, bar value peak barLength color = .ok text := by
  obtain ⟨filled, ok⟩ := known
  -- Neither the filled cells nor the empty ones are more than the bar has.
  obtain ⟨low, high⟩ := filledCells_between (by decide) ok
  obtain ⟨full, fullMade⟩ := exists_cells fullCell low high
  have rest : 0 ≤ barLength - filled := by omega
  obtain ⟨empty, emptyMade⟩ := exists_cells emptyCell rest (by omega)
  exact ⟨_, bind_eq_ok.mpr ⟨filled, ok, bind_eq_ok.mpr ⟨full, fullMade,
    bind_eq_ok.mpr ⟨empty, emptyMade, rfl⟩⟩⟩⟩

/-- The cells of a share that is not large are counted. -/
theorem exists_filledCells {value peak : Number} (bound : Nat) (below : bound * 80 < reach)
    (divided : peak.le (.whole 0) = false →
      ∃ share, value.div peak = .ok share ∧ share.Within bound) :
    ∃ filled, filledCells value peak barLength = .ok filled := by
  unfold filledCells
  cases none : peak.le (.whole 0) with
  | true => exact ⟨0, rfl⟩
  | false =>
    obtain ⟨share, known, within⟩ := divided none
    have limit : 40 < reach := Binary64.lt_reach_of_short (by decide)
    have length : barLength.natAbs ≤ 40 := by decide
    obtain ⟨cells, made, few⟩ := exists_wholeToReal_within length limit
    -- The share is bounded and there are few cells, so their product is finite and can be rounded.
    obtain ⟨negative, magnitude, finite⟩ := within.exists_mul_finite few below
    have rounded : ∃ whole, (share.mul cells).roundEven = .ok whole := by
      rw [finite]
      exact ⟨_, rfl⟩
    obtain ⟨whole, rounded⟩ := rounded
    exact ⟨max 0 (min barLength whole), bind_eq_ok.mpr ⟨share, known,
      bind_eq_ok.mpr ⟨cells, made, bind_eq_ok.mpr ⟨whole, rounded, rfl⟩⟩⟩⟩

end Sheet

namespace Number

variable {numbers : List Number}

/-- The greatest of some numbers is one of them. -/
theorem greatest_mem (numbers : List Number) :
    greatest numbers = .whole 0 ∨ greatest numbers ∈ numbers := by
  cases numbers with
  | nil => exact .inl rfl
  | cons first rest =>
    right
    -- Whatever was the greatest so far, the rest can only put one of its own in its place.
    have general (rest : List Number) (best : Number) :
        rest.foldl (fun best number => if best.lt number then number else best) best ∈
          best :: rest := by
      induction rest generalizing best with
      | nil => exact List.mem_singleton.mpr rfl
      | cons number rest ih =>
        rw [List.foldl_cons]
        rcases List.mem_cons.mp (ih (if best.lt number then number else best)) with kept | later
        · rw [kept]
          split
          · exact List.mem_cons_of_mem _ List.mem_cons_self
          · exact List.mem_cons_self
        · exact List.mem_cons_of_mem _ (List.mem_cons_of_mem _ later)
    exact general rest first

/-- Frequencies that can be drawn: counts that are not large, or one share for all. -/
inductive Drawable (numbers : List Number) : Prop where
  | counts (small : ∀ number ∈ numbers, ∃ count : Int, number = .whole count ∧
      count.natAbs ≤ mostTrials.natAbs)
  | shares {share : Binary64} {place : ℚ} (is : share.Is place)
      (same : ∀ number ∈ numbers, number = .real share)

/-- Whole numbers sum to a whole number. -/
theorem sum_counts (whole : ∀ number ∈ numbers, ∃ count : Int, number = .whole count) :
    ∃ total : Int, sum numbers = .ok (.whole total) := by
  -- The walk starts from zero here, and from any whole number behind the first step.
  have general (rest : List Number) (start : Int)
      (whole : ∀ number ∈ rest, ∃ count : Int, number = .whole count) :
      ∃ total : Int, rest.foldlM add (.whole start) = .ok (.whole total) := by
    induction rest generalizing start with
    | nil => exact ⟨start, rfl⟩
    | cons number rest ih =>
      rw [List.forall_mem_cons] at whole
      obtain ⟨count, rfl⟩ := whole.1
      exact ih (start + count) whole.2
  exact general numbers 0 whole

/-- Whole numbers sum to the sum of their values. -/
theorem sum_ofCounts (counts : List (Int × Nat)) :
    sum ((Histogram.ofCounts counts).map Prod.snd) =
      .ok (.whole (naturalTotal (counts.map Prod.snd))) := by
  -- As the sum goes on from where it stands, the start is left open for the induction.
  have general (counts : List (Int × Nat)) (start : Int) :
      ((Histogram.ofCounts counts).map Prod.snd).foldlM add (.whole start) =
        .ok (.whole (start + naturalTotal (counts.map Prod.snd))) := by
    induction counts generalizing start with
    | nil => exact congrArg (fun total => Except.ok (Number.whole total)) (Int.add_zero start).symm
    | cons entry counts ih =>
      have next := ih (start + entry.2)
      rw [Int.add_assoc] at next
      exact next
  rw [sum, general, Int.zero_add]

/-- Shares sum to a value, whether or not that is finite. -/
theorem sum_shares {share : Binary64} (same : ∀ number ∈ numbers, number = .real share) :
    ∃ total, sum numbers = .ok total ∧ (total = .whole 0 ∨ ∃ value, total = .real value) := by
  have general (rest : List Number) (start : Binary64)
      (same : ∀ number ∈ rest, number = .real share) :
      ∃ value, rest.foldlM add (.real start) = .ok (.real value) := by
    induction rest generalizing start with
    | nil => exact ⟨start, rfl⟩
    | cons number rest ih =>
      rw [List.forall_mem_cons] at same
      obtain rfl := same.1
      exact ih (start.add share) same.2
  cases numbers with
  | nil => exact ⟨.whole 0, rfl, .inl rfl⟩
  | cons number rest =>
    rw [List.forall_mem_cons] at same
    obtain rfl := same.1
    -- The sum starts with the whole number zero, which is converted when the first share is added.
    have small : (0 : Int).natAbs < reach := Binary64.lt_reach_of_short (by decide)
    obtain ⟨zero, known⟩ := exists_wholeToReal_eq_ok.mpr small
    obtain ⟨value, others⟩ := general rest (zero.add share) same.2
    refine ⟨.real value, ?_, .inr ⟨value, rfl⟩⟩
    have first : (Number.whole 0).add (.real share) = .ok (.real (zero.add share)) :=
      bind_eq_ok.mpr ⟨zero, known, rfl⟩
    exact bind_eq_ok.mpr ⟨_, first, others⟩

/-- A value that is a number and not at most zero is not zero. -/
theorem isZero_of_le_zero {value : Binary64} (above : (Number.real value).le (.whole 0) = false) :
    value.isZero = false := by
  cases value with
  | nan => rfl
  | infinite negative => rfl
  | finite negative magnitude =>
    simp only [le, position?, Binary64.position?, Position.before, Int.zero_mul,
      Bool.not_eq_false', decide_eq_true_eq] at above
    -- Without units there is nothing above zero.
    simp only [Binary64.isZero, Binary64.Magnitude.isZero, beq_eq_false_iff_ne]
    intro none
    rw [none] at above
    cases negative with
    | true => exact absurd above (by decide)
    | false => exact absurd above (by decide)

namespace Drawable

variable {number : Number}

/-- No count is far below the bound. -/
theorem mostTrials_lt_reach : mostTrials.natAbs * 2 * 80 < reach := by decide +kernel

/-- Every frequency has a value. -/
theorem exists_toReal (drawable : Drawable numbers) (member : number ∈ numbers) :
    ∃ value, number.toReal = .ok value := by
  cases drawable with
  | counts small =>
    -- A count is no greater than the most trials, and that is below the bound.
    obtain ⟨count, rfl, few⟩ := small number member
    have limit := mostTrials_lt_reach
    exact exists_wholeToReal_eq_ok.mpr (by omega)
  | shares is same =>
    rw [same number member]
    exact ⟨_, rfl⟩

/-- Every frequency has a percentage of the sum. -/
theorem exists_percentage (drawable : Drawable numbers) :
    ∃ total, sum numbers = .ok total ∧
      ∀ number ∈ numbers, ∃ share, Sheet.percentage number total = .ok share := by
  cases drawable with
  | counts small =>
    obtain ⟨total, summed⟩ := sum_counts fun number member => by
      obtain ⟨count, known, -⟩ := small number member
      exact ⟨count, known⟩
    refine ⟨.whole total, summed, ?_⟩
    intro number member
    obtain ⟨count, rfl, few⟩ := small number member
    unfold Sheet.percentage
    by_cases none : total = 0
    · subst none
      exact ⟨_, rfl⟩
    · have limit := mostTrials_lt_reach
      have some : 1 ≤ total.natAbs := by omega
      have scaled := Nat.mul_le_mul_left reach some
      obtain ⟨share, known⟩ :=
        (exists_wholeQuotient_eq_ok none).mpr (show count.natAbs < reach * total.natAbs by omega)
      rw [if_neg (by simpa [isZero] using none)]
      exact ⟨_, bind_eq_ok.mpr ⟨share, known, rfl⟩⟩
  | shares is same =>
    -- The sum may be infinite, and dividing by it still gives a value.
    obtain ⟨total, summed, settled⟩ := sum_shares same
    refine ⟨total, summed, ?_⟩
    intro number member
    rw [same number member]
    rcases settled with rfl | ⟨value, rfl⟩
    · exact ⟨_, rfl⟩
    · unfold Sheet.percentage
      split
      · exact ⟨_, rfl⟩
      · exact ⟨_, rfl⟩

/-- Every frequency has its filled cells. -/
theorem exists_filledCells (drawable : Drawable numbers) (member : number ∈ numbers) :
    ∃ filled, Sheet.filledCells number (greatest numbers) Sheet.barLength = .ok filled := by
  have limit := mostTrials_lt_reach
  cases drawable with
  | counts small =>
    obtain ⟨count, rfl, few⟩ := small number member
    have peak : ∃ most : Int, greatest numbers = .whole most ∧
        most.natAbs ≤ mostTrials.natAbs := by
      rcases greatest_mem numbers with none | among
      · exact ⟨0, none, Nat.zero_le _⟩
      · exact small _ among
    obtain ⟨most, known, bounded⟩ := peak
    rw [known]
    -- Two counts that are not large have a share that is not large either.
    apply Sheet.exists_filledCells (2 * mostTrials.natAbs) (by omega)
    intro above
    rw [le_whole, decide_eq_false_iff_not] at above
    have power : twoTo 52 * mostTrials.natAbs ≤ scale := Binary64.normal_of_short (by decide)
    have normal := Nat.le_trans (Nat.mul_le_mul_left (twoTo 52) bounded) power
    have one : 1 ≤ most.natAbs := by omega
    have scaled := Nat.mul_le_mul_left mostTrials.natAbs one
    show ∃ share, wholeQuotient count most = .ok share ∧ _
    exact exists_wholeQuotient_within (by omega) (by omega) (by omega) normal
  | shares is same =>
    rename_i share place
    rw [same number member]
    -- The peak is the share itself, which fills the whole bar.
    apply Sheet.exists_filledCells 2 (by decide +kernel)
    intro above
    rcases greatest_mem numbers with none | among
    · rw [none] at above
      exact absurd above (by decide +kernel)
    · rw [same _ among] at above ⊢
      exact ⟨share.div share, rfl, is.div_self_within (isZero_of_le_zero above)⟩

end Drawable

end Number

namespace Sheet

/-- A histogram is laid out when its totals can be written and its frequencies drawn. -/
theorem exists_histogramTable {histogram : Histogram} (title : Text)
    (totals : ∀ entry ∈ histogram, Decimal.Writable entry.1)
    (drawable : Number.Drawable (histogram.map Prod.snd)) :
    ∃ table, histogramTable histogram title barLength = .ok table := by
  have moved : (Histogram.sorted histogram).Perm histogram := Sorting.sort_perm _ _
  -- What was drawable stays so when the entries are moved.
  have known (number : Number) :
      number ∈ (Histogram.sorted histogram).map Prod.snd ↔ number ∈ histogram.map Prod.snd :=
    (moved.map Prod.snd).mem_iff
  have sortedDrawable : Number.Drawable ((Histogram.sorted histogram).map Prod.snd) := by
    cases drawable with
    | counts small => exact .counts fun number member => small number ((known number).mp member)
    | shares is same => exact .shares is fun number member => same number ((known number).mp member)
  obtain ⟨sum, summed, percentages⟩ := sortedDrawable.exists_percentage
  have row (entry : Int × Number) (member : entry ∈ Histogram.sorted histogram) :
      ∃ cells, histogramRow sum (Number.greatest ((Histogram.sorted histogram).map Prod.snd))
        barLength entry = .ok cells := by
    have frequency : entry.2 ∈ (Histogram.sorted histogram).map Prod.snd :=
      List.mem_map_of_mem member
    obtain ⟨share, percent⟩ := percentages entry.2 frequency
    have total : Decimal.write entry.1 = .ok (Decimal.wholeText entry.1) :=
      if_pos (totals entry (moved.mem_iff.mp member))
    obtain ⟨value, real⟩ := sortedDrawable.exists_toReal frequency
    obtain ⟨drawn, bar⟩ := exists_bar "blue" (sortedDrawable.exists_filledCells frequency)
    exact ⟨_, bind_eq_ok.mpr ⟨share, percent, bind_eq_ok.mpr ⟨_, total,
      bind_eq_ok.mpr ⟨value, real, bind_eq_ok.mpr ⟨drawn, bar, rfl⟩⟩⟩⟩⟩
  obtain ⟨rows, walked⟩ := exists_mapM_eq_ok _ row
  exact ⟨_, bind_eq_ok.mpr ⟨sum, summed, bind_eq_ok.mpr ⟨rows, walked, rfl⟩⟩⟩

end Sheet

end DiceLab
