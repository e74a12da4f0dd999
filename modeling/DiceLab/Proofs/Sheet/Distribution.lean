import DiceLab.Proofs.Distribution
import DiceLab.Proofs.Generator.Room
import DiceLab.Proofs.Sheet.Histogram
import DiceLab.Sheet.Distribution

/-! The distribution of a formula that is not large is always shown. -/

namespace DiceLab

open Binary64 (reach scale)
open Generator (roomyDigits)

namespace Formula

variable {σ : Type} {formula : Formula}

/-- The totals of all rolls lie between the smallest and the largest. -/
theorem rollMany_between {source : Source σ} (bounded : source.Bounded) (formula : Formula)
    (rolls : Nat) (state : σ) :
    ∀ outcome ∈ (formula.rollMany source.draw rolls state).1,
      formula.min ≤ outcome.total ∧ outcome.total ≤ formula.max := by
  -- Each roll starts from the state that the one before it left.
  induction rolls generalizing state with
  | zero => simp [rollMany]
  | succ rolls ih =>
    intro outcome member
    rcases List.mem_cons.mp member with rfl | later
    · exact roll_between bounded formula state
    · exact ih _ outcome later

/-- The counts of rolls can be shown under their totals. -/
theorem drawable_rollHistogram {source : Source σ} (bounded : source.Bounded)
    (short : formula.size < tenTo Decimal.digitLimit) {trials : Int} {state last : σ}
    {counts : List (Int × Nat)}
    (rolled : formula.rollHistogram source.draw (rollsFor trials) state = (counts, last)) :
    (∀ entry ∈ Histogram.ofCounts counts, Decimal.Writable entry.1) ∧
      Number.Drawable ((Histogram.ofCounts counts).map Prod.snd) := by
  have tally := formula.rollHistogram_isTally source.draw (rollsFor trials) state
  rw [rolled] at tally
  have ends := formula.natAbs_bounds_le
  constructor
  · intro entry member
    obtain ⟨⟨total, count⟩, inside, rfl⟩ := List.mem_map.mp member
    obtain ⟨counted, positive⟩ := (tally.counted total count).mp inside
    -- A total that is counted was rolled.
    rw [counted, List.count_pos_iff, List.mem_map] at positive
    obtain ⟨outcome, among, rfl⟩ := positive
    obtain ⟨low, high⟩ := rollMany_between bounded formula (rollsFor trials) state outcome among
    show outcome.total.natAbs < tenTo Decimal.digitLimit
    omega
  · apply Number.Drawable.counts
    intro number member
    obtain ⟨_, among, rfl⟩ := List.mem_map.mp member
    obtain ⟨⟨total, count⟩, inside, rfl⟩ := List.mem_map.mp among
    refine ⟨count, rfl, ?_⟩
    have counted := ((tally.counted total count).mp inside).1
    -- No total occurs more often than there are rolls.
    have few : ((formula.rollMany source.draw (rollsFor trials) state).1.map
        Outcome.total).count total ≤ _ := List.count_le_length
    rw [← counted, List.length_map, length_rollMany] at few
    have order : 0 ≤ mostTrials := by decide
    unfold rollsFor at few
    omega

/-- The totals of a lone die are no farther from zero than its values and the modifier. -/
theorem natAbs_singleTotals_le {die : Die} {modifier total : Int}
    (member : total ∈ singleTotals die modifier) :
    total.natAbs ≤ die.face.count + modifier.natAbs := by
  obtain ⟨value, ⟨above, below⟩, rfl⟩ := mem_singleTotals.mp member
  obtain ⟨low, high⟩ := die.face.natAbs_le_count
  -- Either sign leaves the value of the die as far from zero.
  cases die.sign with
  | plus =>
    simp only [Sign.factor]
    omega
  | minus =>
    simp only [Sign.factor]
    omega

/-- The weight of a lone die is shared out among its totals. -/
theorem exists_exactDistribution (short : formula.size < tenTo roomyDigits) {runs : Int}
    (few : runs.natAbs ≤ mostTrials.natAbs) :
    ∃ histogram, formula.exactDistribution (.whole runs) = .ok histogram ∧
      (∀ entry ∈ histogram, Decimal.Writable entry.1) ∧
        Number.Drawable (histogram.map Prod.snd) := by
  unfold exactDistribution
  cases single : formula.singleDie? with
  -- Without a lone die the histogram is empty, and there is nothing to show.
  | none =>
    refine ⟨[], rfl, by simp, ?_⟩
    exact .counts (by simp)
  | some die =>
    obtain ⟨term, lone, rfl⟩ := singleDie?_eq_some_iff.mp single
    have inside : term ∈ formula.terms := lone.1 ▸ List.mem_singleton_self term
    have values := (le_size inside).2
    have positive := term.face.count_pos
    have modifier : formula.modifier.natAbs ≤ formula.size := Nat.le_add_right _ _
    have limit : mostTrials.natAbs < reach := Binary64.lt_reach_of_short (by decide)
    -- The face has few enough values that no share of the runs becomes subnormal.
    have normal : twoTo 52 * term.face.count ≤ scale := by
      have power : twoTo 52 * tenTo roomyDigits ≤ scale := by decide +kernel
      have below : term.face.count ≤ tenTo roomyDigits := by omega
      exact Nat.le_trans (Nat.mul_le_mul_left _ below) power
    have scaled := Nat.mul_le_mul_left mostTrials.natAbs positive
    obtain ⟨share, known, number, is, -⟩ : ∃ share,
        wholeQuotient runs (term.face.count : Int) = .ok share ∧
          share.Within (2 * mostTrials.natAbs) :=
      exists_wholeQuotient_within (by omega) (by rw [Int.natAbs_natCast]; omega) limit
        (by rwa [Int.natAbs_natCast])
    refine ⟨_, bind_eq_ok.mpr ⟨share, known, rfl⟩, ?_, ?_⟩
    · intro entry member
      obtain ⟨total, among, rfl⟩ := List.mem_map.mp member
      have near := natAbs_singleTotals_le among
      dsimp only at near
      exact Generator.writable_of_roomy (by dsimp only; omega)
    · apply Number.Drawable.shares is
      intro frequency member
      obtain ⟨_, among, rfl⟩ := List.mem_map.mp member
      obtain ⟨total, -, rfl⟩ := List.mem_map.mp among
      rfl

end Formula

/-- The distribution of a formula that is not large comes out and can be shown, unless a lone die has
too many runs to share out. -/
theorem exists_distributionFrom {σ : Type} {source : Source σ} (bounded : source.Bounded)
    {reading : Reading} (short : reading.formula.size < tenTo roomyDigits) {runs : Int}
    (counted : Decimal.Writable runs)
    (few : (∃ term, reading.formula.IsLone term) → runs.natAbs ≤ mostTrials.natAbs) (state : σ) :
    ∃ histogram last, (distributionFrom source.draw reading (.whole runs)).Ends state histogram last ∧
      (∀ entry ∈ histogram, Decimal.Writable entry.1) ∧
        Number.Drawable (histogram.map Prod.snd) := by
  by_cases single : ∃ term, reading.formula.IsLone term
  · -- A lone die is not rolled: its runs are shared out.
    obtain ⟨histogram, known, shown⟩ := reading.formula.exists_exactDistribution short (few single)
    obtain ⟨term, lone⟩ := single
    have exact := distributionFrom_of_lone lone known source.draw state
    exact ⟨histogram, state, ⟨congrArg (·.1.result) exact, congrArg Prod.snd exact⟩, shown⟩
  · rw [distributionFrom_of_several single]
    -- Any other formula is rolled, and its totals are counted.
    obtain ⟨⟨counts, last⟩, rolled⟩ : ∃ result, reading.formula.rollHistogram source.draw
        (rollsFor runs) state = result := ⟨_, rfl⟩
    have ends := batchFrom_ends.mpr ⟨Formula.writable_of_roomy short, counted, rolled⟩
    refine ⟨Histogram.ofCounts counts, last, Session.bind_ends.mpr ⟨counts, last, ends,
      Session.pure_ends.mpr ⟨rfl, rfl⟩⟩, ?_⟩
    exact Formula.drawable_rollHistogram bounded
      (Nat.lt_of_lt_of_le short Generator.tenTo_roomyDigits_le) rolled

namespace Sheet

/-- The title of a distribution comes out when the formula and the runs can be written. -/
theorem returns_distributionTitle (wording : Wording) {formula : Formula}
    (writable : formula.Writable) {runs : Int} (counted : Decimal.Writable runs) :
    (distributionTitle formula (.whole runs) wording).Returns := by
  apply (Reported.returns_lift ⟨_, Formula.text_eq_ok.mpr ⟨writable, rfl⟩⟩).bind
  intro text _
  -- A lone die is given without its runs, which are only written for the others.
  split
  · exact wording.returns_text _ (by simp)
  · have written : Decimal.write runs = .ok (Decimal.wholeText runs) := if_pos counted
    apply wording.catalog.returns_render
    simp [Value.shown, Value.quoted, written]

/-- A histogram that was found is shown below its title when its totals and frequencies can be laid
out. -/
theorem returns_showDistributionFrom_of_found {σ : Type} {draw : Face → σ → Int × σ} {draft : Draft}
    {reading : Reading} (read : draft.read.result = .ok reading) {runs : Value} {wording : Wording}
    (titled : (distributionTitle reading.formula runs wording).Returns) {state last : σ}
    {histogram : Histogram} (found : (distributionFrom draw reading runs).Ends state histogram last)
    (totals : ∀ entry ∈ histogram, Decimal.Writable entry.1)
    (drawable : Number.Drawable (histogram.map Prod.snd)) :
    (showDistributionFrom draw draft runs wording).Returns state := by
  apply Session.lift_known_bind read
  apply Session.lift_bind titled
  intro title _
  apply found.bind
  -- Whatever the title is, the rows below it are the same.
  obtain ⟨table, laid⟩ := exists_histogramTable title totals drawable
  apply Session.lift_result_bind laid
  apply Session.lift_bind (Reported.returns_note _)
  intro _ _
  exact Session.returns_pure _ _

/-- The distribution of a formula that is not large is shown, unless a lone die has too many runs to
share out. -/
theorem returns_showDistributionFrom {σ : Type} {source : Source σ} (bounded : source.Bounded)
    (wording : Wording) {reading : Reading} (short : reading.formula.size < tenTo roomyDigits)
    {runs : Int} (counted : Decimal.Writable runs)
    (few : (∃ term, reading.formula.IsLone term) → runs.natAbs ≤ mostTrials.natAbs) (state : σ) :
    (showDistributionFrom source.draw (.reading reading) (.whole runs) wording).Returns state := by
  have titled := returns_distributionTitle wording (Formula.writable_of_roomy short) counted
  obtain ⟨histogram, last, found, totals, drawable⟩ :=
    exists_distributionFrom bounded short counted few state
  exact returns_showDistributionFrom_of_found rfl titled found totals drawable

/-- The distribution of a formula that is not large is shown. -/
theorem returns_showDistribution (wording : Wording) {reading : Reading}
    (short : reading.formula.size < tenTo roomyDigits) {runs : Int}
    (few : runs.natAbs ≤ mostTrials.natAbs) (state : Dice) :
    (showDistribution (.reading reading) (.whole runs) wording).Returns state := by
  have most : mostTrials.natAbs < tenTo Decimal.digitLimit := by decide +kernel
  exact returns_showDistributionFrom Source.dice_bounded wording short (Nat.lt_of_le_of_lt few most)
    (fun _ => few) state

end Sheet

end DiceLab
