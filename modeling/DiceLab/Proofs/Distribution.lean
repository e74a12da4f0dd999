import DiceLab.Distribution
import DiceLab.Proofs.Formula.Size
import DiceLab.Proofs.Range
import DiceLab.Proofs.Returns
import Mathlib.Data.List.Nodup
import Mathlib.Data.List.Sort

/-! The exact histogram of a lone numeric die, against what its rolls give. -/

namespace DiceLab

namespace Face

/-- The values of a face are the whole numbers from its smallest to its largest. -/
theorem mem_values {face : Face} {value : Int} :
    value ∈ face.values ↔ face.low ≤ value ∧ value ≤ face.high := by
  have order := face.low_le_high
  simp only [values, List.mem_map, List.mem_range, count]
  constructor
  · rintro ⟨step, inside, rfl⟩
    omega
  · rintro ⟨above, below⟩
    -- The values are counted from the lowest one on.
    exact ⟨(value - face.low).toNat, by omega, by omega⟩

/-- A face has each of its values once. -/
theorem nodup_values (face : Face) : face.values.Nodup :=
  List.Nodup.map (fun _ _ same => by omega) List.nodup_range

/-- A face has as many values as it counts. -/
theorem length_values (face : Face) : face.values.length = face.count := by
  rw [values, List.length_map, List.length_range]

end Face

namespace Formula

/-- A formula whose dice are one numeric die, under one term. -/
def IsLone (formula : Formula) (term : Term) : Prop :=
  formula.terms = [term] ∧ term.count = 1 ∧ term.face.isFudge = false

section Totals

variable {die : Die} {modifier total : Int}

/-- The totals of a lone die are those that its values give. -/
theorem mem_singleTotals :
    total ∈ singleTotals die modifier ↔
      ∃ value, (die.face.low ≤ value ∧ value ≤ die.face.high) ∧
        modifier + die.sign.factor * value = total := by
  simp only [singleTotals, List.mem_mergeSort, List.mem_map, Face.mem_values, Int.add_comm modifier]

/-- The totals of a lone die ascend. -/
theorem singleTotals_pairwise (die : Die) (modifier : Int) :
    (singleTotals die modifier).Pairwise (· < ·) := by
  have ordered : (singleTotals die modifier).Pairwise (· ≤ ·) :=
    List.pairwise_mergeSort' (· ≤ ·) _
  -- A sign is its own inverse, so that no two values give one total.
  have apart : (singleTotals die modifier).Nodup := by
    refine (List.mergeSort_perm _ _).nodup_iff.mpr (List.Nodup.map ?_ die.face.nodup_values)
    intro first second same
    cases sign : die.sign with
    | plus =>
      simp only [sign, Sign.factor] at same
      omega
    | minus =>
      simp only [sign, Sign.factor] at same
      omega
  exact (ordered.and apart).imp fun both => by omega

/-- A lone die has as many totals as values. -/
theorem length_singleTotals (die : Die) (modifier : Int) :
    (singleTotals die modifier).length = die.face.count := by
  rw [singleTotals, List.length_mergeSort, List.length_map, Face.length_values]

/-- The totals of a lone die are those from its least to its most. -/
theorem mem_singleTotals_iff :
    total ∈ singleTotals die modifier ↔
      modifier + die.least ≤ total ∧ total ≤ modifier + die.most := by
  rw [mem_singleTotals]
  -- A minus turns the ends of the face around.
  cases sign : die.sign with
  | plus =>
    simp only [Die.least, Die.most, sign, Sign.factor]
    constructor
    · rintro ⟨value, within, rfl⟩
      omega
    · rintro ⟨above, below⟩
      exact ⟨total - modifier, by omega, by omega⟩
  | minus =>
    simp only [Die.least, Die.most, sign, Sign.factor]
    constructor
    · rintro ⟨value, within, rfl⟩
      omega
    · rintro ⟨above, below⟩
      exact ⟨modifier - total, by omega, by omega⟩

end Totals

variable {σ : Type} {formula : Formula} {term : Term}

/-- A formula is a lone die when it is known to be one. -/
theorem singleDie?_eq_some_iff {die : Die} :
    formula.singleDie? = some die ↔ ∃ term, formula.IsLone term ∧ die = ⟨term.sign, term.face⟩ := by
  unfold singleDie? IsLone
  split
  · rename_i only terms
    simp only [terms, List.cons.injEq, and_true]
    constructor
    · intro known
      -- A single term is a lone die when it has one die with a number of sides.
      split at known
      · rename_i numeric
        refine ⟨only, ⟨rfl, numeric.1, by simpa using numeric.2⟩, (Option.some.inj known).symm⟩
      · cases known
    · rintro ⟨_, ⟨rfl, one, numeric⟩, rfl⟩
      rw [if_pos ⟨one, by simpa using numeric⟩]
  · -- With no terms, or with more than one, there is no lone die.
    rename_i several
    constructor
    · intro none
      cases none
    · rintro ⟨term, ⟨terms, -⟩, -⟩
      exact absurd terms (several term)

/-- The test for a lone die tells lone dice from all others. -/
theorem isSingleDie_iff : formula.isSingleDie = true ↔ ∃ term, formula.IsLone term := by
  rw [isSingleDie, Option.isSome_iff_exists]
  simp only [singleDie?_eq_some_iff]
  constructor
  · rintro ⟨_, term, lone, -⟩
    exact ⟨term, lone⟩
  · rintro ⟨term, lone⟩
    exact ⟨_, term, lone, rfl⟩

namespace IsLone

/-- Its dice are the one die. -/
theorem dice_eq (lone : formula.IsLone term) : formula.dice = [⟨term.sign, term.face⟩] := by
  obtain ⟨terms, one, -⟩ := lone
  rw [dice, terms, List.flatMap_singleton, Term.dice, one]
  rfl

/-- A roll adds the one value that is drawn to the modifier. -/
theorem total_eq (lone : formula.IsLone term) (draw : Face → σ → Int × σ) (state : σ) :
    (formula.roll draw state).1.total =
      formula.modifier + term.sign.factor * (draw term.face state).1 := by
  rw [roll_eq, lone.dice_eq]
  simp [throwEach, Throw.signed]

/-- A roll makes one draw, between the smallest and the largest value. -/
theorem draws_eq (lone : formula.IsLone term) (source : Source σ) (state : σ)
    (log : List (Int × Int)) :
    (formula.roll source.logged.draw (state, log)).2.2 =
      log ++ [(term.face.low, term.face.high)] := by
  rw [roll_eq, lone.dice_eq, throwEach_logged]
  rfl

end IsLone

/-- A lone die has one share of the weight under each of its totals. -/
theorem exactDistribution_of_lone (lone : formula.IsLone term) {weight : Int}
    {histogram : Histogram} :
    formula.exactDistribution (.whole weight) = .ok histogram ↔
      ∃ share, wholeQuotient weight term.face.count = .ok share ∧
        histogram = (singleTotals ⟨term.sign, term.face⟩ formula.modifier).map
          fun total => (total, .real share) := by
  -- The lone die is found, and its share of the weight is the only thing that can be missing.
  have known := singleDie?_eq_some_iff.mpr ⟨term, lone, rfl⟩
  simp only [exactDistribution, known, Number.div, bind_eq_ok]
  constructor
  · rintro ⟨share, divided, made⟩
    exact ⟨share, divided, (Except.ok.inj made).symm⟩
  · rintro ⟨share, divided, rfl⟩
    exact ⟨share, divided, rfl⟩

/-- Without a lone die there is no exact histogram. -/
theorem exactDistribution_of_several (several : ¬∃ term, formula.IsLone term) (weight : Number) :
    formula.exactDistribution weight = .ok [] := by
  have none : formula.singleDie? = none := by
    rw [← Option.not_isSome_iff_eq_none]
    exact fun single => several (isSingleDie_iff.mp single)
  rw [exactDistribution, none]

/-- The exact histogram of a lone die is never empty. -/
theorem exactDistribution_ne_nil_iff {weight : Int} {histogram : Histogram}
    (exact : formula.exactDistribution (.whole weight) = .ok histogram) :
    histogram ≠ [] ↔ ∃ term, formula.IsLone term := by
  constructor
  · intro some
    by_contra several
    rw [exactDistribution_of_several several] at exact
    exact some (Except.ok.inj exact).symm
  · rintro ⟨term, lone⟩
    obtain ⟨share, -, rfl⟩ := (exactDistribution_of_lone lone).mp exact
    -- There is a total for each value, and a face has one at least.
    have some : 0 < (singleTotals ⟨term.sign, term.face⟩ formula.modifier).length := by
      rw [length_singleTotals]
      exact term.face.count_pos
    rw [ne_eq, List.map_eq_nil_iff]
    exact List.ne_nil_of_length_pos some

/-- The totals that bounded sources can give are those from the smallest to the largest. -/
theorem gives_iff (formula : Formula) (total : Int) :
    formula.Gives total ↔ formula.min ≤ total ∧ total ≤ formula.max := by
  constructor
  · rintro ⟨σ, source, state, bounded, rfl⟩
    exact roll_between bounded formula state
  · rintro ⟨least, most⟩
    -- Each total in the range comes from dice that are scripted for it.
    obtain ⟨numbers, rolled⟩ := exists_script formula least most
    exact ⟨Dice, Source.dice, Dice.ofScript numbers, Source.dice_bounded, rolled⟩

/--
What the exact histogram of a lone die says.

The statistics, the rolls and the histogram tell of the same totals.
-/
structure Describes (formula : Formula) (term : Term) (stats : Stats) (weight : Int)
    (histogram : Histogram) : Prop where
  /-- No total has two entries, and the entries ascend. -/
  ascending : (histogram.map Prod.fst).Pairwise (· < ·)
  /-- The totals are the whole numbers from the smallest to the largest of the statistics. -/
  between : ∀ total, total ∈ histogram.map Prod.fst ↔ stats.min ≤ total ∧ total ≤ stats.max
  /-- The totals are those that rolls can give. -/
  given : ∀ total, total ∈ histogram.map Prod.fst ↔ formula.Gives total
  /-- A roll makes a single draw, between the ends of the face. -/
  single : ∀ {σ : Type} (source : Source σ) (state : σ) (log : List (Int × Int)),
    (formula.roll source.logged.draw (state, log)).2.2 = log ++ [(term.face.low, term.face.high)]
  /-- Each total is given by exactly one value that can be drawn. -/
  drawn : ∀ total ∈ histogram.map Prod.fst, ∃ value,
    (term.face.low ≤ value ∧ value ≤ term.face.high) ∧
      ∀ {σ : Type} (source : Source σ) (state : σ),
        (formula.roll source.draw state).1.total = total ↔ (source.draw term.face state).1 = value
  /-- There are as many entries as the face has values. -/
  count : histogram.length = term.face.count
  /-- Every total has the weight divided by the number of values. -/
  shares : ∃ share, wholeQuotient weight term.face.count = .ok share ∧
    ∀ entry ∈ histogram, entry.2 = .real share

/-- The exact histogram of a lone die says what the statistics and the rolls say. -/
theorem IsLone.describes (lone : formula.IsLone term) {stats : Stats}
    (ok : formula.stats = .ok stats) {weight : Int} {histogram : Histogram}
    (exact : formula.exactDistribution (.whole weight) = .ok histogram) :
    formula.Describes term stats weight histogram := by
  obtain ⟨share, divided, rfl⟩ := (exactDistribution_of_lone lone).mp exact
  obtain ⟨least, most⟩ := bounds_of_stats ok
  have totals : ((singleTotals ⟨term.sign, term.face⟩ formula.modifier).map
      fun total => (total, Number.real share)).map Prod.fst =
        singleTotals ⟨term.sign, term.face⟩ formula.modifier := by
    rw [List.map_map]
    exact List.map_id _
  -- With one die the ends of the range are those of its values.
  have between (total : Int) : total ∈ singleTotals ⟨term.sign, term.face⟩ formula.modifier ↔
      formula.min ≤ total ∧ total ≤ formula.max := by
    rw [mem_singleTotals_iff, min_eq, max_eq, lone.dice_eq]
    simp
  refine
    { ascending := by rw [totals]; exact singleTotals_pairwise _ _
      between := fun total => by rw [totals, least, most, between]
      given := fun total => by rw [totals, gives_iff, between]
      single := lone.draws_eq
      drawn := ?_
      count := by rw [List.length_map, length_singleTotals]
      shares := ⟨share, divided, ?_⟩ }
  · intro total member
    rw [totals, mem_singleTotals] at member
    obtain ⟨value, within, rfl⟩ := member
    refine ⟨value, within, ?_⟩
    intro σ source state
    rw [lone.total_eq]
    -- A sign is its own inverse, so the value behind a total is known from it.
    cases sign : term.sign with
    | plus =>
      simp only [Sign.factor]
      omega
    | minus =>
      simp only [Sign.factor]
      omega
  · intro entry member
    obtain ⟨total, -, rfl⟩ := List.mem_map.mp member
    rfl

/-- Whole runs are the weight of the exact histogram. -/
theorem exactFor_whole (formula : Formula) (runs : Int) :
    formula.exactFor (.whole runs) = formula.exactDistribution (.whole runs) := by
  rw [exactFor]
  split
  · rfl
  · rename_i several
    -- For several dice there is no distribution, and none is asked for.
    rw [exactDistribution_of_several fun single => several (isSingleDie_iff.mpr single)]

/-- Without a lone die there is no exact histogram, whatever the runs are. -/
theorem exactFor_of_several (several : ¬∃ term, formula.IsLone term) (runs : Value) :
    formula.exactFor runs = .ok [] :=
  if_neg fun single => several (isSingleDie_iff.mp single)

end Formula

section Shown

variable {σ : Type} {reading : Reading} {term : Term}

/-- An exact histogram with anything in it is shown as it is, and nothing is rolled. -/
theorem distributionFrom_of_lone (lone : reading.formula.IsLone term) {weight : Int}
    {histogram : Histogram}
    (exact : reading.formula.exactDistribution (.whole weight) = .ok histogram)
    (draw : Face → σ → Int × σ) (state : σ) :
    distributionFrom draw reading (.whole weight) state = (⟨[], .ok histogram⟩, state) := by
  -- The distribution of a lone die is never empty, so no rolls are asked for.
  have some := (Formula.exactDistribution_ne_nil_iff exact).mpr ⟨term, lone⟩
  rw [distributionFrom, Formula.exactFor_whole, exact, Session.lift_ok_bind,
    if_neg (by simpa using some)]
  rfl

/-- Without a lone die the histogram is that of a batch of rolls. -/
theorem distributionFrom_of_several (several : ¬∃ term, reading.formula.IsLone term)
    (draw : Face → σ → Int × σ) (runs : Value) :
    distributionFrom draw reading runs =
      (do return Histogram.ofCounts (← batchFrom draw (.reading reading) runs)) := by
  rw [distributionFrom, Formula.exactFor_of_several several, Session.lift_ok_bind,
    if_pos List.isEmpty_nil]

/--
The histogram of a formula is exact for lone dice and for nothing else.

For a lone die it says what the statistics and the rolls say, and it is shown without a draw; for
anything else the rolls are made.
-/
theorem exact_describes {stats : Stats} (ok : reading.formula.stats = .ok stats) {weight : Int}
    {histogram : Histogram}
    (exact : reading.formula.exactDistribution (.whole weight) = .ok histogram) :
    (histogram ≠ [] ↔ ∃ term, reading.formula.IsLone term) ∧
      (∀ term, reading.formula.IsLone term →
        reading.formula.Describes term stats weight histogram ∧
          ∀ {σ : Type} (source : Source σ) (state : σ),
            distributionFrom source.draw reading (.whole weight) state =
              (⟨[], .ok histogram⟩, state)) ∧
      ((¬∃ term, reading.formula.IsLone term) → ∀ {σ : Type} (source : Source σ) (runs : Value),
        distributionFrom source.draw reading runs =
          (do return Histogram.ofCounts (← batchFrom source.draw (.reading reading) runs))) := by
  refine ⟨Formula.exactDistribution_ne_nil_iff exact, ?_, ?_⟩
  · intro term lone
    exact ⟨lone.describes ok exact, fun source => distributionFrom_of_lone lone exact source.draw⟩
  · intro several σ source
    exact distributionFrom_of_several several source.draw

/-- Ten runs of a subtracted die of four sides are shared by the totals from minus two to one. -/
theorem exact_describes_subtracted :
    let subtracted : Reading := ⟨⟨[⟨.minus, 1, .numeric 4 (by decide), by decide⟩], 2⟩, []⟩
    let stats : Stats := ⟨-2, 1, .ofRatio true 1 2⟩
    let share : Number := .real (.ofRatio false 5 2)
    let histogram : Histogram := [(-2, share), (-1, share), (0, share), (1, share)]
    subtracted.formula.stats = .ok stats ∧
      subtracted.formula.exactDistribution (.whole 10) = .ok histogram ∧
        ∃ term, subtracted.formula.Describes term stats 10 histogram ∧
          distribution subtracted (.whole 10) .standard = (⟨[], .ok histogram⟩, .standard) := by
  intro subtracted stats share histogram
  have lone : subtracted.formula.IsLone ⟨.minus, 1, .numeric 4 (by decide), by decide⟩ :=
    ⟨rfl, rfl, rfl⟩
  have ok : subtracted.formula.stats = .ok stats := by decide +kernel
  -- The sort does not unfold by itself, so the totals are recognized by their order.
  have totals : Formula.singleTotals ⟨.minus, .numeric 4 (by decide)⟩ 2 = [-2, -1, 0, 1] :=
    ((List.mergeSort_perm _ _).trans (by decide)).eq_of_pairwise
      (fun _ _ _ _ below above => by omega) (Formula.singleTotals_pairwise _ _) (by decide)
  have exact : subtracted.formula.exactDistribution (.whole 10) = .ok histogram :=
    (Formula.exactDistribution_of_lone lone).mpr
      ⟨.ofRatio false 5 2, by decide +kernel, by rw [totals]; rfl⟩
  obtain ⟨-, described, -⟩ := exact_describes ok exact
  obtain ⟨agreed, shown⟩ := described _ lone
  exact ⟨ok, exact, _, agreed, shown Source.dice _⟩

end Shown

end DiceLab
