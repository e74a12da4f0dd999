import DiceLab.Distribution
import DiceLab.Proofs.Report
import DiceLab.Proofs.Roll
import DiceLab.Stats

/-! The totals that a formula can give are the whole numbers of its range, and no others. -/

namespace DiceLab

namespace Die

/-- The least that a die adds to a total. -/
def least (die : Die) : Int :=
  match die.sign with
  | .plus => die.face.low
  | .minus => -die.face.high

/-- The most that a die adds to a total. -/
def most (die : Die) : Int :=
  match die.sign with
  | .plus => die.face.high
  | .minus => -die.face.low

/-- The least is not above the most. -/
theorem least_le_most (die : Die) : die.least ≤ die.most := by
  have order := die.face.low_le_high
  simp only [least, most]
  split
  · exact order
  · -- A minus turns the order around, and the ends of the face with it.
    omega

end Die

namespace Throw

/-- A throw shows a value of its face. -/
def Within (thrown : Throw) : Prop :=
  thrown.die.face.low ≤ thrown.value ∧ thrown.value ≤ thrown.die.face.high

/-- A throw within its face adds no less than the least and no more than the most. -/
theorem Within.signed {thrown : Throw} (within : thrown.Within) :
    thrown.die.least ≤ thrown.signed ∧ thrown.signed ≤ thrown.die.most := by
  obtain ⟨⟨sign, face⟩, value⟩ := thrown
  obtain ⟨low, high⟩ := within
  -- The factor is one or its negative, which leaves the order or turns it around.
  cases sign with
  | plus =>
    simp only [Throw.signed, Die.least, Die.most, Sign.factor, Int.one_mul]
    exact ⟨low, high⟩
  | minus =>
    simp only [Throw.signed, Die.least, Die.most, Sign.factor] at low high ⊢
    omega

/-- Whatever lies between the least and the most is added by some throw of the die. -/
theorem exists_signed (die : Die) {value : Int} (least : die.least ≤ value)
    (most : value ≤ die.most) :
    ∃ thrown : Throw, thrown.die = die ∧ thrown.Within ∧ thrown.signed = value := by
  -- A sign is its own inverse, so the value behind it is the signed one.
  refine ⟨⟨die, die.sign.factor * value⟩, rfl, ?_⟩
  obtain ⟨sign, face⟩ := die
  cases sign with
  | plus =>
    simp only [Die.least, Die.most, Within, Throw.signed, Sign.factor] at *
    omega
  | minus =>
    simp only [Die.least, Die.most, Within, Throw.signed, Sign.factor] at *
    omega

end Throw

/-- Throws of bounded draws show values of their faces. -/
theorem throwEach_within {σ : Type} {source : Source σ} (bounded : source.Bounded)
    (dice : List Die) (state : σ) :
    ∀ thrown ∈ (throwEach source.draw dice state).1, thrown.Within := by
  -- Whatever state the earlier dice leave behind, the next draw keeps to its bounds.
  induction dice generalizing state with
  | nil => simp [throwEach]
  | cons die rest ih =>
    simp only [throwEach, List.mem_cons, forall_eq_or_imp]
    exact ⟨bounded.draw die.face state, ih _⟩

/-- Throws within their faces total no less than the least of their dice, and no more than the
most. -/
theorem total_between {throws : List Throw} (within : ∀ thrown ∈ throws, thrown.Within) :
    wholeTotal ((throws.map Throw.die).map Die.least) ≤ wholeTotal (throws.map Throw.signed) ∧
      wholeTotal (throws.map Throw.signed) ≤ wholeTotal ((throws.map Throw.die).map Die.most) := by
  induction throws with
  | nil => simp
  | cons thrown rest ih =>
    -- The bounds of the first throw and of the others add up.
    simp only [List.mem_cons, forall_eq_or_imp] at within
    have first := within.1.signed
    have others := ih within.2
    simp only [List.map_cons, wholeTotal_cons]
    omega

/-- The least that some dice add is not above the most. -/
theorem total_least_le_most (dice : List Die) :
    wholeTotal (dice.map Die.least) ≤ wholeTotal (dice.map Die.most) := by
  induction dice with
  | nil => simp
  | cons die rest ih =>
    -- Each die shows no less at its best than at its worst, and so do they together.
    have first := die.least_le_most
    simp only [List.map_cons, wholeTotal_cons]
    omega

/-- Every total between the least and the most of some dice is given by throws of them. -/
theorem exists_throws (dice : List Die) {total : Int}
    (least : wholeTotal (dice.map Die.least) ≤ total)
    (most : total ≤ wholeTotal (dice.map Die.most)) :
    ∃ throws : List Throw, throws.map Throw.die = dice ∧ (∀ thrown ∈ throws, thrown.Within) ∧
      wholeTotal (throws.map Throw.signed) = total := by
  induction dice generalizing total with
  | nil =>
    -- Without dice the two bounds meet at zero.
    simp only [List.map_nil, wholeTotal_nil] at least most
    exact ⟨[], rfl, by simp, by simp; omega⟩
  | cons die rest ih =>
    simp only [List.map_cons, wholeTotal_cons] at least most
    have order := die.least_le_most
    have others := total_least_le_most rest
    -- The first die takes as little as the other dice leave to it.
    obtain ⟨value, above, below, left, right⟩ : ∃ value, die.least ≤ value ∧ value ≤ die.most ∧
        wholeTotal (rest.map Die.least) ≤ total - value ∧
        total - value ≤ wholeTotal (rest.map Die.most) := by
      refine ⟨max die.least (total - wholeTotal (rest.map Die.most)), ?_⟩
      omega
    obtain ⟨thrown, same, within, signed⟩ := Throw.exists_signed die above below
    obtain ⟨throws, others, allWithin, sum⟩ := ih left right
    refine ⟨thrown :: throws, by simp [same, others], by simpa using ⟨within, allWithin⟩, ?_⟩
    simp only [List.map_cons, wholeTotal_cons, signed, sum]
    omega

/-- The numbers that make scripted dice show some throws. -/
def scriptOf (throws : List Throw) : List Nat :=
  throws.map fun thrown => (thrown.value - thrown.die.face.low).toNat

/-- Scripted dice show the throws that their numbers were made from. -/
theorem throwEach_script {throws : List Throw} (within : ∀ thrown ∈ throws, thrown.Within)
    {numbers : Array Nat} {drawn : Nat} (behind : numbers.toList.drop drawn = scriptOf throws) :
    (throwEach Dice.draw (throws.map Throw.die) ⟨.script numbers, drawn⟩).1 = throws := by
  -- Every draw takes one number, so the numbers behind the position drawn stay to be read.
  induction throws generalizing drawn with
  | nil => rfl
  | cons thrown rest ih =>
    simp only [List.mem_cons, forall_eq_or_imp] at within
    obtain ⟨⟨low, high⟩, others⟩ := within
    have later : numbers.toList.drop (drawn + 1) = scriptOf rest := by
      rw [← List.tail_drop, behind]
      rfl
    -- The number behind a value of the face is one of the face, and gives the value back.
    have small : (thrown.value - thrown.die.face.low).toNat < thrown.die.face.count := by
      rw [Face.count]
      omega
    have value : thrown.die.face.low + (thrown.value - thrown.die.face.low).toNat =
        thrown.value := by omega
    rw [List.map_cons, throwEach, Dice.draw_script behind small, value]
    simp only [ih others later]

/-- The range of a term is that of one of its dice, as often as there are dice. -/
theorem Term.range_eq (term : Term) :
    term.range = (term.count * Die.least ⟨term.sign, term.face⟩,
      term.count * Die.most ⟨term.sign, term.face⟩) := by
  simp only [Term.range, Die.least, Die.most]
  -- Only dice that are taken away swap the ends of their face.
  cases term.sign with
  | plus => rfl
  | minus => simp only [Int.mul_neg]

namespace Formula

/-- What all dice of a formula add up to is what each term has one die add, times its count. -/
theorem total_dice (formula : Formula) (part : Die → Int) :
    wholeTotal (formula.dice.map part) =
      wholeTotal (formula.terms.map fun term => term.count * part ⟨term.sign, term.face⟩) := by
  -- The dice are laid out term by term, and those of one term are all the same.
  simp only [dice, Term.dice, List.map_flatMap, List.map_replicate, wholeTotal_flatMap,
    wholeTotal_replicate]

/-- The smallest total is the modifier with the least of every die. -/
theorem min_eq (formula : Formula) :
    formula.min = formula.modifier + wholeTotal (formula.dice.map Die.least) := by
  simp only [min, total_dice, Term.range_eq]

/-- The largest total is the modifier with the most of every die. -/
theorem max_eq (formula : Formula) :
    formula.max = formula.modifier + wholeTotal (formula.dice.map Die.most) := by
  simp only [max, total_dice, Term.range_eq]

/-- Statistics hold the smallest and the largest total. -/
theorem bounds_of_stats {formula : Formula} {stats : Stats} (ok : formula.stats = .ok stats) :
    stats.min = formula.min ∧ stats.max = formula.max := by
  -- Only the mean can fail, and it has no part in the bounds.
  obtain ⟨average, _, built⟩ := bind_eq_ok.mp ok
  obtain rfl := Except.ok.inj built
  exact ⟨rfl, rfl⟩

/-- Whatever a bounded source draws, the total lies between the smallest and the largest. -/
theorem roll_between {σ : Type} {source : Source σ} (bounded : source.Bounded)
    (formula : Formula) (state : σ) :
    formula.min ≤ (formula.roll source.draw state).1.total ∧
      (formula.roll source.draw state).1.total ≤ formula.max := by
  -- The throws are within their faces, and they are the throws of the very dice of the formula.
  have between := total_between (throwEach_within bounded formula.dice state)
  rw [throwEach_dice] at between
  simp only [roll_eq, min_eq, max_eq]
  omega

/-- Scripted dice can give every total between the smallest and the largest. -/
theorem exists_script (formula : Formula) {total : Int} (least : formula.min ≤ total)
    (most : total ≤ formula.max) :
    ∃ numbers : Array Nat,
      (formula.roll Dice.draw (Dice.ofScript numbers)).1.total = total := by
  rw [min_eq] at least
  rw [max_eq] at most
  -- Throws that sum to what the modifier leaves are found first, then the numbers behind them.
  obtain ⟨throws, same, within, sum⟩ := exists_throws formula.dice
    (show _ ≤ total - formula.modifier by omega) (by omega)
  have shown : (throwEach Dice.draw formula.dice
      (Dice.ofScript (scriptOf throws).toArray)).1 = throws := by
    rw [← same]
    exact throwEach_script within (by simp)
  refine ⟨(scriptOf throws).toArray, ?_⟩
  simp only [roll_eq, shown, sum]
  omega

/-- Whether some source that keeps within its bounds makes a formula give a total. -/
def Gives (formula : Formula) (total : Int) : Prop :=
  -- The state may remember every earlier draw, so the source may answer as it likes.
  ∃ (σ : Type) (source : Source σ) (state : σ),
    source.Bounded ∧ (formula.roll source.draw state).1.total = total

/--
The totals of a formula are exactly the whole numbers of the range in its statistics.

No bounded source leaves the range, and scripted dice alone already fill it.
-/
theorem gives_iff_in_stats {formula : Formula} {stats : Stats} (ok : formula.stats = .ok stats)
    (total : Int) :
    (formula.Gives total ↔ stats.min ≤ total ∧ total ≤ stats.max) ∧
      ((∃ numbers : Array Nat,
          (formula.rollOnce (Dice.ofScript numbers)).1.result.map Outcome.total = .ok total) ↔
        stats.min ≤ total ∧ total ≤ stats.max) := by
  obtain ⟨least, most⟩ := bounds_of_stats ok
  rw [least, most]
  refine ⟨⟨?_, ?_⟩, ⟨?_, ?_⟩⟩
  · -- No source that keeps within its bounds leaves the range.
    rintro ⟨σ, source, state, bounded, rfl⟩
    exact roll_between bounded formula state
  · -- Scripted dice are such a source, and reach everything in it.
    rintro ⟨least, most⟩
    obtain ⟨numbers, total_eq⟩ := exists_script formula least most
    exact ⟨Dice, Source.dice, Dice.ofScript numbers, Source.dice_bounded, total_eq⟩
  · rintro ⟨numbers, total_eq⟩
    obtain rfl := Except.ok.inj total_eq
    exact roll_between Source.dice_bounded formula (Dice.ofScript numbers)
  · rintro ⟨least, most⟩
    obtain ⟨numbers, total_eq⟩ := exists_script formula least most
    exact ⟨numbers, congrArg Except.ok total_eq⟩

/-- Two dice, less a coin and a Fudge die, give 3 to 16 with a modifier of 3. -/
theorem gives_iff_in_stats_mixed :
    let mixed : Formula :=
      ⟨[⟨.plus, 2, .numeric 6 (by decide), by decide⟩,
        ⟨.minus, 1, .numeric 2 (by decide), by decide⟩, ⟨.minus, 1, .fudge, by decide⟩], 3⟩
    mixed.stats = .ok ⟨3, 16, .ofRatio false 19 2⟩ ∧
      ∀ total, (mixed.Gives total ↔ 3 ≤ total ∧ total ≤ 16) ∧
        ((∃ numbers : Array Nat,
            (mixed.rollOnce (Dice.ofScript numbers)).1.result.map Outcome.total = .ok total) ↔
          3 ≤ total ∧ total ≤ 16) :=
  have ok : Formula.stats
      ⟨[⟨.plus, 2, .numeric 6 (by decide), by decide⟩,
        ⟨.minus, 1, .numeric 2 (by decide), by decide⟩, ⟨.minus, 1, .fudge, by decide⟩], 3⟩ =
      .ok ⟨3, 16, .ofRatio false 19 2⟩ := by
    decide +kernel
  ⟨ok, gives_iff_in_stats ok⟩

end Formula

end DiceLab
