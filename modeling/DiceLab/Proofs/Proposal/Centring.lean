import DiceLab.Proofs.Binary64.Monotone
import DiceLab.Proofs.Formula.Average
import DiceLab.Proofs.Proposal.Pairs
import DiceLab.Proofs.Proposal.Size
import Mathlib.Algebra.BigOperators.Group.List.Basic

/-! Single dice and pairs are centred: no modifier brings their mean nearer to that of the
target. -/

namespace DiceLab

/-- The mean of the two ends of a target. -/
def Target.mean (target : Target) : ℚ := (target.min + target.max : Int) / 2

/-- The mean of the two ends of a formula, before any rounding. -/
def Formula.mean (formula : Formula) : ℚ := (formula.min + formula.max : Int) / 2

namespace Formula

variable {formula : Formula}

/-- The mean in the statistics is that of the formula. -/
theorem average_of_stats {stats : Stats} (ok : formula.stats = .ok stats) :
    formula.average = .ok stats.average := by
  obtain ⟨average, known, made⟩ := bind_eq_ok.mp ok
  rw [known, ← Except.ok.inj made]

variable {start other value higher : Binary64}

/-- Terms that are added to numbers keep them in order, however often these are rounded. -/
theorem place_foldlM_average_le {terms : List Term}
    (each : ∀ term ∈ terms, ∃ mean number, term.average = .ok mean ∧ mean.Is number)
    (number : start ≠ .nan) (otherNumber : other ≠ .nan) (le : start.place ≤ other.place)
    (ok : terms.foldlM (fun total term => do return total.add (← term.average)) start = .ok value)
    (otherOk : terms.foldlM (fun total term => do return total.add (← term.average)) other =
      .ok higher) : value.place ≤ higher.place := by
  -- Both totals change from term to term, so they stay quantified over.
  induction terms generalizing start other with
  | nil =>
    obtain rfl := Except.ok.inj ok
    obtain rfl := Except.ok.inj otherOk
    exact le
  | cons term rest ih =>
    rw [List.forall_mem_cons] at each
    obtain ⟨⟨mean, half, read, is⟩, others⟩ := each
    rw [foldlM_average_cons read] at ok otherOk
    obtain ⟨negative, magnitude, rfl, -⟩ := is.exists_finite
    exact ih others (Binary64.add_ne_nan negative magnitude number)
      (Binary64.add_ne_nan negative magnitude otherNumber)
      (Binary64.place_add_le negative magnitude number otherNumber le) ok otherOk

/-- A larger modifier gives no lower mean. -/
theorem place_average_le {terms : List Term} {modifier larger : Int}
    (each : ∀ term ∈ terms, ∃ mean number, term.average = .ok mean ∧ mean.Is number)
    (le : modifier ≤ larger) (ok : (⟨terms, modifier⟩ : Formula).average = .ok value)
    (otherOk : (⟨terms, larger⟩ : Formula).average = .ok higher) : value.place ≤ higher.place := by
  -- The modifiers are rounded first, and the terms are added to what they are rounded to.
  obtain ⟨start, read, folded⟩ := bind_eq_ok.mp ok
  obtain ⟨begin, otherRead, otherFolded⟩ := bind_eq_ok.mp otherOk
  obtain rfl := Binary64.eq_of_finiteOr read
  obtain rfl := Binary64.eq_of_finiteOr otherRead
  exact place_foldlM_average_le each (Binary64.ofInt_ne_nan modifier)
    (Binary64.ofInt_ne_nan larger) (Binary64.place_ofInt_le le) folded otherFolded

end Formula

open Binary64 (reach)

namespace Proposal

variable {target : Target} {faces dice : List Face} {formula : Formula}

/-- Twice the mean of one die of each face. -/
def twiceMean (dice : List Face) : Int := wholeTotal (dice.map fun face => face.low + face.high)

/-- How far from zero that can be. -/
def weight (dice : List Face) : Nat :=
  naturalTotal (dice.map fun face => (face.low + face.high).natAbs)

/-- One face more adds its own mean. -/
theorem twiceMean_cons (face : Face) (rest : List Face) :
    twiceMean (face :: rest) = face.low + face.high + twiceMean rest := rfl

/-- One face more adds its own distance from zero. -/
theorem weight_cons (face : Face) (rest : List Face) :
    weight (face :: rest) = (face.low + face.high).natAbs + weight rest := rfl

/-- Twice the mean is no farther from zero than its parts are together. -/
theorem natAbs_twiceMean_le (dice : List Face) : (twiceMean dice).natAbs ≤ weight dice :=
  natAbs_wholeTotal_le fun _ _ => Nat.le_refl _

/-- Dice that are counted together add up to what they are one by one. -/
theorem sum_oneEach {α : Type} [AddCommMonoid α] (part : Face → α) (dice : List Face) :
    ((oneEach dice).map fun term => term.count • part term.face).sum = (dice.map part).sum := by
  induction dice with
  | nil => rfl
  | cons face rest ih =>
    rw [oneEach_cons, List.map_cons, List.sum_cons, ← ih]
    cases oneEach rest with
    | nil => simp
    | cons term others =>
      dsimp only
      split
      · -- One die more of the face that stands in front.
        rename_i same
        rw [List.map_cons, List.sum_cons, List.map_cons, List.sum_cons, same, succ_nsmul',
          add_assoc]
      · simp

/-- The terms have the mean of the dice. -/
theorem twiceMean_oneEach (dice : List Face) :
    wholeTotal ((oneEach dice).map Term.twiceMean) = twiceMean dice := by
  have total : wholeTotal _ = twiceMean dice := sum_oneEach (fun face => face.low + face.high) dice
  rw [← total]
  apply congrArg wholeTotal
  apply List.map_congr_left
  -- All terms are added, so each counts as often as it is there.
  intro term member
  rw [Term.twiceMean, ((oneEach_spec dice).1 term member).1]
  simp [Sign.factor]

/-- The terms have the weight of the dice. -/
theorem weight_oneEach (dice : List Face) :
    naturalTotal ((oneEach dice).map Term.weight) = weight dice :=
  sum_oneEach (fun face => (face.low + face.high).natAbs) dice

/-- Means are added exactly as long as they are short together. -/
theorem exists_meanSum_exact {total : Binary64} {twice : Int} (is : total.Is (twice / 2))
    (short : twice.natAbs + weight dice ≤ twoTo 53) :
    ∃ mean, dice.foldlM (fun total face => do return total.add (← face.mean)) total =
        Except.ok mean ∧ mean.Is ((twice + twiceMean dice : Int) / 2) := by
  -- The total grows from face to face, so it stays quantified over.
  induction dice generalizing total twice with
  | nil => exact ⟨total, rfl, by simpa [twiceMean] using is⟩
  | cons face rest ih =>
    rw [weight_cons] at short
    have alone : (face.low + face.high).natAbs ≤ twoTo 53 := by omega
    obtain ⟨mean, known, meanIs⟩ := exists_wholeQuotient_half alone
    have sumIs := is.add_halves meanIs (by omega)
    obtain ⟨last, others, lastIs⟩ := ih sumIs (by omega)
    have read : face.mean = .ok mean := known
    rw [List.foldlM_cons, read]
    refine ⟨last, others, ?_⟩
    rw [twiceMean_cons, ← add_assoc]
    exact lastIs

/-- One die of each face with the modifier that is half of what is missing, rounded up. -/
def centre (target : Target) (dice : List Face) : Formula :=
  ⟨oneEach dice, (target.min + target.max - twiceMean dice + 1) / 2⟩

/-- Short numbers are centred without any rounding but the last. -/
theorem centered_eq_ok {average : Binary64} (middle : average.Is target.mean)
    (short : (target.min + target.max).natAbs + weight dice + 1 ≤ twoTo 53) :
    centered average dice = .ok (centre target dice) := by
  have none : (Binary64.zero false).Is ((0 : Int) / 2) := by
    rw [Int.cast_zero, zero_div]
    exact Binary64.zero_is false
  have within := natAbs_twiceMean_le dice
  have light : (0 : Int).natAbs + weight dice ≤ twoTo 53 := by
    rw [Int.natAbs_zero]
    omega
  obtain ⟨mean, known, meanIs⟩ := exists_meanSum_exact none light
  rw [zero_add] at meanIs
  -- What is missing is half a whole number too, and rounding it to a whole one gives the modifier.
  have apart : (average.sub mean).Is ((target.min + target.max - twiceMean dice : Int) / 2) :=
    Binary64.Is.sub_halves middle meanIs (by omega)
  have rounded := apart.roundHalfUp (by omega)
  unfold centered
  rw [bind_eq_ok]
  exact ⟨mean, known, bind_eq_ok.mpr ⟨_, rounded, rfl⟩⟩

/-- A formula is centred on a target: its mean is as near to that of the target as the modifier can
bring it, and above it when there are two such means. -/
structure Centred (target : Target) (formula : Formula) : Prop where
  /-- The ends add up to what those of the target do, or to one more. -/
  ends : formula.min + formula.max = target.min + target.max ∨
    formula.min + formula.max = target.min + target.max + 1
  /-- It is one more just when no modifier makes the sums equal. -/
  uneven : formula.min + formula.max = target.min + target.max + 1 ↔
    ∀ modifier : Int, ({ formula with modifier } : Formula).min +
      ({ formula with modifier } : Formula).max ≠ target.min + target.max
  /-- The mean in the statistics has not been rounded. -/
  average : ∃ stats, formula.stats = .ok stats ∧ stats.average.Is formula.mean
  /-- No modifier brings the mean nearer to that of the target. -/
  nearest : ∀ modifier : Int, |formula.mean - target.mean| ≤
    |({ formula with modifier } : Formula).mean - target.mean|
  /-- No modifier brings the mean in the statistics nearer either, which may be rounded. -/
  nearestRounded : ∀ (modifier : Int) (stats : Stats) (number : ℚ),
    ({ formula with modifier } : Formula).stats = .ok stats → stats.average.Is number →
      |formula.mean - target.mean| ≤ |number - target.mean|

/-- With any modifier, the ends add up to twice the modifier and twice the mean of the dice. -/
theorem min_add_max_oneEach (dice : List Face) (modifier : Int) :
    (⟨oneEach dice, modifier⟩ : Formula).min + (⟨oneEach dice, modifier⟩ : Formula).max =
      2 * modifier + twiceMean dice := by
  rw [Formula.min_add_max, twiceMean_oneEach]

/-- The modifier is added to the mean of the dice. -/
theorem mean_oneEach (dice : List Face) (modifier : Int) :
    (⟨oneEach dice, modifier⟩ : Formula).mean = modifier + (twiceMean dice : ℚ) / 2 := by
  rw [Formula.mean, min_add_max_oneEach]
  push_cast
  ring

/-- The means of a formula and a target are half as far apart as the sums of their ends. -/
theorem abs_mean_sub (formula : Formula) (target : Target) :
    |formula.mean - target.mean| =
      ((formula.min + formula.max - (target.min + target.max)).natAbs : ℚ) / 2 := by
  rw [Formula.mean, Target.mean, ← sub_div, ← Int.cast_sub, Binary64.abs_half]

/-- The centre adds up to what the target does, or to one more. -/
theorem centre_ends (target : Target) (dice : List Face) :
    (centre target dice).min + (centre target dice).max = target.min + target.max ∨
      (centre target dice).min + (centre target dice).max = target.min + target.max + 1 := by
  unfold centre
  rw [min_add_max_oneEach]
  omega

/-- It is one more when the sums of the ends are not both even or both odd. -/
theorem centre_uneven (target : Target) (dice : List Face) :
    (centre target dice).min + (centre target dice).max = target.min + target.max + 1 ↔
      ∀ modifier : Int, ({ centre target dice with modifier } : Formula).min +
        ({ centre target dice with modifier } : Formula).max ≠ target.min + target.max := by
  unfold centre
  simp only [min_add_max_oneEach]
  constructor
  · intro uneven modifier equal
    omega
  · intro never
    -- Were the sum even, half of what is missing would reach it.
    have half := never ((target.min + target.max - twiceMean dice) / 2)
    omega

/-- The mean of the centre is that of the target or a half above it. -/
theorem centre_mean (target : Target) (dice : List Face) :
    target.mean ≤ (centre target dice).mean ∧ (centre target dice).mean ≤ target.mean + 1 / 2 := by
  have ends := centre_ends target dice
  have low : target.min + target.max ≤ (centre target dice).min + (centre target dice).max := by
    omega
  have high : (centre target dice).min + (centre target dice).max ≤
      target.min + target.max + 1 := by
    omega
  unfold Target.mean Formula.mean
  -- Twice the means differ by nothing or by one.
  have lowCast : ((target.min + target.max : Int) : ℚ) ≤ _ := Int.cast_le.mpr low
  have highCast : _ ≤ ((target.min + target.max + 1 : Int) : ℚ) := Int.cast_le.mpr high
  rw [Int.cast_add _ 1, Int.cast_one] at highCast
  constructor
  · linarith
  · linarith

/-- A step from the centre moves its mean by as much. -/
theorem mean_beside (target : Target) (dice : List Face) (step : Int) :
    (⟨oneEach dice, (centre target dice).modifier + step⟩ : Formula).mean =
      (centre target dice).mean + step := by
  -- The modifier enters the mean as it is, whatever the dice are.
  have middle := mean_oneEach dice (centre target dice).modifier
  have moved := mean_oneEach dice ((centre target dice).modifier + step)
  rw [Int.cast_add, add_right_comm, ← middle] at moved
  exact moved

/-- No other modifier brings the exact mean nearer. -/
theorem centre_nearest (target : Target) (dice : List Face) (modifier : Int) :
    |(centre target dice).mean - target.mean| ≤
      |({ centre target dice with modifier } : Formula).mean - target.mean| := by
  -- In whole numbers, the distance is the rest of a division by two, or more than that.
  rw [abs_mean_sub, abs_mean_sub]
  have nearer : ((centre target dice).min + (centre target dice).max -
      (target.min + target.max)).natAbs ≤
      (({ centre target dice with modifier } : Formula).min +
        ({ centre target dice with modifier } : Formula).max -
          (target.min + target.max)).natAbs := by
    unfold centre
    simp only [min_add_max_oneEach]
    omega
  have cast : ((_ : Nat) : ℚ) ≤ ((_ : Nat) : ℚ) := Nat.cast_le.mpr nearer
  linarith

section

variable {modifier other : Int} (few : dice.length < reach)

include few

/-- There are not too many dice of any face. -/
theorem count_oneEach_lt {term : Term} (member : term ∈ oneEach dice) : term.count < reach := by
  have most := le_naturalTotal (List.mem_map_of_mem (f := Term.count) member)
  have total := (oneEach_spec dice).2
  omega

/-- The mean of light dice with a short modifier is exact. -/
theorem exists_stats_oneEach (light : 2 * modifier.natAbs + weight dice ≤ twoTo 53) :
    ∃ stats, (⟨oneEach dice, modifier⟩ : Formula).stats = .ok stats ∧
      stats.average.Is (⟨oneEach dice, modifier⟩ : Formula).mean := by
  have short : (⟨oneEach dice, modifier⟩ : Formula).weight ≤ twoTo 53 := by
    unfold Formula.weight
    rw [weight_oneEach]
    exact light
  -- Twice the mean has at most 53 digits, and so has every sum on the way to it.
  obtain ⟨value, known, is⟩ :=
    Formula.average_exact (fun term member => count_oneEach_lt few member) short
  exact ⟨_, Formula.stats_eq_ok known, is⟩

/-- A larger modifier gives no lower mean in the statistics, however much of it is rounded. -/
theorem mean_oneEach_le {stats others : Stats} {number otherNumber : ℚ}
    (light : weight dice ≤ twoTo 53) (le : modifier ≤ other)
    (ok : (⟨oneEach dice, modifier⟩ : Formula).stats = .ok stats) (is : stats.average.Is number)
    (otherOk : (⟨oneEach dice, other⟩ : Formula).stats = .ok others)
    (otherIs : others.average.Is otherNumber) : number ≤ otherNumber := by
  have each : ∀ term ∈ oneEach dice, ∃ mean number, term.average = .ok mean ∧ mean.Is number := by
    intro term member
    have part := le_naturalTotal (List.mem_map_of_mem (f := Term.weight) member)
    rw [weight_oneEach] at part
    obtain ⟨mean, known, meanIs⟩ :=
      Term.average_exact (count_oneEach_lt few member) (Nat.le_trans part light)
    exact ⟨mean, _, known, meanIs⟩
  -- Rounded values are compared by their places, which rounded additions keep in order.
  rw [← is.place_le_iff otherIs]
  exact Formula.place_average_le each le (Formula.average_of_stats ok)
    (Formula.average_of_stats otherOk)

/-- A step of one from the centre moves the mean in the statistics by one, which is not rounded. -/
theorem exists_stats_beside
    (light : 2 * ((centre target dice).modifier.natAbs + 1) + weight dice ≤ twoTo 53) (step : Int)
    (one : step.natAbs ≤ 1) :
    ∃ stats, (⟨oneEach dice, (centre target dice).modifier + step⟩ : Formula).stats = .ok stats ∧
      stats.average.Is ((centre target dice).mean + step) := by
  have within := Int.natAbs_add_le (centre target dice).modifier step
  -- A step aside adds one to the modifier at most, for which there is room.
  rw [← mean_beside]
  exact exists_stats_oneEach few (by omega)

/--
No other modifier brings the mean in the statistics nearer.

What lies beyond a neighbour of the centre can be rounded, but never past the mean of that
neighbour, which is exact and at least half a total away from that of the target.
-/
theorem centre_nearestRounded
    (light : 2 * ((centre target dice).modifier.natAbs + 1) + weight dice ≤ twoTo 53)
    {stats : Stats} {number : ℚ}
    (ok : ({ centre target dice with modifier } : Formula).stats = .ok stats)
    (is : stats.average.Is number) :
    |(centre target dice).mean - target.mean| ≤ |number - target.mean| := by
  obtain ⟨low, high⟩ := centre_mean target dice
  have size : |(centre target dice).mean - target.mean| = (centre target dice).mean - target.mean :=
    abs_of_nonneg (by linarith)
  have wide : weight dice ≤ twoTo 53 := by omega
  rcases lt_trichotomy modifier (centre target dice).modifier with below | same | above
  · -- A smaller modifier leaves the mean below that of the target.
    obtain ⟨others, otherOk, otherIs⟩ := exists_stats_beside few light (-1) (by decide)
    have le := mean_oneEach_le few wide (by omega) ok is otherOk otherIs
    rw [Int.cast_neg, Int.cast_one] at le
    rw [size, abs_of_nonpos (by linarith)]
    linarith
  · obtain ⟨others, otherOk, otherIs⟩ := exists_stats_beside few light 0 (by decide)
    rw [Int.add_zero, ← same] at otherOk
    rw [Int.cast_zero, add_zero] at otherIs
    obtain rfl := Except.ok.inj (ok.symm.trans otherOk)
    rw [is.unique otherIs]
  · -- A larger one takes it farther above.
    obtain ⟨others, otherOk, otherIs⟩ := exists_stats_beside few light 1 (by decide)
    have le := mean_oneEach_le few wide (by omega) otherOk otherIs ok is
    rw [Int.cast_one] at le
    rw [size, abs_of_nonneg (by linarith)]
    linarith

/-- Half of what is missing, rounded up, centres short dice on a target. -/
theorem centre_centred
    (short : (target.min + target.max).natAbs + 2 * weight dice + 5 ≤ twoTo 53) :
    Centred target (centre target dice) := by
  -- The modifier is at most half as large as the target and the dice together.
  have light : 2 * ((centre target dice).modifier.natAbs + 1) + weight dice ≤ twoTo 53 := by
    have within := natAbs_twiceMean_le dice
    unfold centre
    dsimp only
    omega
  have alone : 2 * (centre target dice).modifier.natAbs + weight dice ≤ twoTo 53 := by omega
  exact
    { ends := centre_ends target dice
      uneven := centre_uneven target dice
      average := exists_stats_oneEach few alone
      nearest := centre_nearest target dice
      nearestRounded := fun _ _ _ ok is => centre_nearestRounded few light ok is }

end

/-- The terms of two dice: equal ones are counted together. -/
def pairTerms (first second : Face) : List Term :=
  if first = second then [⟨.plus, 2, first, Nat.two_pos⟩]
  else [⟨.plus, 1, first, Nat.one_pos⟩, ⟨.plus, 1, second, Nat.one_pos⟩]

/-- Two dice are written as the terms of a pair. -/
theorem oneEach_pair (first second : Face) : oneEach [first, second] = pairTerms first second := by
  have single : oneEach [second] = [⟨.plus, 1, second, Nat.one_pos⟩] := rfl
  rw [oneEach_cons, single, pairTerms]
  dsimp only
  by_cases same : first = second
  · rw [if_pos same, if_pos same.symm]
  · rw [if_neg same, if_neg (Ne.symm same)]

/-- Short faces are light. -/
theorem Short.weight_le (short : Short target faces) (offered : dice ⊆ faces) :
    weight dice ≤ dice.length * (twoTo 50 + 1) := by
  induction dice with
  | nil => exact Nat.zero_le _
  | cons face rest ih =>
    obtain ⟨inside, others⟩ := List.cons_subset.mp offered
    have few := short.sides face inside
    -- A fudge die has its mean at zero, and all others reach from zero or one to their sides.
    have light : (face.low + face.high).natAbs ≤ twoTo 50 + 1 := by
      cases face with
      | fudge => exact Nat.zero_le _
      | numeric sides positive =>
        have sidesFew : sides ≤ twoTo 50 := few
        simp only [Face.low, Face.high]
        split <;> omega
    rw [weight_cons, List.length_cons, Nat.succ_mul]
    have behind := ih others
    omega

/-- Extensions follow what they extend. -/
theorem exists_append_of_extendAll {face : Option Face}
    {extend : Face → Formula → Except Failure (List Formula)} {proposals grown : List Formula}
    (ok : extendAll face extend proposals = .ok grown) : ∃ more, grown = proposals ++ more := by
  cases face with
  -- Without a small die to extend with, nothing is put behind.
  | none => exact ⟨[], by rw [List.append_nil]; exact (Except.ok.inj ok).symm⟩
  | some die =>
    obtain ⟨added, -, made⟩ := bind_eq_ok.mp ok
    exact ⟨_, (Except.ok.inj made).symm⟩

/-- Up to two short dice are centred on a short target. -/
theorem Short.centered (short : Short target faces) {average : Binary64}
    (middle : average.Is target.mean) (offered : dice ⊆ faces) (few : dice.length ≤ 2) :
    Proposal.centered average dice = .ok (centre target dice) ∧
      Centred target (centre target dice) := by
  have ends := short.ends
  -- Both ends and twice the weight of two faces stay well within what is exact.
  have light := short.weight_le offered
  have both := Nat.mul_le_mul_right (twoTo 50 + 1) few
  have room : 2 * twoTo 50 + 2 * (2 * (twoTo 50 + 1)) + 5 ≤ twoTo 53 := by decide
  have bound : 2 < reach := Binary64.lt_reach_of_short (by decide)
  exact ⟨centered_eq_ok middle (by omega), centre_centred (by omega) (by omega)⟩

/-- The middle of a short target is computed exactly. -/
theorem Short.exists_middle (short : Short target faces) :
    ∃ average, wholeQuotient (target.min + target.max) 2 = .ok average ∧
      average.Is target.mean := by
  have ends := short.ends
  have room : 2 * twoTo 50 ≤ twoTo 53 := by decide
  exact exists_wholeQuotient_half (by omega)

/-- The proposals begin with the centred single dice, which the centred pairs follow. -/
theorem Short.exists_rest (short : Short target faces) :
    ∃ rest, all target faces = .ok (((numeric faces).map fun face => centre target [face]) ++
      ((pairs (numeric faces)).map fun pair => centre target [pair.1, pair.2]) ++ rest) := by
  obtain ⟨middle, known, is⟩ := short.exists_middle
  have singles : (numeric faces).mapM (fun face => Proposal.centered middle [face]) =
      .ok ((numeric faces).map fun face => centre target [face]) := by
    apply mapM_eq_ok_map
    intro face inside
    exact (short.centered is (single_subset inside) (by simp)).1
  have doubles : (pairs (numeric faces)).mapM
      (fun pair => Proposal.centered middle [pair.1, pair.2]) =
        .ok ((pairs (numeric faces)).map fun pair => centre target [pair.1, pair.2]) := by
    apply mapM_eq_ok_map
    intro pair inside
    exact (short.centered is (double_subset inside) (by simp)).1
  -- The steps are known to give values, so each can be taken to give what it is known to give.
  obtain ⟨proposals, made⟩ := short.small.exists_all
  rw [made]
  obtain ⟨average, middleKnown, made⟩ := bind_eq_ok.mp made
  obtain rfl := Except.ok.inj (known.symm.trans middleKnown)
  obtain ⟨ones, onesMade, made⟩ := bind_eq_ok.mp made
  obtain rfl := Except.ok.inj (singles.symm.trans onesMade)
  obtain ⟨twos, twosMade, made⟩ := bind_eq_ok.mp made
  obtain rfl := Except.ok.inj (doubles.symm.trans twosMade)
  obtain ⟨spans, -, made⟩ := bind_eq_ok.mp made
  -- The binary and the fudge die come behind everything proposed so far.
  obtain ⟨raised, raisedMade, made⟩ := bind_eq_ok.mp made
  obtain ⟨more, rfl⟩ := exists_append_of_extendAll raisedMade
  obtain ⟨last, rfl⟩ := exists_append_of_extendAll made
  exact ⟨_, by rw [List.append_assoc, List.append_assoc]⟩

/-- Every single die and every pair of numeric faces is proposed with the modifier that centres it,
and each two positions of the list of these faces make one pair. -/
theorem all_centred (short : Short target faces) :
    ∃ singles doubles rest, all target faces = .ok (singles ++ doubles ++ rest) ∧
      List.Forall₂ (fun face formula =>
        formula.terms = [⟨.plus, 1, face, Nat.one_pos⟩] ∧ Centred target formula)
        (numeric faces) singles ∧
      List.Forall₂ (fun (position : _ × _) formula =>
        formula.terms =
            pairTerms ((numeric faces).get position.1) ((numeric faces).get position.2) ∧
          Centred target formula)
        (positions (numeric faces).length) doubles ∧
      (positions (numeric faces).length).Nodup ∧
      ∀ first second, (first, second) ∈ positions (numeric faces).length ↔ first ≤ second := by
  obtain ⟨average, -, is⟩ := short.exists_middle
  obtain ⟨rest, made⟩ := short.exists_rest
  refine ⟨_, _, rest, made, ?_, ?_, nodup_positions _, fun _ _ => mem_positions⟩
  · rw [List.forall₂_map_right_iff, List.forall₂_same]
    intro face inside
    exact ⟨rfl, (short.centered is (single_subset inside) (by simp)).2⟩
  · -- The faces of a pair are read at two positions, which may hold equal faces.
    rw [pairs_eq_positions, List.map_map, List.forall₂_map_right_iff, List.forall₂_same]
    intro position inside
    have pair : ((numeric faces).get position.1, (numeric faces).get position.2) ∈
        pairs (numeric faces) := by
      rw [pairs_eq_positions]
      exact List.mem_map_of_mem inside
    exact ⟨oneEach_pair _ _, (short.centered is (double_subset pair) (by simp)).2⟩

/-- Two equal dice and a third one make three singles and six pairs, beside a coin that makes
none. -/
theorem all_centred_six :
    let six : Face := .numeric 6 (by decide)
    let faces : List Face := [six, six, .numeric 5 (by decide), .numeric 2 (by decide)]
    Short ⟨-3, 8⟩ faces ∧ ∃ singles doubles rest,
      all ⟨-3, 8⟩ faces = .ok (singles ++ doubles ++ rest) ∧ singles.length = 3 ∧
        doubles.length = 6 ∧ ∀ formula ∈ doubles, Centred ⟨-3, 8⟩ formula := by
  intro six faces
  have short : Short ⟨-3, 8⟩ faces :=
    { ends := by decide
      sides := by decide }
  obtain ⟨singles, doubles, rest, made, ones, twos, -, -⟩ := all_centred short
  refine ⟨short, singles, doubles, rest, made, ?_, ?_, ?_⟩
  · exact ones.length_eq.symm
  · exact twos.length_eq.symm
  · intro formula member
    obtain ⟨position, -, -, centred⟩ := exists_of_mem_left twos.flip member
    exact centred

end Proposal

end DiceLab
