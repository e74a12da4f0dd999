import DiceLab.Proofs.Binary64.Exact
import DiceLab.Proofs.Generator.Room

/-! A target that some dice of one face cover exactly is found, and found first. -/

namespace DiceLab

namespace Fit

variable {stats : Stats} {target : Target}

/-- Only the target itself has the best score, unless the target is so wide that a deviation can be
lost in rounding. -/
theorem matches_of_best (narrow : width target ≤ (twoTo 51 : Nat))
    (ok : Fit.score stats target = .ok best) : stats.min = target.min ∧ stats.max = target.max := by
  rw [← deviation_eq_zero]
  by_contra apart
  -- One total is a part of the width that is still seen in the score.
  have positive := width_pos target
  have part : 1 * (width target).natAbs ≤ deviation stats target * twoTo 51 := by
    have one := Nat.mul_le_mul_right (twoTo 51) (Nat.pos_of_ne_zero apart)
    omega
  have least := le_scoreOf (twoTo_pos 51) ok part
  have under : (scoreOf (.ofRatio false 1 (twoTo 51))).place < best.place := by decide +kernel
  exact absurd least (not_le.mpr under)

end Fit

/-- A die with three sides or more counts from one, and is not the binary one. -/
theorem Face.ends_of_several {sides : Nat} (positive : 0 < sides) (several : 3 ≤ sides) :
    (Face.numeric sides positive).low = 1 ∧ (Face.numeric sides positive).high = sides ∧
      (Face.numeric sides positive).isBinary = false := by
  -- Only a die with two sides counts from zero.
  have wide : sides ≠ binarySides := by
    unfold binarySides
    omega
  simp [low, high, isBinary, wide]

namespace Proposal

variable {target : Target} {sides count : Nat} {positive : 0 < sides} {dice : 0 < count}

/-- So many dice with a number of sides, beginning at the minimum of a target. -/
def covering (target : Target) (sides count : Nat) (positive : 0 < sides) (dice : 0 < count) :
    Formula :=
  ⟨[⟨.plus, count, .numeric sides positive, dice⟩], target.min - count⟩

/-- A covering formula has the ends of a target that is as wide as its dice. -/
theorem covering_ends (positive : 0 < sides) (dice : 0 < count) (several : 3 ≤ sides)
    (width : target.max - target.min = count * (sides - 1)) :
    (covering target sides count positive dice).min = target.min ∧
      (covering target sides count positive dice).max = target.max := by
  obtain ⟨low, high, -⟩ := Face.ends_of_several positive several
  -- The first total is one for each die, which the modifier shifts to the minimum.
  have product : (count : Int) * (sides - 1) = count * sides - count := by ring
  simp only [covering, Formula.min, Formula.max, Term.range, low, high, List.map_cons, List.map_nil,
    wholeTotal_cons, wholeTotal_nil]
  omega

/-- The dice that cover a target exactly are counted exactly. -/
theorem spanning_covering (several : 3 ≤ sides) (few : sides ≤ twoTo 50)
    (most : (count : Int) ≤ mostDice) (width : target.max - target.min = count * (sides - 1)) :
    spanning target (.numeric sides positive) =
      .ok (some (covering target sides count positive dice)) := by
  obtain ⟨low, high, -⟩ := Face.ends_of_several positive several
  have small : twoTo 52 * ((sides : Int) - 1).natAbs ≤ Binary64.scale := by
    have room : twoTo 52 * twoTo 50 ≤ Binary64.scale := by decide +kernel
    exact Nat.le_trans (Nat.mul_le_mul_left _ (by omega)) room
  have ten : mostDice = 10 := rfl
  have digits : 21 ≤ twoTo 53 := by decide
  have short : (2 * (count : Int)).natAbs ≤ twoTo 53 := by omega
  -- The quotient is the number of dice itself, so rounding it and holding it changes nothing.
  obtain ⟨ratio, divided, is⟩ := exists_wholeQuotient_mul (by omega) short small
  have rounded := is.roundHalfUp (by omega)
  have half : (2 * (count : Int) + 1) / 2 = count := by omega
  rw [half] at rounded
  have held : (max 1 (min mostDice (count : Int))).toNat = count := by omega
  unfold spanning
  -- A die with a single side spans nothing, but this one has several.
  rw [if_neg (by rw [Face.count_numeric]; omega), low, high, width]
  refine bind_eq_ok.mpr ⟨ratio, divided, bind_eq_ok.mpr ⟨count, rounded, ?_⟩⟩
  simp only [held, mul_one]
  exact dif_pos dice

/-- The dice that cover a target exactly are proposed. -/
theorem proposed_covering {faces : List Face} (short : Short target faces)
    (offered : .numeric sides positive ∈ faces) (several : 3 ≤ sides)
    (most : (count : Int) ≤ mostDice) (width : target.max - target.min = count * (sides - 1)) :
    Proposed target faces (covering target sides count positive dice) := by
  obtain ⟨-, -, plain⟩ := Face.ends_of_several positive several
  have few : sides ≤ twoTo 50 := short.sides _ offered
  -- Neither of the later extensions takes away what was proposed before it.
  exact .kept (.kept (.span (mem_numeric.mpr ⟨offered, rfl, plain⟩)
    (spanning_covering several few most width)))

end Proposal

open Proposal (Proposed Short covering mostDice)

/-- A tag that is read, and names a short face if it names one. -/
def FaceTag.IsShort (tag : FaceTag) : Prop :=
  ∃ named, (read tag).result = .ok named ∧ ∀ face, named = some face → face.IsShort

/-- A tag that names a short face is short. -/
theorem FaceTag.isShort_of_read {tag : FaceTag} {face : Face}
    (known : (read tag).result = .ok (some face)) (short : face.IsShort) : tag.IsShort := by
  refine ⟨_, known, ?_⟩
  intro other same
  rwa [← Option.some.inj same]

/-- What is scored with the best score has the range of the target, and is perfect. -/
theorem Candidate.perfect_of_best {formula : Formula} {target : Target} {candidate : Candidate}
    (ok : ofFormula formula target = .ok candidate) (narrow : Fit.width target ≤ (twoTo 51 : Nat))
    (best : Fit.best.le candidate.fitScore = true) :
    candidate.stats.min = target.min ∧ candidate.stats.max = target.max ∧
      candidate.fitScore = Fit.best ∧ candidate.fit = .perfect := by
  obtain ⟨scored, known⟩ := fit_of_ofFormula ok
  -- No score lies above the best one, and no other range has it.
  have number := Fit.score_nonnegative scored
  rw [Binary64.le_iff_place Fit.best_ne_nan number.ne_nan] at best
  have full : candidate.fitScore = Fit.best := number.place_injective Fit.best_nonnegative
    (le_antisymm (Fit.place_score_between scored).2 best)
  rw [full] at scored
  have same := Fit.matches_of_best narrow scored
  refine ⟨same.1, same.2, full, ?_⟩
  rw [known, Fit.classify, if_pos same]

/-- What dice that cover a target are scored as has the best score. -/
theorem Candidate.fitScore_of_covering {target : Target} {sides count : Nat} {positive : 0 < sides}
    {dice : 0 < count} {candidate : Candidate} (several : 3 ≤ sides)
    (width : target.max - target.min = count * (sides - 1))
    (ok : ofFormula (covering target sides count positive dice) target = .ok candidate) :
    candidate.fitScore = Fit.best := by
  obtain ⟨least, most⟩ := Formula.bounds_of_stats (stats_of_ofFormula ok)
  obtain ⟨low, high⟩ := Proposal.covering_ends positive dice several width
  -- Both ends are met, so nothing is missing from the best score.
  have full := Fit.score_of_match (least.trans low) (most.trans high)
  exact Except.ok.inj ((fit_of_ofFormula ok).1.symm.trans full)

/-- A target whose ends are in order is left as it is. -/
theorem Target.ordered_eq {target : Target} (order : target.min ≤ target.max) :
    target.ordered = target := by
  unfold ordered
  rw [min_eq_left order, max_eq_right order]

namespace Generator

variable {target : Target} {available : List FaceTag}

/--
A target that up to ten dice of an offered face cover exactly is found, and found first.

No other candidate can stand before it unless it has the range of the target as well, whatever other
faces are offered and however few candidates are kept.
-/
theorem search_covers {sides count : Nat} {positive : 0 < sides} {limit : Int}
    (ends : target.min.natAbs ≤ twoTo 50 ∧ target.max.natAbs ≤ twoTo 50)
    (short : ∀ tag ∈ available, tag.IsShort)
    (offered : FaceTag.Names available (.numeric sides positive)) (several : 3 ≤ sides)
    (dice : 1 ≤ count) (most : (count : Int) ≤ mostDice)
    (width : target.max - target.min = count * (sides - 1)) (limited : 1 ≤ limit) :
    ∃ first rest, (search target available (.whole limit)).result = .ok (first :: rest) ∧
      first.stats.min = target.min ∧ first.stats.max = target.max ∧
      first.fitScore = Fit.best ∧ first.fit = .perfect := by
  obtain ⟨faces, resolved, sidesFew⟩ := FaceTag.exists_resolve short
  have member := (FaceTag.mem_of_resolve resolved).mpr offered
  have fewFaces : Short target faces := ⟨ends, sidesFew⟩
  have small : Proposal.Small (tenTo roomyDigits) target faces :=
    fewFaces.small.mono (by decide +kernel) room
  have rises : target.min ≤ target.max := by
    have apart : (0 : Int) ≤ count * (sides - 1) := mul_nonneg (by omega) (by omega)
    omega
  have order := Target.ordered_eq rises
  -- The dice are proposed, and what they are scored as has the best score.
  have proposed : Proposed target.ordered faces (covering target sides count positive dice) := by
    rw [order]
    exact Proposal.proposed_covering fewFaces member several most width
  obtain ⟨candidate, scored⟩ := proposed.exists_candidate small.ordered
  have full := Candidate.fitScore_of_covering several width (order ▸ scored)
  obtain ⟨kept, ok, -⟩ :=
    exists_search_of_small resolved (List.ne_nil_of_mem member) small limited
  obtain ⟨first, head, best⟩ := exists_head_search ok resolved proposed scored
  obtain ⟨rest, rfl⟩ := List.head?_eq_some_iff.mp head
  -- What stands first has no lower score, and was scored against the same target.
  obtain ⟨_, _, _, _, known⟩ := exists_proposed_of_search ok List.mem_cons_self
  rw [full] at best
  rw [order] at known
  have narrow : Fit.width target ≤ (twoTo 51 : Nat) := by
    have double : twoTo 51 = 2 * twoTo 50 := twoTo_add 1 50
    have one := twoTo_pos 50
    unfold Fit.width
    omega
  exact ⟨first, rest, ok, Candidate.perfect_of_best known narrow best⟩

/-- Three six-sided dice cover a range of sixteen totals, and stand first even alone, whatever else
is offered. -/
theorem search_covers_six :
    let six : Face := .numeric 6 (by decide)
    let available : List FaceTag :=
      [.value (.text "D6"), .value (.text "dF"), .value (.text "x"), .value (.whole 2)]
    (∀ tag ∈ available, tag.IsShort) ∧ FaceTag.Names available six ∧
      ∃ first rest, (search ⟨-3, 12⟩ available (.whole 1)).result = .ok (first :: rest) ∧
        first.stats.min = -3 ∧ first.stats.max = 12 ∧ first.fitScore = Fit.best ∧
        first.fit = .perfect := by
  intro six available
  have die : (FaceTag.read (.value (.text "D6"))).result = .ok (some six) := by decide +kernel
  have fudge : (FaceTag.read (.value (.text "dF"))).result = .ok (some .fudge) := by decide +kernel
  have unknown : (FaceTag.read (.value (.text "x"))).result = .ok none := by decide +kernel
  have coin : (FaceTag.read (.value (.whole 2))).result = .ok (some (.numeric 2 (by decide))) := by
    decide +kernel
  have short : ∀ tag ∈ available, tag.IsShort := by
    simp only [available, List.forall_mem_cons]
    exact ⟨FaceTag.isShort_of_read die (by decide), FaceTag.isShort_of_read fudge (by decide),
      ⟨_, unknown, by simp⟩, FaceTag.isShort_of_read coin (by decide), by simp⟩
  have named : FaceTag.Names available six := ⟨_, List.mem_cons_self, die⟩
  exact ⟨short, named, search_covers (by decide) short named (by decide) (show 1 ≤ 3 by decide)
    (by decide) (by decide) (by decide)⟩

end Generator

end DiceLab
