import DiceLab.Proofs.Candidate.Scorable
import DiceLab.Proofs.Fit
import DiceLab.Proofs.Proposal.Dice

/-! A group of small dice behind a proposal brings its range nearer to the target and never past
it. -/

namespace DiceLab

/-- Whether the die is one of the two that only extend proposals. -/
def Face.isSmall (face : Face) : Bool := face.isBinary || face.isFudge

/-- The Fudge die shows one in either direction. -/
theorem Face.ends_of_isFudge {face : Face} (fudge : face.isFudge = true) :
    face.low = -1 ∧ face.high = 1 := by
  cases face with
  | fudge => exact ⟨rfl, rfl⟩
  | numeric sides positive => simp [isFudge] at fudge

namespace Proposal

variable {target : Target} {faces : List Face} {formula old : Formula}

/-- How a group of small dice moves the range before it towards a target. -/
inductive Moves (target : Target) (term : Term) (before after : Stats) : Prop where
  /-- Binary dice that are added raise the upper end to that of the target. -/
  | raised (coin : term.face.isBinary = true) (added : term.sign = .plus)
    (reached : after.max = target.max) (kept : after.min = before.min)
    (gain : Fit.deviation before target = Fit.deviation after target + term.count)
  /-- Binary dice that are taken away lower the lower end to that of the target. -/
  | lowered (coin : term.face.isBinary = true) (taken : term.sign = .minus)
    (reached : after.min = target.min) (kept : after.max = before.max)
    (gain : Fit.deviation before target = Fit.deviation after target + term.count)
  /-- Fudge dice widen the range on both sides, inside the target and up to one of its ends. -/
  | widened (fudge : term.face.isFudge = true) (added : term.sign = .plus)
    (low : after.min = before.min - term.count) (high : after.max = before.max + term.count)
    (inside : target.min ≤ after.min ∧ after.max ≤ target.max)
    (touches : after.min = target.min ∨ after.max = target.max)
    (gain : Fit.deviation before target = Fit.deviation after target + 2 * term.count)

/-- A range that small dice have moved deviates less. -/
theorem Moves.deviation_le {term : Term} {before after : Stats}
    (moves : Moves target term before after) :
    Fit.deviation after target ≤ Fit.deviation before target := by
  cases moves with
  | raised _ _ _ _ gain => omega
  | lowered _ _ _ _ gain => omega
  | widened _ _ _ _ _ _ gain => omega

/-- A formula with a group of small dice behind another one, whose range they move. -/
structure Nudges (target : Target) (old : Formula) (term : Term) (formula : Formula) : Prop where
  /-- The group stands behind the terms that were there. -/
  behind : formula = { old with terms := old.terms ++ [term] }
  /-- There are few dice in it. -/
  few : 1 ≤ term.count ∧ term.count ≤ largestGap
  /-- It moves the range towards the target, and the score does not become lower. -/
  moves : ∃ before after, old.stats = .ok before ∧ formula.stats = .ok after ∧
    Moves target term before after ∧
    ∀ score, Fit.score before target = .ok score →
      ∃ better, Fit.score after target = .ok better ∧ score.le better = true

/-- Few dice that move the range of a formula nudge it. -/
theorem Nudges.of_moves {term : Term} {before after : Stats}
    (behind : formula = { old with terms := old.terms ++ [term] }) (few : term.count ≤ largestGap)
    (known : old.stats = .ok before) (knownToo : formula.stats = .ok after)
    (moves : Moves target term before after) : Nudges target old term formula where
  behind := behind
  few := ⟨term.positive, few⟩
  moves := ⟨before, after, known, knownToo, moves, fun _ scored =>
    Fit.exists_score_le moves.deviation_le scored⟩

/-- A few small dice have finite values. -/
theorem finite_of_isSmall {term : Term} (small : term.face.isSmall = true)
    (few : term.count ≤ largestGap) : term.Finite := by
  have room : 4 < Binary64.reach := by decide +kernel
  have most : largestGap = 4 := rfl
  refine ⟨by omega, ?_⟩
  -- The ends of a small face add up to at most one.
  rcases Bool.or_eq_true_iff.mp small with coin | fudge
  · obtain ⟨low, high⟩ := Face.ends_of_isBinary coin
    rw [low, high]
    omega
  · obtain ⟨low, high⟩ := Face.ends_of_isFudge fudge
    rw [low, high]
    omega

/-- A formula with statistics keeps them when a few small dice are put behind it. -/
theorem exists_stats_append {term : Term} {before : Stats} (known : old.stats = .ok before)
    (small : term.face.isSmall = true) (few : term.count ≤ largestGap) :
    ∃ after, ({ old with terms := old.terms ++ [term] } : Formula).stats = .ok after := by
  obtain ⟨modifier, finite⟩ := Formula.exists_stats_eq_ok.mp ⟨before, known⟩
  refine Formula.exists_stats_eq_ok.mpr ⟨modifier, fun other member => ?_⟩
  -- Statistics fail on a term that is too large, and a few small dice are not.
  rcases List.mem_append.mp member with earlier | last
  · exact finite other earlier
  · rw [List.mem_singleton.mp last]
    exact finite_of_isSmall small few

/-- What small dice extend keeps its statistics, and the range of the new dice is added to them. -/
theorem stats_of_mem_extended {sign : Sign} {face : Face} {gap : Int} {before : Stats}
    (known : old.stats = .ok before) (small : face.isSmall = true)
    (inside : formula ∈ extended old sign face gap) :
    ∃ term after, term.sign = sign ∧ term.face = face ∧ term.count = gap ∧
      term.count ≤ largestGap ∧ formula = { old with terms := old.terms ++ [term] } ∧
      formula.stats = .ok after ∧ after.min = before.min + term.range.1 ∧
      after.max = before.max + term.range.2 := by
  obtain ⟨term, signed, faced, gap, few, rfl⟩ := mem_extended.mp inside
  rw [← gap] at few
  rw [← faced] at small
  obtain ⟨after, knownToo⟩ := exists_stats_append known small few
  -- Both ends are sums over the terms, so the last term adds its own.
  obtain ⟨least, most⟩ := Formula.bounds_of_stats known
  obtain ⟨leastAfter, mostAfter⟩ := Formula.bounds_of_stats knownToo
  refine ⟨term, after, signed, faced, gap, few, rfl, knownToo, ?_, ?_⟩
  · rw [leastAfter, Formula.min_append, least]
  · rw [mostAfter, Formula.max_append, most]

/-- The binary die nudges a formula. -/
theorem nudges_of_withBinary {face : Face} {more : List Formula} (coin : face.isBinary = true)
    (made : withBinary target face old = .ok more) (inside : formula ∈ more) :
    ∃ term, term.face = face ∧ Nudges target old term formula := by
  obtain ⟨before, known, inside⟩ := exists_extended_of_withBinary made inside
  obtain ⟨low, high⟩ := Face.ends_of_isBinary coin
  have small : face.isSmall = true := by simp [Face.isSmall, coin]
  rcases inside with raised | lowered
  · -- Heads add to the upper end only, and as many dice are added as are missing there.
    obtain ⟨term, after, plus, rfl, gap, few, behind, knownToo, least, most⟩ :=
      stats_of_mem_extended known small raised
    simp only [Term.range, plus, low, high] at least most
    refine ⟨term, rfl, .of_moves behind few known knownToo ?_⟩
    refine .raised coin plus (by omega) (by omega) ?_
    unfold Fit.deviation
    omega
  · -- Heads that are taken away lower the lower end only.
    obtain ⟨term, after, minus, rfl, gap, few, behind, knownToo, least, most⟩ :=
      stats_of_mem_extended known small lowered
    simp only [Term.range, minus, low, high] at least most
    refine ⟨term, rfl, .of_moves behind few known knownToo ?_⟩
    refine .lowered coin minus (by omega) (by omega) ?_
    unfold Fit.deviation
    omega

/-- Fudge dice nudge a formula. -/
theorem nudges_of_withFudge {face : Face} {more : List Formula} (fudge : face.isFudge = true)
    (made : withFudge target face old = .ok more) (inside : formula ∈ more) :
    ∃ term, term.face = face ∧ Nudges target old term formula := by
  obtain ⟨before, known, widened⟩ := exists_extended_of_withFudge made inside
  obtain ⟨low, high⟩ := Face.ends_of_isFudge fudge
  obtain ⟨term, after, plus, rfl, gap, few, behind, knownToo, least, most⟩ :=
    stats_of_mem_extended known (by simp [Face.isSmall, fudge]) widened
  simp only [Term.range, plus, low, high] at least most
  -- There are as many dice as the smaller of the two gaps is wide, so both ends stay inside.
  have positive := term.positive
  refine ⟨term, rfl, .of_moves behind few known knownToo ?_⟩
  refine .widened fudge plus (by omega) (by omega) ⟨by omega, by omega⟩ (by omega) ?_
  unfold Fit.deviation
  omega

/-- A group of numeric dice has no small dice in it. -/
theorem IsGroup.isSmall_eq_false (group : IsGroup faces formula) {term : Term}
    (member : term ∈ formula.terms) : term.face.isSmall = false := by
  obtain ⟨-, fudge, coin⟩ := mem_numeric.mp (group.added term member).2
  simp [Face.isSmall, fudge, coin]

/-- A proposal is a group of numeric dice, or such a group that small dice have nudged once. -/
theorem Proposed.group_or_nudged (proposed : Proposed target faces formula) :
    IsGroup faces formula ∨ ∃ old term, Proposed target faces old ∧ IsGroup faces old ∧
      term.face.isSmall = true ∧ Nudges target old term formula := by
  cases proposed with
  | kept grown =>
    cases grown with
    | kept plain => exact .inl plain.isGroup
    | @extended die old _ found plain made inside =>
      have coin := List.find?_some found
      obtain ⟨term, rfl, nudges⟩ := nudges_of_withBinary coin made inside
      exact .inr ⟨old, term, .kept (.kept plain), plain.isGroup, by simp [Face.isSmall, coin],
        nudges⟩
  | @extended die old _ found grown made inside =>
    have fudge := List.find?_some found
    obtain ⟨term, rfl, nudges⟩ := nudges_of_withFudge fudge made inside
    have apart := not_touches_of_withFudge made inside
    cases grown with
    | kept plain =>
      exact .inr ⟨old, term, .kept (.kept plain), plain.isGroup, by simp [Face.isSmall, fudge],
        nudges⟩
    | extended foundToo plain madeToo insideToo =>
      -- The binary die has closed a gap, and Fudge dice need one on both sides.
      exact absurd (withBinary_spec plain.isGroup (List.mem_of_find?_eq_some foundToo)
        (List.find?_some foundToo) madeToo insideToo).2 apart

/--
A proposal has one group of small dice at most, and with one it is another proposal nudged by it.

The binary die closes a gap on one side completely, so nothing that it has extended has a gap on both
sides, which Fudge dice need.
-/
theorem nudges_of_mem {proposals : List Formula} (ok : all target faces = .ok proposals)
    (proposed : formula ∈ proposals) :
    (formula.terms.countP fun term => term.face.isSmall) ≤ 1 ∧
      ∀ term ∈ formula.terms, term.face.isSmall = true →
        ∃ old ∈ proposals, old ≠ formula ∧ Nudges target old term formula := by
  rcases ((mem_all ok).mp proposed).group_or_nudged with group | ⟨old, last, made, group, small, nudges⟩
  · have none : (formula.terms.countP fun term => term.face.isSmall) = 0 :=
      List.countP_eq_zero.mpr fun term member => by simp [group.isSmall_eq_false member]
    refine ⟨by omega, fun term member small => ?_⟩
    rw [group.isSmall_eq_false member] at small
    cases small
  · have none : (old.terms.countP fun term => term.face.isSmall) = 0 :=
      List.countP_eq_zero.mpr fun term member => by simp [group.isSmall_eq_false member]
    have terms : formula.terms = old.terms ++ [last] := by rw [nudges.behind]
    refine ⟨by simp [terms, none, small], fun term member smallToo => ?_⟩
    rw [terms] at member
    rcases List.mem_append.mp member with before | behind
    · rw [group.isSmall_eq_false before] at smallToo
      cases smallToo
    · obtain rfl := List.mem_singleton.mp behind
      refine ⟨old, (mem_all ok).mpr made, ?_, nudges⟩
      -- There is one term more than before.
      rintro rfl
      simp at terms

/-- A die one short on both sides is raised, lowered and widened, and each of these only once. -/
theorem nudges_of_mem_six :
    let coin : Face := .numeric 2 (by decide)
    let six : Face := .numeric 6 (by decide)
    let die : Term := ⟨.plus, 1, six, by decide⟩
    let lowered : Formula := ⟨[die, ⟨.minus, 1, coin, by decide⟩], 1⟩
    let widened : Formula := ⟨[die, ⟨.plus, 1, .fudge, by decide⟩], 1⟩
    let proposals : List Formula := [⟨[die], 1⟩, ⟨[⟨.plus, 2, six, by decide⟩], -2⟩, ⟨[die], 0⟩,
      ⟨[die, ⟨.plus, 1, coin, by decide⟩], 1⟩, lowered,
      ⟨[die, ⟨.plus, 2, coin, by decide⟩], 0⟩, widened]
    all ⟨1, 8⟩ [coin, six, .fudge] = .ok proposals ∧ lowered ∈ proposals ∧ widened ∈ proposals ∧
      (widened.terms.countP fun term => term.face.isSmall) ≤ 1 ∧
      (∃ old ∈ proposals, old ≠ lowered ∧
        Nudges ⟨1, 8⟩ old ⟨.minus, 1, coin, by decide⟩ lowered) ∧
      ∃ old ∈ proposals, old ≠ widened ∧
        Nudges ⟨1, 8⟩ old ⟨.plus, 1, .fudge, by decide⟩ widened := by
  intro coin six die lowered widened proposals
  have ok : all ⟨1, 8⟩ [coin, six, .fudge] = .ok proposals := by decide +kernel
  have first : lowered ∈ proposals := by simp [proposals]
  have second : widened ∈ proposals := by simp [proposals]
  exact ⟨ok, first, second, (nudges_of_mem ok second).1,
    (nudges_of_mem ok first).2 _ (by simp [lowered]) rfl,
    (nudges_of_mem ok second).2 _ (by simp [widened]) rfl⟩

end Proposal

end DiceLab
