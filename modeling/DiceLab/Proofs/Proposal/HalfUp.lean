import DiceLab.Proofs.Binary64.HalfUp
import DiceLab.Proofs.Proposal.Dice

/-! How proposals are rounded: modifiers follow the nearest whole number where the half is added exactly
enough, and numbers of dice always do. -/

namespace DiceLab

/-- A number held within bounds that leave out all that slips is that of the nearest whole number. -/
theorem RoundsUp.exists_held {number : ℚ} {whole : Int} (rounds : RoundsUp number whole) {most : Int}
    (few : most ≤ (twoTo 52 : Int)) :
    ∃ nearest, IsHalfUp number nearest ∧ max 1 (min most nearest) = max 1 (min most whole) := by
  by_cases slips : Slips number
  · refine ⟨whole - 1, (rounds.behind slips _).mpr rfl, ?_⟩
    have floor := isHalfUp_iff.mp ((rounds.behind slips _).mpr rfl)
    rcases slips with last | ⟨other, rfl, odd, large, -⟩
    · -- Both zero and one are raised to the lower bound, or are that bound.
      have zero : whole - 1 = 0 := by
        rw [floor, last]
        norm_num [twoTo]
      omega
    · -- A number that large lies beyond one of the bounds, and so does the next one.
      rw [floor_whole_add_half] at floor
      omega
  · exact ⟨whole, (rounds.nearest slips _).mpr rfl, rfl⟩

namespace Proposal

variable {target : Target} {faces : List Face} {formula : Formula}

/-- What is rounded for a proposal of numeric faces alone. -/
inductive RoundedUp (target : Target) (faces : List Face) (formula : Formula) : Prop where
  /-- One die of each face has the modifier that is missing to the middle of the target. -/
  | modifier {average mean : Binary64} {dice : List Face} {number : ℚ}
    (offered : ∀ face ∈ dice, face ∈ numeric faces) (terms : formula.terms = oneEach dice)
    (middle : wholeQuotient (target.min + target.max) 2 = .ok average)
    (means : meanSum dice = .ok mean) (missing : (average.sub mean).Is number)
    (rounds : RoundsUp number formula.modifier)
  /-- Dice of one face are as many as cover the width of the target, held within their bounds. -/
  | count {ratio : Binary64} {face : Face} {number : ℚ} {nearest : Int}
    (offered : face ∈ numeric faces)
    (widths : wholeQuotient (target.max - target.min) (face.high - face.low) = .ok ratio)
    (is : ratio.Is number) (rounds : IsHalfUp number nearest)
    (terms : ∃ positive,
      formula.terms = [⟨.plus, (max 1 (min mostDice nearest)).toNat, face, positive⟩])

/-- The modifier of centred dice is rounded. -/
theorem roundedUp_of_centered {average : Binary64} {dice : List Face}
    (offered : ∀ face ∈ dice, face ∈ numeric faces)
    (middle : wholeQuotient (target.min + target.max) 2 = .ok average)
    (made : centered average dice = .ok formula) : RoundedUp target faces formula := by
  have terms := terms_of_centered made
  -- The modifier is what was rounded last, from the distance between the two averages.
  obtain ⟨mean, means, made⟩ := bind_eq_ok.mp made
  obtain ⟨modifier, rounded, made⟩ := bind_eq_ok.mp made
  obtain ⟨number, is, rounds⟩ := Binary64.roundsUp_of_roundHalfUp rounded
  obtain rfl := Except.ok.inj made
  exact .modifier offered terms middle means is rounds

/-- The number of dice that cover a target is rounded. -/
theorem roundedUp_of_spanning {face : Face} (offered : face ∈ numeric faces)
    (made : spanning target face = .ok (some formula)) : RoundedUp target faces formula := by
  obtain ⟨ratio, whole, positive, widths, rounded, rfl⟩ := exists_of_spanning made
  obtain ⟨number, is, rounds⟩ := Binary64.roundsUp_of_roundHalfUp rounded
  -- The bounds on the number of dice leave out all that slips.
  obtain ⟨nearest, halfUp, held⟩ := rounds.exists_held (show mostDice ≤ (twoTo 52 : Int) by decide)
  simp only [← held] at positive ⊢
  exact .count offered widths is halfUp ⟨positive, rfl⟩

/-- Whatever is proposed of numeric faces alone has been rounded. -/
theorem Plain.roundedUp (plain : Plain target faces formula) : RoundedUp target faces formula := by
  cases plain with
  | single middle offered made => exact roundedUp_of_centered (by simpa using offered) middle made
  | double middle offered made =>
    exact roundedUp_of_centered (by simpa using mem_of_mem_pairs offered) middle made
  | span offered made => exact roundedUp_of_spanning offered made

/--
Every finite value is rounded to its nearest whole number, a half upwards, unless the sum with the half
slips to the number behind that.

A whole number is its own nearest one: it comes back when binary64 has it and it does not slip. In what
is proposed for a target, however far from zero, a modifier can slip and a number of dice cannot.
-/
theorem roundHalfUp_account (value : Binary64) (whole : Int) (target : Target) (faces : List Face)
    (formula : Formula) :
    (∀ number, value.Is number →
      ∃ rounded, (Number.real value).roundHalfUp = .ok rounded ∧ RoundsUp number rounded) ∧
    WholeRoundsUp whole ∧
    (Plain target faces formula → RoundedUp target faces formula) := by
  refine ⟨?_, wholeRoundsUp whole, Plain.roundedUp⟩
  intro number is
  exact is.exists_roundsUp

/-- The first odd number with 53 digits slips, a number of 31 digits is converted, and the modifier of a
die of five sides that is centred on a large number slips. -/
theorem roundHalfUp_account_odd :
    let five : Face := .numeric 5 (by decide)
    let target : Target := ⟨2 ^ 52 + 4, 2 ^ 52 + 4⟩
    let formula : Formula := ⟨[⟨.plus, 1, five, by decide⟩], 2 ^ 52 + 2⟩
    ((Binary64.ofInt (2 ^ 52 + 1)).Is (2 ^ 52 + 1 : Int) ∧
      ∃ whole, (Number.real (.ofInt (2 ^ 52 + 1))).roundHalfUp = .ok whole ∧
        RoundsUp (2 ^ 52 + 1 : Int) whole) ∧
    WholeRoundsUp (-(10 ^ 30)) ∧
    (Plain target [five] formula ∧ RoundedUp target [five] formula) := by
  intro five target formula
  have is : (Binary64.ofInt (2 ^ 52 + 1)).Is (2 ^ 52 + 1 : Int) :=
    Binary64.ofInt_is (by decide)
  have middle : wholeQuotient (target.min + target.max) 2 = .ok (.ofInt (2 ^ 52 + 4)) := by
    decide +kernel
  have plain : Plain target [five] formula :=
    .single middle (List.mem_singleton.mpr rfl) (by decide +kernel)
  obtain ⟨rounds, whole, proposed⟩ :=
    roundHalfUp_account (.ofInt (2 ^ 52 + 1)) (-(10 ^ 30)) target [five] formula
  exact ⟨⟨is, rounds _ is⟩, whole, plain, proposed plain⟩

/-- An odd whole number with 53 digits is its own nearest whole number and yet becomes the next one. -/
theorem roundHalfUp_odd :
    let odd : Int := 2 ^ 52 + 1
    (Binary64.ofInt odd).Is odd ∧ IsHalfUp odd odd ∧ ¬IsHalfUp odd (odd + 1) ∧
      (Number.real (.ofInt odd)).roundHalfUp = .ok (odd + 1) ∧
      (Number.whole odd).roundHalfUp = .ok (odd + 1) := by
  intro odd
  have own : IsHalfUp odd odd := isHalfUp_iff.mpr (floor_whole_add_half odd).symm
  refine ⟨Binary64.ofInt_is (by decide), own, ?_, by decide +kernel, by decide +kernel⟩
  intro next
  have same := isHalfUp_iff.mp next
  rw [floor_whole_add_half] at same
  omega

end Proposal

end DiceLab
