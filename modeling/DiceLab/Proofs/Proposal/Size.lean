import DiceLab.Proofs.Binary64.Within
import DiceLab.Proofs.Candidate.Scorable
import DiceLab.Proofs.Proposal.Dice

/-! Proposals are made whenever the target and the faces leave some room below the bound of the
finite values, and they are not much larger than these. -/

namespace DiceLab

open Binary64 (reach scale)

/-- A face that is not large has a mean, which is not large either. -/
theorem Face.exists_mean_within {face : Face} {bound : Nat} (few : face.count ≤ bound)
    (below : bound < reach) : ∃ mean, face.mean = .ok mean ∧ mean.Within (2 * bound) := by
  obtain ⟨low, high⟩ := face.natAbs_le_count
  apply exists_wholeQuotient_within two_ne_zero _ below (by decide +kernel)
  show (face.low + face.high).natAbs ≤ bound * 2
  omega

/-- A face whose number of sides, if it has one, has few binary digits. -/
def Face.IsShort : Face → Prop
  | .numeric sides _ => sides ≤ twoTo 50
  | .fudge => True

instance : (face : Face) → Decidable face.IsShort
  | .numeric sides _ => Nat.decLe sides (twoTo 50)
  | .fudge => instDecidableTrue

namespace Formula

variable {formula : Formula} {bound : Nat}

/-- The dice have no more values than if each of them had as many as the largest face may have. -/
theorem faceTotal_le (few : ∀ term ∈ formula.terms, term.face.count ≤ bound) :
    Shape.faceTotal formula ≤ formula.diceCount * bound := by
  -- The modifier shows no values, so the induction is on the terms alone.
  obtain ⟨terms, modifier⟩ := formula
  induction terms with
  | nil => exact Nat.zero_le _
  | cons term rest ih =>
    rw [List.forall_mem_cons] at few
    have first := Nat.mul_le_mul_left term.count few.1
    have others := ih few.2
    simp only [Shape.faceTotal, diceCount, List.map_cons, naturalTotal_cons] at others ⊢
    rw [Nat.add_mul]
    omega

/-- A formula that is not large has statistics. -/
theorem exists_stats_of_size (small : 2 * formula.size < reach) :
    ∃ stats, formula.stats = .ok stats := by
  have scorable : formula.Scorable ⟨0, 0⟩ := scorable_of_size (by simpa using small)
  exact exists_stats_eq_ok.mpr ⟨scorable.modifier, scorable.terms⟩

end Formula

namespace Proposal

/-- A target and faces that are not large. -/
structure Small (bound : Nat) (target : Target) (faces : List Face) : Prop where
  ends : target.min.natAbs ≤ bound ∧ target.max.natAbs ≤ bound
  values : ∀ face ∈ faces, face.count ≤ bound
  positive : 1 ≤ bound
  room : 1000 * bound < reach

variable {bound : Nat} {target : Target} {faces : List Face} {formula : Formula}

/-- What is not large against a bound is not large against a larger one that leaves room. -/
theorem Small.mono {larger : Nat} (small : Small bound target faces) (le : bound ≤ larger)
    (room : 1000 * larger < reach) : Small larger target faces where
  ends := ⟨Nat.le_trans small.ends.1 le, Nat.le_trans small.ends.2 le⟩
  values := fun face offered => Nat.le_trans (small.values face offered) le
  positive := Nat.le_trans small.positive le
  room := room

/-- The order of the ends makes no difference to how large they are. -/
theorem Small.ordered (small : Small bound target faces) : Small bound target.ordered faces where
  ends := by
    have ends := small.ends
    unfold Target.ordered
    dsimp only
    omega
  values := small.values
  positive := small.positive
  room := small.room

/-- A target and faces whose numbers have few binary digits. -/
structure Short (target : Target) (faces : List Face) : Prop where
  ends : target.min.natAbs ≤ twoTo 50 ∧ target.max.natAbs ≤ twoTo 50
  sides : ∀ face ∈ faces, face.IsShort

/-- What has few digits is not large. -/
theorem Short.small (short : Short target faces) : Small (twoTo 50) target faces where
  ends := short.ends
  values := by
    intro face offered
    have few := short.sides face offered
    cases face with
    | fudge => exact Nat.le_trans (by decide) (twoTo_le (show 2 ≤ 50 by decide))
    | numeric sides positive =>
      rw [Face.count_numeric]
      exact few
  positive := twoTo_pos _
  room := by decide +kernel

/-- Each mean that is added at most doubles what was there with four bounds more. -/
theorem exists_foldlM_mean_within {dice : List Face} {total : Binary64} {start : Nat}
    (within : total.Within start) (few : ∀ face ∈ dice, face.count ≤ bound)
    (room : twoTo dice.length * (start + 4 * bound) < reach) :
    ∃ mean, dice.foldlM (fun total face => do return total.add (← face.mean)) total =
        Except.ok mean ∧
      mean.Within (twoTo dice.length * (start + 4 * bound)) := by
  -- The total grows from face to face, so it stays quantified over.
  induction dice generalizing total start with
  | nil => exact ⟨total, rfl, within.mono (by simp [twoTo])⟩
  | cons face rest ih =>
    rw [List.forall_mem_cons] at few
    have double : twoTo (face :: rest).length * (start + 4 * bound) =
        twoTo rest.length * (2 * (start + 2 * bound) + 4 * bound) := by
      rw [List.length_cons, twoTo_add, Nat.mul_assoc]
      congr 1
      show 2 * (start + 4 * bound) = _
      omega
    rw [double] at room ⊢
    have sum := Nat.lt_of_le_of_lt (Nat.le_mul_of_pos_left _ (twoTo_pos rest.length)) room
    obtain ⟨mean, known, small⟩ := Face.exists_mean_within few.1 (by omega)
    obtain ⟨last, others, grown⟩ := ih (within.add small (by omega)) few.2 room
    rw [List.foldlM_cons, known]
    exact ⟨last, others, grown⟩

/-- One or two dice are centred, and the modifier is not large. -/
theorem Small.exists_centered (small : Small bound target faces) {average : Binary64}
    (middle : average.Within (2 * bound)) {dice : List Face} (offered : dice ⊆ faces)
    (few : dice.length ≤ 2) :
    ∃ formula, centered average dice = .ok formula ∧ formula.modifier.natAbs ≤ 76 * bound := by
  have room := small.room
  have positive := small.positive
  -- Each of two additions at most doubles what is there, and so does the subtraction behind them.
  have pair : twoTo dice.length ≤ 4 := twoTo_le few
  have sum : twoTo dice.length * (0 + 4 * bound) ≤ 4 * (0 + 4 * bound) :=
    Nat.mul_le_mul_right _ pair
  obtain ⟨mean, known, meanWithin⟩ := exists_foldlM_mean_within (Binary64.within_zero false)
    (fun face member => small.values face (offered member)) (by omega)
  have apart := middle.sub (meanWithin.mono sum) (by omega)
  obtain ⟨modifier, rounded, near⟩ := apart.exists_roundHalfUp (by omega)
  refine ⟨⟨oneEach dice, modifier⟩, ?_, ?_⟩
  · unfold centered meanSum
    rw [bind_eq_ok]
    refine ⟨mean, known, ?_⟩
    rw [rounded]
    rfl
  · show modifier.natAbs ≤ 76 * bound
    omega

/-- The width of a target is measured by that of a face that is among the offered ones. -/
theorem Small.exists_ratio (small : Small bound target faces) {face : Face} (offered : face ∈ faces)
    (several : 2 ≤ face.count) :
    ∃ ratio, wholeQuotient (target.max - target.min) (face.high - face.low) = .ok ratio ∧
      ratio.Within (2 * (2 * bound)) := by
  have room := small.room
  have ends := small.ends
  have order := face.low_le_high
  have values := small.values face offered
  have count : (face.high - face.low + 1).toNat = face.count := rfl
  have wide : face.high - face.low ≠ 0 := by omega
  -- Dividing by a range of at least one makes nothing larger.
  have numerator : (target.max - target.min).natAbs ≤
      2 * bound * (face.high - face.low).natAbs := by
    have one : 1 ≤ (face.high - face.low).natAbs := by omega
    have scaled := Nat.mul_le_mul_left (2 * bound) one
    omega
  have normal : twoTo 52 * (face.high - face.low).natAbs ≤ scale := by
    have power : twoTo 52 * reach ≤ 1000 * scale := by decide +kernel
    have inside : 1000 * (face.high - face.low).natAbs ≤ reach := by omega
    have scaled := Nat.mul_le_mul_left (twoTo 52) inside
    rw [Nat.mul_left_comm] at scaled
    omega
  exact exists_wholeQuotient_within wide numerator (by omega) normal

/-- Whether the dice of one face span a target is settled, and the modifier is not large. -/
theorem Small.exists_spanning (small : Small bound target faces) {face : Face}
    (offered : face ∈ faces) :
    ∃ found, spanning target face = .ok found ∧
      ∀ formula, found = some formula → formula.modifier.natAbs ≤ 76 * bound := by
  unfold spanning
  split
  · exact ⟨none, rfl, by simp⟩
  · rename_i several
    have room := small.room
    have one := small.positive
    have ends := small.ends
    obtain ⟨ratio, known, within⟩ := small.exists_ratio offered (Nat.not_lt.mp several)
    obtain ⟨whole, rounded, -⟩ := within.exists_roundHalfUp (by omega)
    -- However wide the target is, there are at most ten dice.
    have most : (max 1 (min mostDice whole)).toNat ≤ 10 := by
      unfold mostDice
      omega
    have positive : 0 < (max 1 (min mostDice whole)).toNat := by omega
    refine ⟨some ⟨[⟨.plus, _, face, positive⟩], _⟩, bind_eq_ok.mpr ⟨ratio, known,
      bind_eq_ok.mpr ⟨whole, rounded, dif_pos positive⟩⟩, ?_⟩
    intro formula made
    obtain rfl := Option.some.inj made
    show (target.min - (max 1 (min mostDice whole)).toNat * face.low).natAbs ≤ 76 * bound
    generalize (max 1 (min mostDice whole)).toNat = count at most
    -- The modifier moves so many dice from their least total to the end of the target.
    have low := Nat.le_trans face.natAbs_le_count.1 (small.values face offered)
    have shift := Nat.mul_le_mul most low
    rw [← Int.natAbs_natCast count, ← Int.natAbs_mul] at shift
    omega

/-- The middle of a target that is not large. -/
theorem Small.exists_middle (small : Small bound target faces) :
    ∃ average, wholeQuotient (target.min + target.max) 2 = .ok average ∧
      average.Within (2 * bound) := by
  have room := small.room
  have ends := small.ends
  apply exists_wholeQuotient_within two_ne_zero _ (by omega) (by decide +kernel)
  -- Half the sum of two ends that stay within the bound stays within it as well.
  show (target.min + target.max).natAbs ≤ bound * 2
  omega

/-- A numeric face is one of the faces. -/
theorem single_subset {face : Face} (offered : face ∈ numeric faces) : [face] ⊆ faces :=
  List.cons_subset.mpr ⟨(mem_numeric.mp offered).1, List.nil_subset _⟩

/-- Both of a pair of numeric faces are among the faces. -/
theorem double_subset {pair : Face × Face} (offered : pair ∈ pairs (numeric faces)) :
    [pair.1, pair.2] ⊆ faces := by
  obtain ⟨first, second⟩ := mem_of_mem_pairs offered
  exact List.cons_subset.mpr ⟨(mem_numeric.mp first).1, single_subset second⟩

/-- Plain proposals have modifiers that are not large. -/
theorem Plain.modifier_le (small : Small bound target faces) (plain : Plain target faces formula) :
    formula.modifier.natAbs ≤ 76 * bound := by
  obtain ⟨middle, known, near⟩ := small.exists_middle
  -- Each way of making a plain proposal gives one formula only, whose modifier is bounded.
  cases plain with
  | single average offered made =>
    obtain rfl := Except.ok.inj (known.symm.trans average)
    obtain ⟨other, centred, bounded⟩ :=
      small.exists_centered near (single_subset offered) (by simp)
    obtain rfl := Except.ok.inj (centred.symm.trans made)
    exact bounded
  | double average offered made =>
    obtain rfl := Except.ok.inj (known.symm.trans average)
    obtain ⟨other, centred, bounded⟩ :=
      small.exists_centered near (double_subset offered) (by simp)
    obtain rfl := Except.ok.inj (centred.symm.trans made)
    exact bounded
  | span offered made =>
    obtain ⟨found, spanned, bounded⟩ := small.exists_spanning (mem_numeric.mp offered).1
    obtain rfl := Except.ok.inj (spanned.symm.trans made)
    exact bounded formula rfl

/-- No proposal is much larger than the target and the faces. -/
theorem Proposed.size_le (small : Small bound target faces)
    (proposed : Proposed target faces formula) : formula.size ≤ 90 * bound := by
  -- Neither extension touches the modifier, so it is that of the plain proposal below both.
  have modifier : formula.modifier.natAbs ≤ 76 * bound :=
    proposed.induction (motive := fun formula => formula.modifier.natAbs ≤ 76 * bound)
      (Plain.modifier_le small) id
  have keeps := proposed.keepsTo
  have values := Formula.faceTotal_le fun term member =>
    small.values term.face (keeps.offered term member)
  -- There are at most fourteen dice.
  have most : formula.diceCount ≤ 14 := by
    have limit : mostDice + largestGap = 14 := rfl
    have few := keeps.most
    omega
  have dice := Nat.mul_le_mul_right bound most
  unfold Formula.size
  omega

/-- Extensions are made when each proposal can be extended. -/
theorem exists_extendAll {face : Option Face}
    {extend : Face → Formula → Except Failure (List Formula)} {proposals : List Formula}
    (each : ∀ die formula, formula ∈ proposals → ∃ more, extend die formula = .ok more) :
    ∃ grown, extendAll face extend proposals = .ok grown := by
  unfold extendAll
  cases face with
  | none => exact ⟨proposals, rfl⟩
  | some die =>
    -- A walk over the proposals fails only where a single extension does.
    obtain ⟨added, walked⟩ := exists_mapM_eq_ok (extend die) (each die)
    simp only [walked]
    exact ⟨_, rfl⟩

/-- A proposal for a target that is not large has statistics. -/
theorem Proposed.exists_stats (small : Small bound target faces)
    (proposed : Proposed target faces formula) : ∃ stats, formula.stats = .ok stats := by
  have room := small.room
  have size := proposed.size_le small
  exact Formula.exists_stats_of_size (by omega)

/-- A proposal for a target that is not large can be scored. -/
theorem Proposed.exists_candidate (small : Small bound target faces)
    (proposed : Proposed target faces formula) :
    ∃ candidate, Candidate.ofFormula formula target = .ok candidate := by
  have room := small.room
  have ends := small.ends
  have size := proposed.size_le small
  -- Only a formula that is too large cannot be scored.
  exact Candidate.exists_ofFormula_eq_ok.mpr (Formula.scorable_of_size (by omega))

/-- One face at a time is centred. -/
theorem Small.exists_singles (small : Small bound target faces) {average : Binary64}
    (near : average.Within (2 * bound)) :
    ∃ singles, (numeric faces).mapM (fun face => centered average [face]) = .ok singles := by
  apply exists_mapM_eq_ok
  intro face member
  obtain ⟨formula, made, -⟩ := small.exists_centered near (single_subset member) (by simp)
  exact ⟨formula, made⟩

/-- Two faces at a time are centred. -/
theorem Small.exists_doubles (small : Small bound target faces) {average : Binary64}
    (near : average.Within (2 * bound)) :
    ∃ doubles, (pairs (numeric faces)).mapM
      (fun pair : Face × Face => centered average [pair.1, pair.2]) = .ok doubles := by
  apply exists_mapM_eq_ok
  intro pair member
  obtain ⟨formula, made, -⟩ := small.exists_centered near (double_subset member) (by simp)
  exact ⟨formula, made⟩

/-- Each face is tried for spanning the target. -/
theorem Small.exists_spans (small : Small bound target faces) :
    ∃ spans, (numeric faces).mapM (spanning target) = .ok spans := by
  apply exists_mapM_eq_ok
  intro face member
  obtain ⟨found, made, -⟩ := small.exists_spanning (mem_numeric.mp member).1
  exact ⟨found, made⟩

/-- Every target that is not large has its proposals. -/
theorem Small.exists_all (small : Small bound target faces) :
    ∃ proposals, all target faces = .ok proposals := by
  obtain ⟨average, middle, near⟩ := small.exists_middle
  obtain ⟨singles, singlesMade⟩ := small.exists_singles near
  obtain ⟨doubles, doublesMade⟩ := small.exists_doubles near
  obtain ⟨spans, spansMade⟩ := small.exists_spans
  have plain {formula : Formula} :
      formula ∈ singles ++ doubles ++ spans.filterMap id ↔ Plain target faces formula :=
    mem_plain middle singlesMade doublesMade spansMade
  -- Whatever is extended is a proposal itself, and so has statistics.
  have raise (die : Face) (formula : Formula)
      (member : formula ∈ singles ++ doubles ++ spans.filterMap id) :
      ∃ more, withBinary target die formula = .ok more := by
    have proposed : Proposed target faces formula := .kept (.kept (plain.mp member))
    obtain ⟨stats, found⟩ := proposed.exists_stats small
    exact ⟨_, bind_eq_ok.mpr ⟨stats, found, rfl⟩⟩
  obtain ⟨raised, raisedMade⟩ : ∃ raised, extendAll (faces.find? Face.isBinary)
      (withBinary target) (singles ++ doubles ++ spans.filterMap id) = .ok raised :=
    exists_extendAll raise
  have widen (die : Face) (formula : Formula) (member : formula ∈ raised) :
      ∃ more, withFudge target die formula = .ok more := by
    have grown := (mem_extendAll raisedMade).mp member
    have proposed : Proposed target faces formula :=
      .kept (grown.imp (fun _ => id) fun _ => plain.mp)
    obtain ⟨stats, found⟩ := proposed.exists_stats small
    exact ⟨_, bind_eq_ok.mpr ⟨stats, found, rfl⟩⟩
  obtain ⟨grown, grownMade⟩ : ∃ grown, extendAll (faces.find? Face.isFudge)
      (withFudge target) raised = .ok grown := exists_extendAll widen
  exact ⟨grown, bind_eq_ok.mpr ⟨average, middle, bind_eq_ok.mpr ⟨singles, singlesMade,
    bind_eq_ok.mpr ⟨doubles, doublesMade, bind_eq_ok.mpr ⟨spans, spansMade,
      bind_eq_ok.mpr ⟨raised, raisedMade, grownMade⟩⟩⟩⟩⟩⟩

end Proposal

end DiceLab
