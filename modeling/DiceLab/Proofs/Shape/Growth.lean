import DiceLab.Proofs.Shape

/-! The score of a shape grows with every die that is added, until it is the highest. -/

namespace DiceLab

namespace Term

/-- A term has dice with one die more. -/
theorem raised_positive (term : Term) : 0 < term.count + 1 := Nat.succ_pos term.count

/-- A term with one die more. -/
def raise (term : Term) : Term :=
  { term with count := term.count + 1, positive := term.raised_positive }

/-- A term of one die. -/
def single (sign : Sign) (face : Face) : Term := ⟨sign, 1, face, Nat.one_pos⟩

end Term

/-- The second formula is the first one with one die more, whatever its face and its sign. -/
inductive Formula.AddsDie : Formula → Formula → Prop where
  /-- One of the terms gets another die. -/
  | raised (before after : List Term) (term : Term) (modifier : Int) :
      AddsDie ⟨before ++ term :: after, modifier⟩ ⟨before ++ term.raise :: after, modifier⟩
  /-- The die is a term of its own, somewhere among the others. -/
  | inserted (before after : List Term) (sign : Sign) (face : Face) (modifier : Int) :
      AddsDie ⟨before ++ after, modifier⟩ ⟨before ++ Term.single sign face :: after, modifier⟩

namespace Formula.AddsDie

variable {formula more : Formula} (adds : formula.AddsDie more)

include adds

/-- There is one die more. -/
theorem diceCount_eq : more.diceCount = formula.diceCount + 1 := by
  cases adds with
  -- The terms before and after the change stay, so only one count differs by one.
  | raised before after term modifier =>
    simp only [diceCount, List.map_append, List.map_cons, naturalTotal_append, naturalTotal_cons,
      Term.raise]
    omega
  | inserted before after sign face modifier =>
    simp only [diceCount, List.map_append, List.map_cons, naturalTotal_append, naturalTotal_cons,
      Term.single]
    omega

/-- No kind of face is lost. -/
theorem kinds_le : Shape.kinds formula ≤ Shape.kinds more := by
  -- No face is lost, so the set of faces can only grow.
  apply Finset.card_le_card
  intro face
  cases adds with
  | raised before after term modifier => simp [Term.raise]
  | inserted before after sign other modifier =>
    simp only [List.map_append, List.map_cons, List.mem_toFinset, List.mem_append, List.mem_cons]
    rintro (first | later)
    · exact .inl first
    · exact .inr (.inr later)

/-- A die is worth more than its face can take away, unless there are no more twentieths to get. -/
theorem points_grow (some : 0 < formula.diceCount) :
    Shape.points formula + 4 ≤ Shape.points more ∨ Shape.points more = 40 := by
  have dice := adds.diceCount_eq
  have kinds := adds.kinds_le
  -- Ten twentieths come with the die, and at most six go with the mean of the faces.
  have taken := Shape.deduction_mem more.diceCount (Shape.faceTotal more)
  simp only [List.mem_cons, List.not_mem_nil, or_false] at taken
  unfold Shape.points
  omega

/-- So no twentieth is lost. -/
theorem points_le : Shape.points formula ≤ Shape.points more := by
  rcases Nat.eq_zero_or_pos formula.diceCount with none | some
  · -- A formula without dice has no points to lose.
    rw [Shape.points_eq_zero.mpr (by omega)]
    exact Nat.zero_le _
  · have grows := adds.points_grow some
    have few := Shape.points_le formula
    omega

end Formula.AddsDie

namespace Shape

open Binary64 (ofRatio)

variable {formula more : Formula} {score higher : Binary64}

/-- How far a shape is from a flat one. -/
def steepness : Shape → Nat
  | .flat => 0
  | .somewhatBell => 1
  | .bell => 2

/-- More twentieths are not a flatter shape. -/
theorem steepness_mono {points others : Nat} (le : points ≤ others) (few : others ≤ 40) :
    (classify (.real (ofRatio false points 20))).steepness ≤
      (classify (.real (ofRatio false others 20))).steepness := by
  rw [classify_twentieths (Nat.le_trans le few), classify_twentieths few]
  -- More points do not fall back behind a threshold.
  split_ifs
  all_goals simp only [steepness]
  all_goals omega

/--
A formula with one die more does not score lower, and its shape is no flatter.

It scores higher wherever there is a die already and the score is not the highest: a large face takes
away less than its die brings along.
-/
theorem score_grows (adds : formula.AddsDie more) (ok : Shape.score formula = .ok score)
    (moreOk : Shape.score more = .ok higher) :
    score.le higher = true ∧
      (0 < formula.diceCount → score.lt highest = true → score.lt higher = true) ∧
      (classify (.real score)).steepness ≤ (classify (.real higher)).steepness := by
  have few := points_le formula
  have moreFew := points_le more
  rw [score_eq_points ok, score_eq_points moreOk, inTwentieths.highest,
    Binary64.twentieths_lt_iff few (by decide), Binary64.twentieths_lt_iff few moreFew]
  refine ⟨?_, ?_, steepness_mono adds.points_le moreFew⟩
  · have number (points : Nat) : ofRatio false points 20 ≠ .nan := Binary64.ofUnits_ne_nan _ _ _
    rw [Binary64.le_iff_place (number _) (number _)]
    exact Binary64.place_ofRatio_le (by decide) (by decide) (Nat.mul_le_mul_right 20 adds.points_le)
  · intro some below
    have grows := adds.points_grow some
    omega

/-- A large die beside three small ones brings a penalty along, and yet they score higher. -/
theorem score_grows_large :
    let formula : Formula := ⟨[⟨.plus, 3, .numeric 4 (by decide), by decide⟩], 1⟩
    let more : Formula :=
      ⟨[⟨.plus, 3, .numeric 4 (by decide), by decide⟩, .single .minus (.numeric 100 (by decide))], 1⟩
    formula.AddsDie more ∧ flattening formula < flattening more ∧
      ∃ score higher, Shape.score formula = .ok score ∧ Shape.score more = .ok higher ∧
        score.lt higher = true := by
  intro formula more
  have adds : formula.AddsDie more := .inserted formula.terms [] _ _ _
  have counts : formula.diceCount = 3 ∧ faceTotal formula = 12 := by decide
  have moreCounts : more.diceCount = 4 ∧ faceTotal more = 112 := by decide
  have limit := Binary64.thousand_lt_reach
  obtain ⟨score, ok⟩ : ∃ score, Shape.score formula = .ok score :=
    exists_score_eq_ok.mpr fun _ => by
      rw [counts.1, counts.2]
      omega
  obtain ⟨higher, moreOk⟩ : ∃ higher, Shape.score more = .ok higher :=
    exists_score_eq_ok.mpr fun _ => by
      rw [moreCounts.1, moreCounts.2]
      omega
  have below : score.lt highest = true := by
    rw [score_eq_points ok, inTwentieths.highest, Binary64.twentieths_lt_iff (points_le formula) (by decide)]
    decide
  have larger : flattening formula < flattening more := by decide +kernel
  obtain ⟨-, grows, -⟩ := score_grows adds ok moreOk
  exact ⟨adds, larger, score, higher, ok, moreOk, grows (by decide) below⟩

end Shape

end DiceLab
