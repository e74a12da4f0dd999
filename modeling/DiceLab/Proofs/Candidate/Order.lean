import DiceLab.Candidate
import DiceLab.Proofs.Binary64.Order
import DiceLab.Proofs.Repetition
import DiceLab.Proofs.Text.Order
import Mathlib.Data.Prod.Lex

/-! Scored candidates with different texts stand in one order only. -/

namespace DiceLab.Candidate

/--
One candidate ranks strictly before another.

The better fit comes first, then the flatter shape, then the text with the smaller code points.
-/
def Before (first second : Candidate) : Prop :=
  second.fitScore.lt first.fitScore = true ∨
    first.fitScore = second.fitScore ∧
      (first.shapeScore.lt second.shapeScore = true ∨
        first.shapeScore = second.shapeScore ∧ first.text.numbers < second.text.numbers)

instance (first second : Candidate) : Decidable (first.Before second) :=
  inferInstanceAs (Decidable (_ ∨ _))

/-- A candidate whose scores are numbers that are no less than zero. -/
structure Scored (candidate : Candidate) : Prop where
  fit : candidate.fitScore.Nonnegative
  shape : candidate.shapeScore.Nonnegative

/-- What a candidate is ranked by: the greater fit is put first by turning its order round. -/
def rankKey (candidate : Candidate) :
    (WithBot (WithTop ℤ))ᵒᵈ ×ₗ WithBot (WithTop ℤ) ×ₗ List ℕ :=
  toLex (.toDual candidate.fitScore.place,
    toLex (candidate.shapeScore.place, candidate.text.numbers))

variable {first second : Candidate}

/-- The order of scored candidates is the order of what they are ranked by. -/
theorem before_iff_rankKey (scored : first.Scored) (other : second.Scored) :
    first.Before second ↔ first.rankKey < second.rankKey := by
  -- Equal scores are scores in one place, since none of them carries a minus.
  have fit : first.fitScore = second.fitScore ↔ first.fitScore.place = second.fitScore.place :=
    ⟨congrArg _, scored.fit.place_injective other.fit⟩
  have shape : first.shapeScore = second.shapeScore ↔
      first.shapeScore.place = second.shapeScore.place :=
    ⟨congrArg _, scored.shape.place_injective other.shape⟩
  simp only [Before, rankKey, Prod.Lex.toLex_lt_toLex, OrderDual.toDual_lt_toDual,
    OrderDual.toDual_inj, Binary64.lt_iff_place other.fit.ne_nan scored.fit.ne_nan,
    Binary64.lt_iff_place scored.shape.ne_nan other.shape.ne_nan, fit, shape]

/-- One scored candidate may stand before another unless that is ranked by something smaller. -/
theorem inOrder_iff_rankKey (scored : first.Scored) (other : second.Scored) :
    first.inOrder second = true ↔ first.rankKey ≤ second.rankKey := by
  simp only [inOrder, rankKey, Prod.Lex.toLex_le_toLex, OrderDual.toDual_lt_toDual,
    OrderDual.toDual_inj, Binary64.lt_iff_place scored.fit.ne_nan other.fit.ne_nan,
    Binary64.lt_iff_place other.fit.ne_nan scored.fit.ne_nan,
    Binary64.lt_iff_place scored.shape.ne_nan other.shape.ne_nan,
    Binary64.lt_iff_place other.shape.ne_nan scored.shape.ne_nan]
  -- The fits decide unless they are equal, and then the shapes do unless they are.
  rcases lt_trichotomy second.fitScore.place first.fitScore.place with better | sameFit | worse
  · simp [better]
  · rcases lt_trichotomy first.shapeScore.place second.shapeScore.place with
      flatter | sameShape | steeper
    · simp [sameFit, flatter]
    · simp [sameFit, sameShape, Text.inOrder_iff]
    · simp [sameFit, steeper, steeper.not_gt, steeper.ne']
  · simp [worse, worse.not_gt, worse.ne]

/-- Of two scored candidates with different texts, one that may stand before the other ranks before
it. -/
theorem before_of_inOrder (scored : first.Scored) (other : second.Scored)
    (inOrder : first.inOrder second = true) (apart : first.text ≠ second.text) :
    first.Before second := by
  rw [before_iff_rankKey scored other]
  apply lt_of_le_of_ne ((inOrder_iff_rankKey scored other).mp inOrder)
  -- What they are ranked by holds their texts.
  intro same
  apply apart
  apply Text.numbers_injective
  exact congrArg (fun key => (ofLex (ofLex key).2).2) same

/-- No scored candidate ranks before one that ranks before it. -/
theorem Before.asymm (scored : first.Scored) (other : second.Scored) (before : first.Before second) :
    ¬second.Before first := by
  rw [before_iff_rankKey other scored]
  exact ((before_iff_rankKey scored other).mp before).not_gt

/-- A candidate that ranks before another one fits no worse. -/
theorem Before.fit_le (scored : first.Scored) (other : second.Scored)
    (before : first.Before second) : second.fitScore.le first.fitScore = true := by
  rw [Binary64.le_iff_place other.fit.ne_nan scored.fit.ne_nan]
  rcases before with better | ⟨same, -⟩
  · rw [Binary64.lt_iff_place other.fit.ne_nan scored.fit.ne_nan] at better
    exact better.le
  · rw [same]

variable {candidates others : List Candidate}

/-- Sorting scored candidates puts each before all those behind it. -/
theorem mergeSort_pairwise (scored : ∀ candidate ∈ candidates, candidate.Scored) :
    (candidates.mergeSort inOrder).Pairwise fun first second => first.inOrder second = true := by
  -- Only scored candidates are in a total order, so the sort is followed on what they are ranked by.
  have keys : (candidates.mergeSort inOrder).map rankKey =
      (candidates.map rankKey).mergeSort fun first second => decide (first ≤ second) := by
    apply List.map_mergeSort
    intro first firstMember second secondMember
    rw [Bool.eq_iff_iff, decide_eq_true_eq]
    exact inOrder_iff_rankKey (scored first firstMember) (scored second secondMember)
  have ascending : ((candidates.map rankKey).mergeSort fun first second =>
      decide (first ≤ second)).Pairwise fun first second => decide (first ≤ second) = true := by
    apply List.pairwise_mergeSort
    · intro first second third
      simpa using le_trans
    · intro first second
      simpa using le_total first second
  rw [← keys, List.pairwise_map] at ascending
  apply ascending.imp_of_mem
  intro first second firstMember secondMember below
  rw [List.mem_mergeSort] at firstMember secondMember
  rw [inOrder_iff_rankKey (scored first firstMember) (scored second secondMember)]
  exact of_decide_eq_true below

/-- The texts of distinct candidates are distinct. -/
theorem distinct_texts (candidates : List Candidate) :
    ((distinct candidates).map Candidate.text).Nodup := by
  rw [List.Nodup, List.pairwise_map]
  apply (eraseDupsBy_pairwise (fun first second => first.text == second.text) candidates).imp
  intro first second differs same
  simp [same] at differs

/-- Sorting distinct candidates keeps their texts distinct. -/
theorem mergeSort_distinct_texts (candidates : List Candidate) :
    (((distinct candidates).mergeSort inOrder).map Candidate.text).Nodup := by
  have permuted := (List.mergeSort_perm (distinct candidates) inOrder).map Candidate.text
  exact permuted.nodup_iff.mpr (distinct_texts candidates)

/-- Distinct candidates are some of those they were taken from. -/
theorem mem_of_mem_distinct {candidate : Candidate} (member : candidate ∈ distinct candidates) :
    candidate ∈ candidates :=
  (eraseDupsBy_sublist _ candidates).subset member

/-- Every text of a candidate is the text of a distinct one. -/
theorem exists_mem_distinct {candidate : Candidate} (member : candidate ∈ candidates) :
    ∃ kept ∈ distinct candidates, candidate.text = kept.text := by
  let same (first second : Candidate) : Bool := first.text == second.text
  have reflexive : ∀ candidate, same candidate candidate = true := fun candidate =>
    beq_self_eq_true candidate.text
  obtain ⟨kept, inside, alike⟩ := exists_mem_eraseDupsBy reflexive member
  exact ⟨kept, inside, eq_of_beq alike⟩

end DiceLab.Candidate
