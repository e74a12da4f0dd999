import DiceLab.Proofs.Batch
import DiceLab.Proofs.Candidate.Scorable
import DiceLab.Proofs.Entries
import DiceLab.Proofs.Returns
import DiceLab.Sheet.Candidates

/-! Whatever has short numbers can be shown, in every locale of every catalog. -/

namespace DiceLab

namespace Catalog

/-- A locale is always chosen, with a warning at worst. -/
theorem returns_chooseLocale (catalog : Catalog) (wanted : Option Text) :
    (catalog.chooseLocale wanted).Returns := by
  unfold chooseLocale
  dsimp only
  -- A locale that is not there is replaced, with a warning at most.
  split
  · exact Reported.returns_pure _
  · exact (Reported.returns_note _).bind fun _ _ => Reported.returns_pure _

/-- A key is shown when every value that is put into its text can be. -/
theorem returns_render (catalog : Catalog) (key : Text) (wanted : Option Text)
    {options : Entries Value}
    (shown : ∀ option ∈ options, ∃ text, option.2.shown = .ok text) :
    (catalog.render key wanted options).Returns := by
  apply (catalog.returns_chooseLocale wanted).bind
  intro locale _
  split
  · exact Reported.returns_pure _
  · apply Reported.Returns.bind _ fun _ _ => Reported.returns_pure _
    apply exists_mapM_eq_ok
    -- Only the options could fail to be written, and storing them adds no other ones.
    intro option member
    rcases Entries.mem_storeAll member with given | none
    · obtain ⟨text, known⟩ := shown option given
      simp only [known]
      exact ⟨_, rfl⟩
    · cases none

end Catalog

namespace Wording

variable (wording : Wording) (key : Text)

/-- A key that needs no values is always shown. -/
theorem returns_label : (wording.label key).Returns :=
  wording.catalog.returns_render key wording.locale (by simp)

/-- A text is a value that can be put in. -/
theorem returns_text {options : Entries Value}
    (texts : ∀ option ∈ options, ∃ text, option.2 = .text text) :
    (wording.text key options).Returns := by
  apply wording.catalog.returns_render
  intro option member
  -- A text stands for itself, so it can always be filled in.
  obtain ⟨text, known⟩ := texts option member
  rw [known]
  exact ⟨text, rfl⟩

end Wording

/-- A number that can be written is a result. -/
theorem Reported.returns_write {value : Int} (writable : Decimal.Writable value) :
    (write value).Returns := by
  have written : Decimal.write value = .ok (Decimal.wholeText value) := if_pos writable
  exact returns_lift ⟨_, written⟩

namespace Sheet

open Reported (returns_pure returns_note returns_mapM returns_write)

variable (wording : Wording)

/-- A candidate has a row when its ends can be written. -/
theorem returns_candidateRow {candidate : Candidate} (showable : candidate.Showable) (rank : Nat) :
    (candidateRow wording rank candidate).Returns := by
  -- Besides labels a row has the two ends of the range, which can be written.
  apply (returns_write showable.1).bind
  intro low _
  apply (returns_write showable.2).bind
  intro high _
  apply (wording.returns_label _).bind
  intro fit _
  apply (wording.returns_label _).bind
  intro shape _
  exact returns_pure _

/-- Candidates are shown when the ends of each can be written. -/
theorem returns_showCandidates {candidates : List Candidate}
    (showable : ∀ candidate ∈ candidates, candidate.Showable) :
    (showCandidates candidates wording).Returns := by
  unfold showCandidates
  split
  · exact (wording.returns_label _).bind fun _ _ => returns_note _
  · apply Reported.Returns.bind _ fun _ _ => returns_note _
    apply (wording.returns_label _).bind
    intro title _
    apply (returns_mapM fun column _ =>
      (wording.returns_label column.1).bind fun _ _ => returns_pure _).bind
    intro columns _
    apply (returns_mapM _).bind fun _ _ => returns_pure _
    intro ranked member
    -- Numbering the candidates leaves each of them as it is.
    exact returns_candidateRow wording
      (showable ranked.1 (List.fst_mem_of_mem_zipIdx member)) ranked.2

/-- Statistics are shown when their ends can be written. -/
theorem returns_showStats (formula : Text) {stats : Stats} (low : Decimal.Writable stats.min)
    (high : Decimal.Writable stats.max) (padding : Int) :
    (showStats formula stats wording padding).Returns := by
  apply Reported.Returns.bind _ fun _ _ => returns_note _
  apply (returns_write low).bind
  intro least _
  apply (returns_write high).bind
  intro most _
  exact wording.returns_text _ (by simp)

/-- An outcome is shown when its total can be written and every number of its breakdown. -/
theorem returns_showOutcome {outcome : Outcome} (total : Decimal.Writable outcome.total)
    (writable : outcome.Writable) : (showOutcome outcome wording).Returns := by
  apply Reported.Returns.bind _ fun _ _ => returns_note _
  apply (returns_write total).bind
  intro sum _
  -- Describing an outcome fails only on numbers that are too long.
  have described : ∃ breakdown, outcome.describe = .ok breakdown := ⟨_, if_pos writable⟩
  apply (Reported.returns_lift described).bind
  intro breakdown _
  exact wording.returns_text _ (by simp)

end Sheet

/-- A throw shows a value no farther from zero than its face has values. -/
theorem Throw.Within.natAbs_le {thrown : Throw} (within : thrown.Within) :
    thrown.value.natAbs ≤ thrown.die.face.count := by
  obtain ⟨low, high⟩ := thrown.die.face.natAbs_le_count
  obtain ⟨above, below⟩ := within
  omega

namespace Formula

variable {σ : Type} {source : Source σ}

/-- A roll of a formula that is not too large can be written. -/
theorem writable_roll (bounded : source.Bounded) {formula : Formula}
    (short : formula.size < tenTo Decimal.digitLimit) (state : σ) :
    Decimal.Writable (formula.roll source.draw state).1.total ∧
      (formula.roll source.draw state).1.Writable := by
  have least := natAbs_bounds_le formula
  have between := roll_between bounded formula state
  have within := throwEach_within bounded formula.dice state
  have thrown := throwEach_dice source.draw formula.dice state
  rw [roll_eq] at between ⊢
  refine ⟨?_, ?_, ?_⟩
  · unfold Decimal.Writable
    omega
  · intro throw member
    -- The die of a throw is one of a term, which is no larger than the formula.
    have die : throw.die ∈ formula.dice := by
      rw [← thrown]
      exact List.mem_map_of_mem member
    obtain ⟨term, inside, same⟩ := List.mem_flatMap.mp die
    have face : throw.die.face = term.face := by rw [(List.mem_replicate.mp same).2]
    have few := (le_size inside).2
    have value := (within throw member).natAbs_le
    rw [face] at value ⊢
    refine ⟨(writable_of_size short).1 term inside |>.2, ?_⟩
    unfold Decimal.Writable
    omega
  · exact (writable_of_size short).2

end Formula

end DiceLab
