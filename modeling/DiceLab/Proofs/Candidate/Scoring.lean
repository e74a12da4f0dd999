import DiceLab.Proofs.Candidate.Selection
import DiceLab.Proofs.Fit
import DiceLab.Proofs.Formula.RoundTrip

/-! What a draft is scored as hangs on its normal text alone. -/

namespace DiceLab

namespace Draft

/-- Writes the normal text of the formula that a draft stands for. -/
def normalText (draft : Draft) : Except Failure Text := do
  (← draft.read.result).formula.text

/-- A draft that is a text. -/
def ofText (text : Text) : Draft := .value (.text text)

/-- A draft has the normal text of the formula it is read as, when that can be written. -/
theorem normalText_eq_ok {draft : Draft} {text : Text} :
    draft.normalText = .ok text ↔ ∃ reading, draft.read.result = .ok reading ∧
      reading.formula.Writable ∧ text = reading.formula.plainText := by
  simp only [normalText, bind_eq_ok, Formula.text_eq_ok]

/-- A text is read as it stands. -/
theorem read_ofText (text : Text) : (ofText text).read.result = (Reading.ofText text).result := by
  simp only [ofText, read, parse, ensureText, DiceLab.ensureText, pure_bind]

end Draft

/-- The score of a shape is a number that is no less than zero. -/
theorem Shape.score_nonnegative {formula : Formula} {score : Binary64}
    (ok : Shape.score formula = .ok score) : score.Nonnegative := by
  rw [Shape.score] at ok
  split at ok
  · -- At most one die scores nothing.
    rw [← Except.ok.inj ok]
    exact Binary64.nonnegative_zero
  · simp only [bind_eq_ok] at ok
    obtain ⟨raw, -, rounded⟩ := ok
    rw [← Except.ok.inj rounded]
    exact (Binary64.nonnegative_zero.clamp _ _).roundPlaces 4

namespace Candidate

variable {formula : Formula} {draft : Draft} {target : Target} {candidate : Candidate}

/-- A candidate stands under the normal text of its formula, and both its scores are numbers. -/
theorem of_ofFormula_eq_ok (ok : ofFormula formula target = .ok candidate) :
    formula.Writable ∧ candidate.text = formula.plainText ∧ candidate.Scored := by
  simp only [ofFormula, bind_eq_ok, Formula.text_eq_ok] at ok
  obtain ⟨stats, -, fitScore, fit, shapeScore, shape, text, ⟨writable, rfl⟩, made⟩ := ok
  cases made
  exact ⟨writable, rfl, Fit.score_nonnegative fit, Shape.score_nonnegative shape⟩

/-- No two formulas are scored as one candidate. -/
theorem ofFormula_inj {other : Formula} (ok : ofFormula formula target = .ok candidate)
    (otherOk : ofFormula other target = .ok candidate) : formula = other := by
  obtain ⟨writable, text, -⟩ := of_ofFormula_eq_ok ok
  obtain ⟨otherWritable, otherText, -⟩ := of_ofFormula_eq_ok otherOk
  -- The candidate stands under one text, which is the normal text of both.
  exact (Reading.plainText_inj writable otherWritable).mp (text.symm.trans otherText)

/-- A draft is scored as the formula it is read as. -/
theorem ofDraft_eq_ok :
    (ofDraft draft target).result = .ok candidate ↔
      ∃ reading, draft.read.result = .ok reading ∧
        ofFormula reading.formula target = .ok candidate := by
  simp only [ofDraft, Reported.bind_result, Reported.lift_result, bind_eq_ok]

/-- A draft that is read comes to whatever its formula comes to. -/
theorem ofDraft_of_read {reading : Reading} (read : draft.read.result = .ok reading) :
    (ofDraft draft target).result = ofFormula reading.formula target := by
  rw [ofDraft, Reported.bind_of_ok _ read]
  exact Reported.lift_result _

/-- The scores of a candidate are numbers that are no less than zero. -/
theorem scored_of_ofDraft (ok : (ofDraft draft target).result = .ok candidate) :
    candidate.Scored := by
  obtain ⟨reading, -, scored⟩ := ofDraft_eq_ok.mp ok
  exact (of_ofFormula_eq_ok scored).2.2

/-- A candidate stands under the normal text of its draft. -/
theorem normalText_of_ofDraft (ok : (ofDraft draft target).result = .ok candidate) :
    draft.normalText = .ok candidate.text := by
  obtain ⟨reading, read, scored⟩ := ofDraft_eq_ok.mp ok
  obtain ⟨writable, text, -⟩ := of_ofFormula_eq_ok scored
  exact Draft.normalText_eq_ok.mpr ⟨reading, read, writable, text⟩

/-- The text of a candidate is understood as a whole. -/
theorem read_text (ok : (ofDraft draft target).result = .ok candidate) :
    ∃ reading, (Reading.ofText candidate.text).result = .ok reading ∧
      reading.isComplete = true ∧ ofFormula reading.formula target = .ok candidate := by
  obtain ⟨reading, -, scored⟩ := ofDraft_eq_ok.mp ok
  obtain ⟨writable, text, -⟩ := of_ofFormula_eq_ok scored
  -- The normal text reads back as the formula, with nothing left over.
  have readBack := (Reading.ofText_plainText writable).1
  rw [← text] at readBack
  exact ⟨⟨reading.formula, []⟩, readBack, rfl, scored⟩

/-- The text of a candidate is scored as that candidate. -/
theorem ofDraft_text (ok : (ofDraft draft target).result = .ok candidate) :
    (ofDraft (.ofText candidate.text) target).result = .ok candidate := by
  obtain ⟨reading, read, -, scored⟩ := read_text ok
  rw [← Draft.read_ofText] at read
  exact ofDraft_eq_ok.mpr ⟨reading, read, scored⟩

/-- Drafts with one normal text are scored as one candidate. -/
theorem ofDraft_unique {other : Draft} {otherCandidate : Candidate}
    (ok : (ofDraft draft target).result = .ok candidate)
    (otherOk : (ofDraft other target).result = .ok otherCandidate)
    (same : candidate.text = otherCandidate.text) : candidate = otherCandidate := by
  -- Both are what the text they share is scored as.
  have scored := ofDraft_text ok
  rw [same, ofDraft_text otherOk] at scored
  exact (Except.ok.inj scored).symm

/-- Candidates that drafts are scored as can be ranked. -/
theorem rankable_of_ofDraft {drafts : List Draft} {candidates : List Candidate}
    (scored : (drafts.mapM fun draft => (ofDraft draft target).result) = .ok candidates) :
    Rankable candidates where
  scored := by
    intro candidate member
    -- Every candidate was made of one of the drafts, and a draft tells its text and its scores.
    obtain ⟨draft, -, ok⟩ := (mem_mapM_eq_ok scored).mp member
    exact scored_of_ofDraft ok
  told := by
    intro first firstMember second secondMember same
    obtain ⟨draft, -, ok⟩ := (mem_mapM_eq_ok scored).mp firstMember
    obtain ⟨other, -, otherOk⟩ := (mem_mapM_eq_ok scored).mp secondMember
    exact ofDraft_unique ok otherOk same

end Candidate

end DiceLab
