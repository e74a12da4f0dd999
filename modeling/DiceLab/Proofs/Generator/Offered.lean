import DiceLab.Proofs.Generator.Faces
import DiceLab.Proofs.Proposal.Dice

/-! A search hands out formulas of the offered faces alone, and something for each numeric face. -/

namespace DiceLab

/-- A candidate has the statistics of its formula. -/
theorem Candidate.stats_of_ofFormula {formula : Formula} {target : Target} {candidate : Candidate}
    (ok : ofFormula formula target = .ok candidate) : formula.stats = .ok candidate.stats := by
  simp only [ofFormula, bind_eq_ok] at ok
  obtain ⟨stats, known, _, -, _, -, _, -, made⟩ := ok
  cases made
  exact known

/-- A candidate has the score of its statistics, and the relation that goes with it. -/
theorem Candidate.fit_of_ofFormula {formula : Formula} {target : Target} {candidate : Candidate}
    (ok : ofFormula formula target = .ok candidate) :
    Fit.score candidate.stats target = .ok candidate.fitScore ∧
      candidate.fit = Fit.classify candidate.stats target (.real candidate.fitScore) := by
  simp only [ofFormula, bind_eq_ok] at ok
  -- Of the five steps only the second one scores the fit.
  obtain ⟨_, -, _, scored, _, -, _, -, made⟩ := ok
  cases made
  exact ⟨scored, rfl⟩

namespace Generator

variable {target : Target} {available : List FaceTag} {limit : Value} {kept : List Candidate}

/-- Something is found when a tag names a numeric face other than the binary one. -/
theorem ne_nil_of_names (ok : (search target available limit).result = .ok kept) {face : Face}
    (named : FaceTag.Names available face) (plain : face.isFudge = false)
    (wide : face.isBinary = false) : kept ≠ [] := by
  obtain ⟨-, faces, resolved, found⟩ := search_eq_ok.mp ok
  have offered := (FaceTag.mem_of_resolve resolved).mpr named
  rcases found with ⟨rfl, -⟩ | ⟨-, found⟩
  · cases offered
  obtain ⟨proposals, made, -, -, -, ranked⟩ := rankProposals_eq_ok.mp found
  have numeric := Proposal.mem_numeric.mpr ⟨offered, plain, wide⟩
  obtain ⟨formula, inside, -⟩ := Proposal.exists_proposed_of_numeric numeric made
  have draft : Draft.reading { formula } ∈ proposals.map fun formula => .reading { formula } :=
    List.mem_map_of_mem inside
  -- The ranking came out, so the proposal was scored, and the best candidate is kept.
  obtain ⟨candidate, scored⟩ := (Candidate.exists_rank_eq_ok.mp ⟨kept, ranked⟩).2 _ draft
  obtain ⟨first, head, -⟩ := Candidate.exists_head_rank ranked draft scored
  rintro rfl
  cases head

/-- Nothing can be found unless a numeric face other than the binary one is named. -/
theorem exists_names_of_mem (ok : (search target available limit).result = .ok kept)
    {candidate : Candidate} (member : candidate ∈ kept) :
    ∃ face, FaceTag.Names available face ∧ face.isFudge = false ∧ face.isBinary = false := by
  obtain ⟨faces, formula, resolved, proposed, -⟩ := exists_proposed_of_search ok member
  obtain ⟨first, rest, terms, -, lead⟩ := proposed.keepsTo.leads
  -- The first dice of a proposal have such a face, and it was offered.
  have offered := proposed.keepsTo.offered first (by simp [terms])
  exact ⟨first.face, (FaceTag.mem_of_resolve resolved).mp offered, lead⟩

/--
Whatever a search finds is made of the faces that its tags name.

Each candidate's text is read as a formula that keeps to these faces, and its range is in order.
Nothing is found exactly when no tag names a numeric face other than the binary one.
-/
theorem search_keepsTo (target : Target) (available : List FaceTag) (limit : Value)
    {kept : List Candidate} (ok : (search target available limit).result = .ok kept) :
    (∀ candidate ∈ kept, candidate.stats.min ≤ candidate.stats.max ∧
      ∃ faces reading, (FaceTag.resolve available).result = .ok faces ∧
        (Reading.ofText candidate.text).result = .ok reading ∧ reading.isComplete = true ∧
        Proposal.KeepsTo faces reading.formula) ∧
    (kept = [] ↔ ∀ tag ∈ available, ∀ face, (FaceTag.read tag).result = .ok (some face) →
      face.isFudge = true ∨ face.isBinary = true) := by
  constructor
  · intro candidate member
    obtain ⟨faces, formula, resolved, proposed, scored⟩ := exists_proposed_of_search ok member
    obtain ⟨writable, text, -⟩ := Candidate.of_ofFormula_eq_ok scored
    obtain ⟨least, most⟩ := Formula.bounds_of_stats (Candidate.stats_of_ofFormula scored)
    have order := formula.min_le_max
    refine ⟨by omega, faces, ⟨formula, []⟩, resolved, ?_, rfl, proposed.keepsTo⟩
    -- The text of a candidate reads back as the proposal it was made from.
    rw [text]
    exact (Reading.ofText_plainText writable).1
  · constructor
    · rintro rfl tag member face named
      by_contra other
      rw [not_or, Bool.not_eq_true, Bool.not_eq_true] at other
      exact ne_nil_of_names ok ⟨tag, member, named⟩ other.1 other.2 rfl
    · intro small
      by_contra nonempty
      obtain ⟨candidate, member⟩ := List.exists_mem_of_ne_nil kept nonempty
      obtain ⟨face, ⟨tag, inside, named⟩, plain, wide⟩ := exists_names_of_mem ok member
      -- The face would have to be one of the two small ones.
      rcases small tag inside face named with fudge | binary
      · simp [plain] at fudge
      · simp [wide] at binary

/-- For the range from 0 to 6 a die is widened by a coin that is added, or by one that is taken
away; the Fudge die, a word and the repeated coin add nothing. -/
theorem search_keepsTo_coin :
    let available : List FaceTag :=
      [.value (.text "dF"), .value (.text "2"), .value (.text "x"), .value (.whole 6),
        .face (.numeric 2 (by decide))]
    ∃ added taken : Candidate, added.text = "1d6+1d2-1" ∧ taken.text = "1d6-1d2" ∧
      (search ⟨6, 0⟩ available (.whole 2)).result = .ok [added, taken] ∧
      (∀ candidate ∈ [added, taken], candidate.stats.min ≤ candidate.stats.max ∧
        ∃ faces reading, (FaceTag.resolve available).result = .ok faces ∧
          (Reading.ofText candidate.text).result = .ok reading ∧ reading.isComplete = true ∧
          Proposal.KeepsTo faces reading.formula) ∧
      ¬∀ tag ∈ available, ∀ face, (FaceTag.read tag).result = .ok (some face) →
        face.isFudge = true ∨ face.isBinary = true := by
  intro available
  let coin : Face := .numeric 2 (by decide)
  let six : Face := .numeric 6 (by decide)
  let added : Candidate :=
    ⟨"1d6+1d2-1", ⟨0, 6, .ofInt 3⟩, .ofInt 100, .perfect, .ofDecimal false 6 (-1), .somewhatBell⟩
  let taken : Candidate :=
    ⟨"1d6-1d2", ⟨0, 6, .ofInt 3⟩, .ofInt 100, .perfect, .ofDecimal false 6 (-1), .somewhatBell⟩
  let die : Candidate :=
    ⟨"1d6", ⟨1, 6, .ofDecimal false 35 (-1)⟩, .ofDecimal false 8333333333333334 (-14), .contained,
      .zero false, .flat⟩
  let lower : Candidate :=
    ⟨"1d6-1", ⟨0, 5, .ofDecimal false 25 (-1)⟩, .ofDecimal false 8333333333333334 (-14), .contained,
      .zero false, .flat⟩
  let pair : Candidate :=
    ⟨"2d6-4", ⟨-2, 8, .ofInt 3⟩, .ofDecimal false 33333333333333336 (-15), .wider,
      .ofDecimal false 5 (-1), .somewhatBell⟩
  -- The die stands alone, in a pair and from the lower end on, and two of these leave a gap of one.
  let one : Formula := ⟨[⟨.plus, 1, six, by decide⟩], 0⟩
  let two : Formula := ⟨[⟨.plus, 2, six, by decide⟩], -4⟩
  let group : Formula := ⟨[⟨.plus, 1, six, by decide⟩], -1⟩
  let lowered : Formula := ⟨[⟨.plus, 1, six, by decide⟩, ⟨.minus, 1, coin, by decide⟩], 0⟩
  let raised : Formula := ⟨[⟨.plus, 1, six, by decide⟩, ⟨.plus, 1, coin, by decide⟩], -1⟩
  have named : (available.mapM fun tag => (FaceTag.read tag).result) =
      .ok [some .fudge, some coin, none, some six, some coin] := by decide +kernel
  have before : [coin, six, .fudge].Pairwise Face.Before := by
    simpa using ⟨⟨Face.Before.sides (by decide), .fudge⟩, .fudge⟩
  have resolved := FaceTag.resolve_eq_ok_ordered named before (by simp; grind)
  have proposed : Proposal.all ⟨0, 6⟩ [coin, six, .fudge] =
      .ok [one, two, group, lowered, raised] := by decide +kernel
  have scored : ([one, two, group, lowered, raised].mapM fun formula =>
      Candidate.ofFormula formula ⟨0, 6⟩) = .ok [die, pair, lower, taken, added] := by
    decide +kernel
  have strict : [added, taken, die, lower, pair].Pairwise Candidate.Before := by decide +kernel
  have held : Candidate.allowed (.whole 2) = .ok 2 := by decide +kernel
  have ok : (search ⟨6, 0⟩ available (.whole 2)).result = .ok [added, taken] :=
    search_eq_ok_take (by decide) (by decide +kernel) (by decide +kernel) resolved (by simp)
      (by decide +kernel) proposed held scored strict (by simp) (by simp)
  obtain ⟨kept, empty⟩ := search_keepsTo ⟨6, 0⟩ available (.whole 2) ok
  exact ⟨added, taken, rfl, rfl, ok, kept, fun small => by simpa using empty.mpr small⟩

end Generator

end DiceLab
