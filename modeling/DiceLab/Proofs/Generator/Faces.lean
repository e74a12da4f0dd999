import DiceLab.Proofs.Generator.Search
import DiceLab.Proofs.Proposal

/-! A search depends on which faces are offered, not on how they are named, and more of them never
make its best candidate worse. -/

namespace DiceLab.Generator

/-- The ends of a target may be given in either order. -/
theorem ordered_swapped (low high : Int) :
    Target.ordered ⟨low, high⟩ = Target.ordered ⟨high, low⟩ := by
  simp only [Target.ordered, min_comm, max_comm]

/--
A search depends on nothing but the set of faces that its tags name, the two ends of its target and
its limit.

Neither the order of the tags nor repetitions nor their spelling nor tags that name nothing make a
difference, and the ends may be swapped.
-/
theorem search_congr (low high : Int) (limit : Value) {available others : List FaceTag}
    (same : ∀ face, FaceTag.Names available face ↔ FaceTag.Names others face) {other : Target}
    (ends : other = ⟨low, high⟩ ∨ other = ⟨high, low⟩) {kept found : List Candidate}
    (ok : (search ⟨low, high⟩ available limit).result = .ok kept)
    (otherOk : (search other others limit).result = .ok found) : kept = found := by
  obtain ⟨-, faces, resolved, ranked⟩ := search_eq_ok.mp ok
  obtain ⟨-, otherFaces, otherResolved, otherRanked⟩ := search_eq_ok.mp otherOk
  -- Both searches go on with the same faces and the same ordered target.
  have sameFaces : faces = otherFaces := FaceTag.resolve_congr same resolved otherResolved
  have sameTarget : other.ordered = Target.ordered ⟨low, high⟩ := by
    rcases ends with rfl | rfl
    · rfl
    · exact ordered_swapped high low
  subst sameFaces
  rw [sameTarget] at otherRanked
  rcases ranked with ⟨empty, rfl⟩ | ⟨nonempty, ranked⟩
  · rcases otherRanked with ⟨-, rfl⟩ | ⟨otherNonempty, -⟩
    · rfl
    · exact absurd empty otherNonempty
  · rcases otherRanked with ⟨empty, -⟩ | ⟨-, otherRanked⟩
    · exact absurd empty nonempty
    · rw [ranked] at otherRanked
      exact Except.ok.inj otherRanked

/-- For the range from 0 to 5 a four-sided die is found alone, as a pair, and widened by a Fudge die
to fit. -/
theorem exists_search_widened {target : Target} (ends : target = ⟨0, 5⟩ ∨ target = ⟨5, 0⟩)
    {available : List FaceTag} {limit : Value} {used : Int}
    (resolved : (FaceTag.resolve available).result = .ok [.numeric 4 (by decide), .fudge])
    (held : Candidate.allowed limit = .ok used) :
    ∃ widened pair die : Candidate,
      [widened.text, pair.text, die.text] = (["1d4+1dF", "2d4-2", "1d4"] : List Text) ∧
        (search target available limit).result = .ok ([widened, pair, die].take used.toNat) := by
  let widened : Candidate :=
    ⟨"1d4+1dF", ⟨0, 5, .ofDecimal false 25 (-1)⟩, .ofInt 100, .perfect, .ofDecimal false 6 (-1),
      .somewhatBell⟩
  let pair : Candidate :=
    ⟨"2d4-2", ⟨0, 6, .ofInt 3⟩, .ofInt 80, .wider, .ofDecimal false 5 (-1), .somewhatBell⟩
  let die : Candidate :=
    ⟨"1d4", ⟨1, 4, .ofDecimal false 25 (-1)⟩, .ofInt 60, .contained, .zero false, .flat⟩
  have ordered : target.ordered = ⟨0, 5⟩ := by
    rcases ends with rfl | rfl
    · decide
    · decide
  have writable : Decimal.Writable target.min ∧ Decimal.Writable target.max := by
    rcases ends with rfl | rfl
    · decide +kernel
    · decide +kernel
  -- The die is proposed alone, as a pair, in a group as wide as the target, and with a Fudge die.
  let one : Formula := ⟨[⟨.plus, 1, .numeric 4 (by decide), by decide⟩], 0⟩
  let two : Formula := ⟨[⟨.plus, 2, .numeric 4 (by decide), by decide⟩], -2⟩
  let both : Formula :=
    ⟨[⟨.plus, 1, .numeric 4 (by decide), by decide⟩, ⟨.plus, 1, .fudge, by decide⟩], 0⟩
  have proposed : Proposal.all ⟨0, 5⟩ [.numeric 4 (by decide), .fudge] =
      .ok [one, two, two, both] := by decide +kernel
  have scored : ([one, two, two, both].mapM fun formula => Candidate.ofFormula formula ⟨0, 5⟩) =
      .ok [die, pair, pair, widened] := by decide +kernel
  refine ⟨widened, pair, die, rfl, ?_⟩
  exact search_eq_ok_take ordered writable (by decide +kernel) resolved (by simp)
    (by decide +kernel) proposed held scored (by decide +kernel) (by simp) (by simp)

/-- Two dice spelled in different ways, with a tag that names nothing, are searched with for swapped
ends as the faces themselves are. -/
theorem search_congr_mixed :
    let die : Face := .numeric 4 (by decide)
    let spelled : List FaceTag :=
      [.value (.text "dF"), .value (.whole 4), .value (.text "x"), .value (.text " D٤")]
    let plain : List FaceTag := [.face die, .face .fudge]
    (∀ face, FaceTag.Names spelled face ↔ FaceTag.Names plain face) ∧
      ∃ kept found, (search ⟨0, 5⟩ spelled (.whole 2)).result = .ok kept ∧
        (search ⟨5, 0⟩ plain (.whole 2)).result = .ok found ∧
        kept.map Candidate.text = (["1d4+1dF", "2d4-2"] : List Text) ∧ kept = found := by
  intro die spelled plain
  have before : [die, .fudge].Pairwise Face.Before := by simpa using Face.Before.fudge
  have spelledNames : (spelled.mapM fun tag => (FaceTag.read tag).result) =
      .ok [some .fudge, some die, none, some die] := by decide +kernel
  have plainNames : (plain.mapM fun tag => (FaceTag.read tag).result) =
      .ok [some die, some .fudge] := by decide +kernel
  have spelledFaces := FaceTag.resolve_eq_ok_ordered spelledNames before (by simp [or_comm])
  have plainFaces := FaceTag.resolve_eq_ok_ordered plainNames before (by simp)
  have same (face : Face) : FaceTag.Names spelled face ↔ FaceTag.Names plain face :=
    (FaceTag.mem_of_resolve spelledFaces).symm.trans (FaceTag.mem_of_resolve plainFaces)
  have held : Candidate.allowed (.whole 2) = .ok 2 := by decide +kernel
  obtain ⟨widened, pair, one, texts, ok⟩ := exists_search_widened (.inl rfl) spelledFaces held
  obtain ⟨_, _, _, -, otherOk⟩ := exists_search_widened (.inr rfl) plainFaces held
  refine ⟨same, _, _, ok, otherOk, ?_, search_congr 0 5 (.whole 2) same (.inr rfl) ok otherOk⟩
  exact congrArg (List.take 2) texts

variable {target : Target} {available : List FaceTag} {limit : Value} {kept : List Candidate}

/-- What a search finds is what its proposals are scored as. -/
theorem exists_proposed_of_search (ok : (search target available limit).result = .ok kept)
    {candidate : Candidate} (member : candidate ∈ kept) :
    ∃ faces formula, (FaceTag.resolve available).result = .ok faces ∧
      Proposal.Proposed target.ordered faces formula ∧
      Candidate.ofFormula formula target.ordered = .ok candidate := by
  obtain ⟨-, faces, resolved, ⟨-, rfl⟩ | ⟨-, found⟩⟩ := search_eq_ok.mp ok
  · cases member
  · obtain ⟨proposals, proposed, -, -, -, ranked⟩ := rankProposals_eq_ok.mp found
    obtain ⟨draft, inside, scored⟩ := Candidate.exists_ofDraft_of_rank ranked member
    obtain ⟨formula, among, rfl⟩ := List.mem_map.mp inside
    obtain ⟨reading, read, made⟩ := Candidate.ofDraft_eq_ok.mp scored
    -- A proposal is handed over as it is and not read again.
    obtain rfl := Except.ok.inj read
    exact ⟨faces, formula, resolved, (Proposal.mem_all proposed).mp among, made⟩

/-- The first candidate of a search fits no worse than what any proposal is scored as. -/
theorem exists_head_search {faces : List Face}
    (ok : (search target available limit).result = .ok kept)
    (resolved : (FaceTag.resolve available).result = .ok faces) {formula : Formula}
    (proposed : Proposal.Proposed target.ordered faces formula) {candidate : Candidate}
    (scored : Candidate.ofFormula formula target.ordered = .ok candidate) :
    ∃ first, kept.head? = some first ∧ candidate.fitScore.le first.fitScore = true := by
  obtain ⟨-, others, otherResolved, found⟩ := search_eq_ok.mp ok
  rw [resolved, Except.ok.injEq] at otherResolved
  subst otherResolved
  -- Something was proposed, so there are faces and a ranking.
  rcases found with ⟨empty, -⟩ | ⟨-, found⟩
  · exact absurd empty proposed.faces_ne_nil
  · obtain ⟨proposals, made, -, -, -, ranked⟩ := rankProposals_eq_ok.mp found
    have inside : Draft.reading { formula } ∈ proposals.map fun formula => .reading { formula } :=
      List.mem_map_of_mem ((Proposal.mem_all made).mpr proposed)
    -- A proposal is handed over as it is and not read again.
    exact Candidate.exists_head_rank ranked inside (Candidate.ofDraft_eq_ok.mpr ⟨_, rfl, scored⟩)

/--
More faces never make the best candidate fit worse, whatever the two limits are.

Every proposal of the fewer faces is proposed of the more faces as well, and neither taking out
repetitions nor sorting nor the limit loses the best fit.
-/
theorem search_best_mono (target : Target) {few many : List FaceTag}
    (more : ∀ face, FaceTag.Names few face → FaceTag.Names many face) (limit otherLimit : Value)
    {kept found : List Candidate} (ok : (search target few limit).result = .ok kept)
    (otherOk : (search target many otherLimit).result = .ok found) {first : Candidate}
    (head : kept.head? = some first) :
    ∃ better, found.head? = some better ∧ first.fitScore.le better.fitScore = true := by
  -- The best candidate of the fewer faces is what one of their proposals is scored as.
  have member : first ∈ kept := List.mem_of_mem_head? head
  obtain ⟨faces, formula, resolved, proposed, scored⟩ := exists_proposed_of_search ok member
  obtain ⟨-, others, otherResolved, -⟩ := search_eq_ok.mp otherOk
  -- The same formula is proposed of the more faces, and their first candidate is no worse.
  have part := FaceTag.resolve_sublist more resolved otherResolved
  exact exists_head_search otherOk otherResolved (proposed.of_sublist part) scored

/-- With a Fudge die a four-sided one is widened to fit, however few candidates are asked for. -/
theorem search_best_mono_fudge :
    let few : List FaceTag := [.value (.text "d4")]
    let many : List FaceTag := [.value (.text "dF"), .value (.text "4")]
    (∀ face, FaceTag.Names few face → FaceTag.Names many face) ∧
      ∃ kept found first better, (search ⟨0, 5⟩ few (.whole 5)).result = .ok kept ∧
        (search ⟨0, 5⟩ many (.whole 1)).result = .ok found ∧
        kept.head? = some first ∧ first.text = "2d4-2" ∧
        found.head? = some better ∧ better.text = "1d4+1dF" ∧
        first.fitScore.le better.fitScore = true := by
  intro few many
  have before : [.numeric 4 (by decide), .fudge].Pairwise Face.Before := by
    simpa using Face.Before.fudge
  have fewNames : (few.mapM fun tag => (FaceTag.read tag).result) =
      .ok [some (.numeric 4 (by decide))] := by decide +kernel
  have manyNames : (many.mapM fun tag => (FaceTag.read tag).result) =
      .ok [some .fudge, some (.numeric 4 (by decide))] := by decide +kernel
  have fewFaces : (FaceTag.resolve few).result = .ok [.numeric 4 (by decide)] :=
    FaceTag.resolve_eq_ok_ordered fewNames (List.pairwise_singleton _ _) (by simp)
  have manyFaces := FaceTag.resolve_eq_ok_ordered manyNames before (by simp [or_comm])
  have more (face : Face) (named : FaceTag.Names few face) : FaceTag.Names many face := by
    have member := (FaceTag.mem_of_resolve fewFaces).mpr named
    exact (FaceTag.mem_of_resolve manyFaces).mp (List.mem_cons.mpr (.inl (by simpa using member)))
  have fewHeld : Candidate.allowed (.whole 5) = .ok 5 := by decide +kernel
  have manyHeld : Candidate.allowed (.whole 1) = .ok 1 := by decide +kernel
  -- Alone, the die is found as a pair and as one.
  let pair : Candidate :=
    ⟨"2d4-2", ⟨0, 6, .ofInt 3⟩, .ofInt 80, .wider, .ofDecimal false 5 (-1), .somewhatBell⟩
  let die : Candidate :=
    ⟨"1d4", ⟨1, 4, .ofDecimal false 25 (-1)⟩, .ofInt 60, .contained, .zero false, .flat⟩
  let one : Formula := ⟨[⟨.plus, 1, .numeric 4 (by decide), by decide⟩], 0⟩
  let two : Formula := ⟨[⟨.plus, 2, .numeric 4 (by decide), by decide⟩], -2⟩
  have proposed : Proposal.all ⟨0, 5⟩ [.numeric 4 (by decide)] = .ok [one, two, two] := by
    decide +kernel
  have scored : ([one, two, two].mapM fun formula => Candidate.ofFormula formula ⟨0, 5⟩) =
      .ok [die, pair, pair] := by decide +kernel
  have turned : Target.ordered ⟨0, 5⟩ = ⟨0, 5⟩ := by decide
  have ends : Decimal.Writable 0 ∧ Decimal.Writable 5 := by decide +kernel
  have strict : [pair, die].Pairwise Candidate.Before := by decide +kernel
  have ok : (search ⟨0, 5⟩ few (.whole 5)).result = .ok [pair, die] :=
    search_eq_ok_take turned ends ends fewFaces (by simp) (by decide +kernel) proposed fewHeld
      scored strict (by simp) (by simp)
  obtain ⟨widened, _, _, texts, otherOk⟩ := exists_search_widened (.inl rfl) manyFaces manyHeld
  have first : [pair, die].head? = some pair := List.head?_cons
  obtain ⟨better, head, fits⟩ :=
    search_best_mono ⟨0, 5⟩ more (.whole 5) (.whole 1) ok otherOk first
  have same : widened = better := Option.some.inj head
  rw [← same] at head fits
  exact ⟨more, _, _, pair, widened, ok, otherOk, first, rfl, head, (List.cons.inj texts).1, fits⟩

end DiceLab.Generator
