import DiceLab.Generator
import DiceLab.Proofs.Candidate.Ranking
import DiceLab.Proofs.Face.Resolution

/-! When a search gives candidates, and which. -/

namespace DiceLab.Generator

variable {target : Target} {faces : List Face} {limit : Value} {kept : List Candidate}

/-- Faces are tagged with their texts in their order, when the sides of each can be written. -/
theorem tags_eq_ok {names : List Text} :
    tags faces = .ok names ↔
      (∀ face ∈ faces, face.Writable) ∧ names = faces.map Face.tagText := by
  -- The first face that cannot be written ends the walk.
  rw [tags]
  induction faces generalizing names with
  | nil => simp [pure, Except.pure, eq_comm]
  | cons face rest ih =>
    simp only [List.mapM_cons, bind_eq_ok, Face.tag_eq_ok, ih, List.mem_cons, forall_eq_or_imp,
      List.map_cons]
    constructor
    · rintro ⟨name, ⟨writable, rfl⟩, others, ⟨restWritable, rfl⟩, made⟩
      exact ⟨⟨writable, restWritable⟩, (Except.ok.inj made).symm⟩
    · rintro ⟨⟨writable, restWritable⟩, rfl⟩
      exact ⟨_, ⟨writable, rfl⟩, _, ⟨restWritable, rfl⟩, rfl⟩

/-- Swapped ends have to be short enough to be written. -/
theorem warnSwapped_eq_ok :
    (warnSwapped target).result = .ok () ↔
      (target.max < target.min → Decimal.Writable target.min ∧ Decimal.Writable target.max) := by
  rw [warnSwapped]
  split
  · -- The warning names both ends, so both must be short enough to be written.
    rename_i swapped
    simp only [Reported.write, Reported.bind_result, Reported.lift_result, bind_eq_ok,
      Decimal.write_eq_ok, Reported.warn, Reported.note_result]
    constructor
    · rintro ⟨low, ⟨lowShort, -⟩, high, ⟨highShort, -⟩, -⟩ _
      exact ⟨lowShort, highShort⟩
    · intro short
      exact ⟨_, ⟨(short swapped).1, rfl⟩, _, ⟨(short swapped).2, rfl⟩, trivial⟩
  · rename_i inOrder
    simp [inOrder]

/-- Proposals are ranked when they can be made and everything that is logged can be written. -/
theorem rankProposals_eq_ok :
    (rankProposals target faces limit).result = .ok kept ↔ ∃ proposals,
      Proposal.all target faces = .ok proposals ∧
        Decimal.Writable target.min ∧ Decimal.Writable target.max ∧
        (∀ face ∈ faces, face.Writable) ∧
        (Candidate.rank (proposals.map fun formula => .reading { formula }) target limit).result =
          .ok kept := by
  -- The names of the faces are logged as a text, which can always be shown.
  have logged (message : Text) (used : List Text) :
      (Reported.log .debug message [("faces", .text (Text.join "," used))]).result = .ok () := by
    apply Reported.log_result
    simp [Value.quoted]
  simp only [rankProposals, Reported.write, Reported.bind_result, Reported.lift_result,
    bind_eq_ok, Decimal.write_eq_ok, tags_eq_ok, logged]
  constructor
  · rintro ⟨proposals, proposed, low, ⟨lowShort, -⟩, high, ⟨highShort, -⟩, names,
      ⟨writable, -⟩, _, -, ranked⟩
    exact ⟨proposals, proposed, lowShort, highShort, writable, ranked⟩
  · rintro ⟨proposals, proposed, lowShort, highShort, writable, ranked⟩
    exact ⟨proposals, proposed, _, ⟨lowShort, rfl⟩, _, ⟨highShort, rfl⟩, _, ⟨writable, rfl⟩, (),
      trivial, ranked⟩

/-- A search finds nothing without usable faces, and ranks what these propose otherwise; swapped ends
have to be written. -/
theorem search_eq_ok {available : List FaceTag} :
    (search target available limit).result = .ok kept ↔
      (target.max < target.min → Decimal.Writable target.min ∧ Decimal.Writable target.max) ∧
        ∃ faces, (FaceTag.resolve available).result = .ok faces ∧
          (faces = [] ∧ kept = [] ∨
            faces ≠ [] ∧ (rankProposals target.ordered faces limit).result = .ok kept) := by
  -- The warning comes first, whether or not there are faces.
  rw [← warnSwapped_eq_ok]
  simp only [search, Reported.bind_result, bind_eq_ok]
  constructor
  · rintro ⟨_, warned, faces, resolved, found⟩
    refine ⟨warned, faces, resolved, ?_⟩
    split at found
    · rename_i empty
      simp only [Reported.bind_result, Reported.pure_result, bind_eq_ok] at found
      obtain ⟨_, -, none⟩ := found
      exact .inl ⟨List.isEmpty_iff.mp empty, (Except.ok.inj none).symm⟩
    · rename_i nonempty
      exact .inr ⟨fun empty => nonempty (List.isEmpty_iff.mpr empty), found⟩
  · rintro ⟨warned, faces, resolved, ⟨rfl, rfl⟩ | ⟨nonempty, found⟩⟩
    · exact ⟨(), warned, [], resolved, rfl⟩
    · refine ⟨(), warned, faces, resolved, ?_⟩
      rw [if_neg (fun empty => nonempty (List.isEmpty_iff.mp empty))]
      exact found

/-- A search finds the first of what its proposals are scored as when that is put in strict
order. -/
theorem search_eq_ok_take {available : List FaceTag} {proposals : List Formula} {used : Int}
    {candidates ordered : List Candidate} {goal : Target} (turned : target.ordered = goal)
    (ends : Decimal.Writable target.min ∧ Decimal.Writable target.max)
    (goalEnds : Decimal.Writable goal.min ∧ Decimal.Writable goal.max)
    (resolved : (FaceTag.resolve available).result = .ok faces) (offered : faces ≠ [])
    (writable : ∀ face ∈ faces, face.Writable)
    (proposed : Proposal.all goal faces = .ok proposals)
    (held : Candidate.allowed limit = .ok used)
    (scored : (proposals.mapM fun formula => Candidate.ofFormula formula goal) = .ok candidates)
    (strict : ordered.Pairwise Candidate.Before)
    (inside : ∀ candidate ∈ ordered, candidate ∈ candidates)
    (all : ∀ candidate ∈ candidates, candidate ∈ ordered) :
    (search target available limit).result = .ok (ordered.take used.toNat) := by
  subst turned
  -- A proposal is handed over as it is and not read again.
  have drafts : ((proposals.map fun formula => Draft.reading { formula }).mapM fun draft =>
      (Candidate.ofDraft draft target.ordered).result) = .ok candidates := by
    rw [mapM_eq_ok, List.forall₂_map_left_iff]
    exact mapM_eq_ok.mp scored
  apply search_eq_ok.mpr
  refine ⟨fun _ => ends, faces, resolved, .inr ⟨offered, ?_⟩⟩
  apply rankProposals_eq_ok.mpr
  exact ⟨proposals, proposed, goalEnds.1, goalEnds.2, writable,
    Candidate.rank_eq_ok_take held drafts strict inside all⟩

/-- The faces of a search that gives candidates can be written. -/
theorem writable_of_search {available : List FaceTag}
    (ok : (search target available limit).result = .ok kept)
    (resolved : (FaceTag.resolve available).result = .ok faces) : ∀ face ∈ faces, face.Writable := by
  obtain ⟨-, others, otherResolved, found⟩ := search_eq_ok.mp ok
  rw [resolved, Except.ok.injEq] at otherResolved
  subst otherResolved
  -- Either there are no faces, or their tags were written for the log.
  rcases found with ⟨rfl, -⟩ | ⟨-, found⟩
  · simp
  · obtain ⟨_, -, -, -, writable, -⟩ := rankProposals_eq_ok.mp found
    exact writable

/-- What a search finds is nothing, for want of faces, or a ranking for the ordered target. -/
theorem exists_rank_of_search {available : List FaceTag}
    (ok : (search target available limit).result = .ok kept) :
    kept = [] ∨ ∃ proposals, (Candidate.rank proposals target.ordered limit).result = .ok kept := by
  -- Without faces the search finds nothing, and otherwise it ranks what is proposed.
  obtain ⟨-, faces, -, ⟨-, none⟩ | ⟨-, found⟩⟩ := search_eq_ok.mp ok
  · exact .inl none
  · obtain ⟨proposals, -, -, -, -, ranked⟩ := rankProposals_eq_ok.mp found
    exact .inr ⟨_, ranked⟩

end DiceLab.Generator
