import DiceLab.Proofs.Generator.Search

/-! Candidates that are handed out are what their own texts are scored as. -/

namespace DiceLab.Candidate

variable {drafts : List Draft} {target : Target} {limit : Value} {kept : List Candidate}

/-- The texts of candidates as drafts. -/
def texts (candidates : List Candidate) : List Draft :=
  candidates.map fun candidate => .ofText candidate.text

/-- Candidates that are true to their own texts when a target is asked for. -/
structure TrueToText (target : Target) (candidates : List Candidate) : Prop where
  /-- Each text is understood as a whole. -/
  complete : ∀ candidate ∈ candidates, ∃ reading,
    (Reading.ofText candidate.text).result = .ok reading ∧ reading.isComplete = true
  /-- Each text is scored as its candidate. -/
  scored : ∀ candidate ∈ candidates,
    (ofDraft (.ofText candidate.text) target).result = .ok candidate

/-- The candidates of a ranking are true to their texts. -/
theorem trueToText_of_rank (ok : (rank drafts target limit).result = .ok kept) :
    TrueToText target kept where
  complete := by
    intro candidate member
    -- Each candidate that is kept comes from a draft, and its text is read as what was scored.
    obtain ⟨draft, -, draftOk⟩ := exists_ofDraft_of_rank ok member
    obtain ⟨reading, read, complete, -⟩ := read_text draftOk
    exact ⟨reading, read, complete⟩
  scored := by
    intro candidate member
    obtain ⟨draft, -, draftOk⟩ := exists_ofDraft_of_rank ok member
    exact ofDraft_text draftOk

/-- Ranking the texts of a ranking gives that ranking again. -/
theorem rank_texts (ok : (rank drafts target limit).result = .ok kept) :
    (rank (texts kept) target limit).result = .ok kept := by
  have scored : ((texts kept).mapM fun draft => (ofDraft draft target).result) = .ok kept := by
    rw [mapM_eq_ok, texts, List.forall₂_map_left_iff, List.forall₂_same]
    exact (trueToText_of_rank ok).scored
  obtain ⟨used, candidates, held, candidatesScored, rfl⟩ := rank_eq_ok.mp ok
  -- The best of these candidates are all of them.
  have all := best_best (rankable_of_ofDraft candidatesScored) used.toNat
  exact rank_eq_ok.mpr ⟨used, _, held, scored, all.symm⟩

/-- No drafts rank as no candidates, if the limit can be brought into range. -/
theorem rank_nil : (rank [] target limit).result = .ok [] ↔ ∃ used, allowed limit = .ok used := by
  rw [rank_eq_ok]
  constructor
  · rintro ⟨used, _, held, -⟩
    exact ⟨used, held⟩
  · rintro ⟨used, held⟩
    exact ⟨used, [], held, rfl, by simp [best, distinct]⟩

/--
Every candidate that a ranking or a search hands out is true to its own text, and ranking these
texts again gives the same candidates.

A search without usable faces never looks at its limit. Its empty result is ranked again only if the
limit can be brought into range, which fails for a number too long to be written.
-/
theorem handedOut_trueToText (target : Target) (limit : Value) (kept : List Candidate) :
    (∀ drafts, (rank drafts target limit).result = .ok kept →
      TrueToText target kept ∧ (rank (texts kept) target limit).result = .ok kept) ∧
    (∀ available, (Generator.search target available limit).result = .ok kept →
      TrueToText target.ordered kept ∧
        ((rank (texts kept) target.ordered limit).result = .ok kept ↔
          kept ≠ [] ∨ ∃ used, allowed limit = .ok used)) := by
  constructor
  · intro drafts ok
    exact ⟨trueToText_of_rank ok, rank_texts ok⟩
  · intro available ok
    rcases Generator.exists_rank_of_search ok with rfl | ⟨proposals, ranked⟩
    · refine ⟨⟨by simp, by simp⟩, ?_⟩
      rw [texts, List.map_nil, rank_nil]
      simp
    · refine ⟨trueToText_of_rank ranked, fun _ => ?_, fun _ => rank_texts ranked⟩
      -- A limit that was used for the ranking can be brought into range.
      obtain ⟨used, -, held, -⟩ := rank_eq_ok.mp ranked
      exact .inr ⟨used, held⟩

/-- Spelled carelessly or searched for with swapped ends, a die and a pair of dice are true to their
texts. -/
theorem handedOut_trueToText_mixed :
    let die : Candidate :=
      ⟨"1d6", ⟨1, 6, .ofDecimal false 35 (-1)⟩, .ofInt 100, .perfect, .zero false, .flat⟩
    let pair : Candidate :=
      ⟨"2d6-3", ⟨-1, 9, .ofInt 4⟩, .zero false, .wider, .ofDecimal false 5 (-1), .somewhatBell⟩
    (rank [.ofText "-03 + 2D6", .ofText "x+01d6"] ⟨1, 6⟩ (.whole 5)).result = .ok [die, pair] ∧
      (Generator.search ⟨6, 1⟩ [.value (.text "6")] (.whole 5)).result = .ok [die, pair] ∧
      TrueToText ⟨1, 6⟩ [die, pair] ∧
      (rank (texts [die, pair]) ⟨1, 6⟩ (.whole 5)).result = .ok [die, pair] := by
  intro die pair
  have held : allowed (.whole 5) = .ok 5 := by decide +kernel
  have strict : [die, pair].Pairwise Before := by decide +kernel
  have ranked : (rank [.ofText "-03 + 2D6", .ofText "x+01d6"] ⟨1, 6⟩ (.whole 5)).result =
      .ok [die, pair] := by
    have scored : (([.ofText "-03 + 2D6", .ofText "x+01d6"] : List Draft).mapM fun draft =>
        (ofDraft draft ⟨1, 6⟩).result) = .ok [pair, die] := by
      decide +kernel
    exact rank_eq_ok_take held scored strict (by simp) (by simp)
  have found : (Generator.search ⟨6, 1⟩ [.value (.text "6")] (.whole 5)).result =
      .ok [die, pair] := by
    let face : Face := .numeric 6 (by decide)
    -- The die is proposed alone, as a pair, and in a group as wide as the target.
    let one : Formula := ⟨[⟨.plus, 1, face, by decide⟩], 0⟩
    let two : Formula := ⟨[⟨.plus, 2, face, by decide⟩], -3⟩
    have resolved : (FaceTag.resolve [.value (.text "6")]).result = .ok [face] := by
      apply FaceTag.resolve_eq_ok.mpr
      exact ⟨[some face], by decide +kernel, by simp [FaceTag.distinct, List.eraseDups_cons]⟩
    have proposed : Proposal.all ⟨1, 6⟩ [face] = .ok [one, two, one] := by decide +kernel
    have scored : ([one, two, one].map fun formula => Draft.reading { formula }).mapM
        (fun draft => (ofDraft draft ⟨1, 6⟩).result) = .ok [die, pair, die] := by
      decide +kernel
    apply Generator.search_eq_ok.mpr
    refine ⟨by decide +kernel, [face], resolved, .inr ⟨by simp, ?_⟩⟩
    apply Generator.rankProposals_eq_ok.mpr
    refine ⟨_, proposed, by decide +kernel, by decide +kernel, by decide +kernel, ?_⟩
    exact rank_eq_ok_take held scored strict (by simp) (by simp)
  have again := ((handedOut_trueToText ⟨1, 6⟩ (.whole 5) [die, pair]).1 _ ranked).2
  have trueToText := ((handedOut_trueToText ⟨6, 1⟩ (.whole 5) [die, pair]).2 _ found).1
  exact ⟨ranked, found, trueToText, again⟩

/-- Without faces a search finds nothing, whatever its limit, but ranking nothing fails on a limit
too long to be written. -/
theorem handedOut_longLimit :
    let limit : Value := .whole (-(tenTo 4300))
    (Generator.search ⟨1, 6⟩ [] limit).result = .ok [] ∧
      (rank (texts []) ⟨1, 6⟩ limit).result = .error .tooLongToWrite := by
  intro limit
  constructor
  · apply Generator.search_eq_ok.mpr
    exact ⟨by decide +kernel, [], by simp [FaceTag.resolve, FaceTag.distinct], .inl ⟨rfl, rfl⟩⟩
  · decide +kernel

end DiceLab.Candidate
