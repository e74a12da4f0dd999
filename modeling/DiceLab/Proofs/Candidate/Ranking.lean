import DiceLab.Proofs.Candidate.Scoring
import DiceLab.Proofs.Coercion
import Mathlib.Data.Set.Card

/-! Ranking keeps the best of the formulas that drafts stand for, whatever way these are spelled. -/

namespace DiceLab

/-- The normal texts of some drafts. -/
def Draft.normalTexts (drafts : List Draft) : Set Text :=
  {text | ∃ draft ∈ drafts, draft.normalText = .ok text}

namespace Candidate

variable {drafts : List Draft} {target : Target} {kept : List Candidate}

/-- The number of candidates that a limit stands for. -/
def allowed (limit : Value) : Except Failure Int :=
  (ensureWhole "max_candidates" 1 none none limit).result

/-- A whole number below one stands for one, and has to be short enough to be written. -/
theorem allowed_whole_eq_ok {limit used : Int} :
    allowed (.whole limit) = .ok used ↔
      (1 ≤ limit ∨ Decimal.Writable limit) ∧ used = max limit 1 := by
  have one : Decimal.Writable 1 := by decide +kernel
  rw [allowed, ensureWhole_whole_eq_ok one (by simp)]
  -- A limit that is raised to one is warned of, and only then has to be written.
  simp only [clampWhole]
  constructor
  · rintro ⟨rfl | writable, held⟩
    · exact ⟨.inl (by omega), by omega⟩
    · exact ⟨.inr writable, by omega⟩
  · rintro ⟨positive | writable, rfl⟩
    · exact ⟨.inl (by omega), by omega⟩
    · exact ⟨.inr writable, by omega⟩

/-- A limit never stands for less than one candidate. -/
theorem one_le_allowed {limit : Value} {used : Int} (held : allowed limit = .ok used) :
    1 ≤ used := by
  rw [ensureWhole_used held]
  exact le_max_left _ _

/-- A ranking keeps the best of what its drafts are scored as. -/
theorem rank_eq_ok {limit : Value} :
    (rank drafts target limit).result = .ok kept ↔ ∃ used candidates,
      allowed limit = .ok used ∧
        (drafts.mapM fun draft => (ofDraft draft target).result) = .ok candidates ∧
        kept = best used.toNat candidates := by
  -- The limit is read before any draft is, and warnings do not change the results.
  simp only [rank, allowed, Reported.bind_result, Reported.mapM_result, Reported.pure_result,
    bind_eq_ok]
  constructor
  · rintro ⟨used, held, candidates, scored, made⟩
    exact ⟨used, candidates, held, scored, (Except.ok.inj made).symm⟩
  · rintro ⟨used, candidates, held, scored, rfl⟩
    exact ⟨used, held, candidates, scored, rfl⟩

/-- A ranking keeps the first of what its drafts are scored as when that is put in strict order. -/
theorem rank_eq_ok_take {limit : Value} {used : Int} {candidates ordered : List Candidate}
    (held : allowed limit = .ok used)
    (scored : (drafts.mapM fun draft => (ofDraft draft target).result) = .ok candidates)
    (strict : ordered.Pairwise Before) (inside : ∀ candidate ∈ ordered, candidate ∈ candidates)
    (all : ∀ candidate ∈ candidates, candidate ∈ ordered) :
    (rank drafts target limit).result = .ok (ordered.take used.toNat) := by
  -- There is one strict order of the same candidates, so the best are a part of it.
  apply rank_eq_ok.mpr
  exact ⟨used, candidates, held, scored,
    (best_eq_take (rankable_of_ofDraft scored) strict inside all used.toNat).symm⟩

/-- A candidate of a ranking is what one of its drafts is scored as. -/
theorem exists_ofDraft_of_rank {limit : Value} (ok : (rank drafts target limit).result = .ok kept)
    {candidate : Candidate} (member : candidate ∈ kept) :
    ∃ draft ∈ drafts, (ofDraft draft target).result = .ok candidate := by
  obtain ⟨used, candidates, -, scored, rfl⟩ := rank_eq_ok.mp ok
  exact (mem_mapM_eq_ok scored).mp (mem_of_mem_best member)

section

variable {candidates : List Candidate}
  (scored : (drafts.mapM fun draft => (ofDraft draft target).result) = .ok candidates)

include scored

/-- Every draft is scored. -/
theorem exists_mem_of_scored {draft : Draft} (member : draft ∈ drafts) :
    ∃ candidate ∈ candidates, (ofDraft draft target).result = .ok candidate :=
  exists_of_mem_left (mapM_eq_ok.mp scored) member

/-- The texts of the candidates are the normal texts of the drafts. -/
theorem exists_text_iff {text : Text} :
    (∃ candidate ∈ candidates, candidate.text = text) ↔ text ∈ Draft.normalTexts drafts := by
  constructor
  · rintro ⟨candidate, member, rfl⟩
    obtain ⟨draft, inside, ok⟩ := (mem_mapM_eq_ok scored).mp member
    exact ⟨draft, inside, normalText_of_ofDraft ok⟩
  · rintro ⟨draft, inside, normal⟩
    obtain ⟨candidate, member, ok⟩ := exists_mem_of_scored scored inside
    -- A draft has one normal text, and its candidate stands under that.
    rw [normalText_of_ofDraft ok, Except.ok.injEq] at normal
    exact ⟨candidate, member, normal⟩

/-- The candidates are what the normal texts of the drafts are scored as. -/
theorem mem_iff_text {candidate : Candidate} :
    candidate ∈ candidates ↔ candidate.text ∈ Draft.normalTexts drafts ∧
      (ofDraft (.ofText candidate.text) target).result = .ok candidate := by
  rw [← exists_text_iff scored]
  constructor
  · intro member
    obtain ⟨draft, -, ok⟩ := (mem_mapM_eq_ok scored).mp member
    exact ⟨⟨candidate, member, rfl⟩, ofDraft_text ok⟩
  · rintro ⟨⟨other, member, same⟩, ok⟩
    obtain ⟨draft, -, otherOk⟩ := (mem_mapM_eq_ok scored).mp member
    -- The candidate that stands under the text already is the one it is scored as.
    rw [← ofDraft_unique otherOk ok same]
    exact member

/-- There are as many distinct candidates as distinct normal texts. -/
theorem length_distinct : (distinct candidates).length = (Draft.normalTexts drafts).ncard := by
  -- The candidates that are kept have each normal text once.
  have texts : Draft.normalTexts drafts =
      (((distinct candidates).map Candidate.text).toFinset : Set Text) := by
    ext text
    rw [← exists_text_iff scored, Finset.mem_coe, List.mem_toFinset, List.mem_map]
    constructor
    · rintro ⟨candidate, member, rfl⟩
      obtain ⟨kept, inside, same⟩ := exists_mem_distinct member
      exact ⟨kept, inside, same.symm⟩
    · rintro ⟨candidate, member, rfl⟩
      exact ⟨candidate, mem_of_mem_distinct member, rfl⟩
  rw [texts, Set.ncard_coe_finset, List.toFinset_card_of_nodup (distinct_texts candidates),
    List.length_map]

end

/-- A ranking gives candidates exactly when its limit can be brought into range and every draft is
scored. -/
theorem exists_rank_eq_ok {limit : Value} :
    (∃ kept, (rank drafts target limit).result = .ok kept) ↔
      (∃ used, allowed limit = .ok used) ∧
        ∀ draft ∈ drafts, ∃ candidate, (ofDraft draft target).result = .ok candidate := by
  constructor
  · rintro ⟨kept, ok⟩
    obtain ⟨used, candidates, held, scored, -⟩ := rank_eq_ok.mp ok
    refine ⟨⟨used, held⟩, fun draft member => ?_⟩
    -- Every draft has been scored on the way.
    obtain ⟨candidate, -, draftOk⟩ := exists_mem_of_scored scored member
    exact ⟨candidate, draftOk⟩
  · rintro ⟨⟨used, held⟩, each⟩
    obtain ⟨candidates, scored⟩ := exists_mapM_eq_ok _ each
    exact ⟨_, rank_eq_ok.mpr ⟨used, candidates, held, scored, rfl⟩⟩

/-- Drafts that are all scored alike rank as one candidate. -/
theorem rank_eq_ok_of_alike {limit : Value} {score : Except Failure Candidate}
    (nonempty : drafts ≠ []) (alike : ∀ draft ∈ drafts, (ofDraft draft target).result = score) :
    (rank drafts target limit).result = .ok kept ↔
      (∃ used, allowed limit = .ok used) ∧ ∃ candidate, score = .ok candidate ∧ kept = [candidate] := by
  obtain ⟨draft, member⟩ := List.exists_mem_of_ne_nil drafts nonempty
  -- Whatever the limit is, it leaves room for the one candidate.
  have single {used : Int} {candidate : Candidate} (held : allowed limit = .ok used)
      (scored : score = .ok candidate) : (rank drafts target limit).result = .ok [candidate] := by
    have each (other : Draft) (among : other ∈ drafts) :
        (ofDraft other target).result = .ok candidate := (alike other among).trans scored
    obtain ⟨candidates, walked⟩ := exists_mapM_eq_ok _ fun other among => ⟨_, each other among⟩
    have inside : candidate ∈ candidates :=
      (mem_mapM_eq_ok walked).mpr ⟨draft, member, each draft member⟩
    have all (other : Candidate) (among : other ∈ candidates) : other ∈ [candidate] := by
      obtain ⟨source, sourceMember, made⟩ := (mem_mapM_eq_ok walked).mp among
      rw [each source sourceMember, Except.ok.injEq] at made
      exact List.mem_singleton.mpr made.symm
    have ranked := rank_eq_ok_take held walked (List.pairwise_singleton _ _) (by simpa) all
    have positive := one_le_allowed held
    rwa [List.take_of_length_le (by rw [List.length_singleton]; omega)] at ranked
  constructor
  · intro ok
    obtain ⟨⟨used, held⟩, each⟩ := exists_rank_eq_ok.mp ⟨kept, ok⟩
    obtain ⟨candidate, scored⟩ := each draft member
    rw [alike draft member] at scored
    rw [single held scored, Except.ok.injEq] at ok
    exact ⟨⟨used, held⟩, candidate, scored, ok.symm⟩
  · rintro ⟨⟨used, held⟩, candidate, scored, rfl⟩
    exact single held scored

/-- The first candidate of a ranking fits no worse than what any of its drafts is scored as. -/
theorem exists_head_rank {limit : Value} (ok : (rank drafts target limit).result = .ok kept)
    {draft : Draft} (member : draft ∈ drafts) {candidate : Candidate}
    (scored : (ofDraft draft target).result = .ok candidate) :
    ∃ first, kept.head? = some first ∧ candidate.fitScore.le first.fitScore = true := by
  obtain ⟨used, candidates, held, allScored, rfl⟩ := rank_eq_ok.mp ok
  have positive := one_le_allowed held
  -- The limit leaves room for one candidate at least, and the best one stands in front.
  have inside : candidate ∈ candidates := (mem_mapM_eq_ok allScored).mpr ⟨draft, member, scored⟩
  exact exists_head_best (rankable_of_ofDraft allScored) (by omega) inside

/--
A ranking depends on nothing but the normal texts of its drafts, its target and its limit.

Neither the order of the drafts nor repetitions nor the way each is spelled makes a difference.
-/
theorem rank_eq_of_normalTexts {first second : List Draft} (target : Target) (limit : Value)
    (same : Draft.normalTexts first = Draft.normalTexts second) {kept others : List Candidate}
    (ok : (rank first target limit).result = .ok kept)
    (otherOk : (rank second target limit).result = .ok others) : kept = others := by
  obtain ⟨used, candidates, held, scored, rfl⟩ := rank_eq_ok.mp ok
  obtain ⟨otherUsed, otherCandidates, otherHeld, otherScored, rfl⟩ := rank_eq_ok.mp otherOk
  -- One limit stands for one number.
  rw [held, Except.ok.injEq] at otherHeld
  subst otherHeld
  apply best_congr (rankable_of_ofDraft scored)
  intro candidate
  rw [mem_iff_text scored, mem_iff_text otherScored, same]

/-- A die spelled in two ways and a pair rank as the die, behind a letter, and the pair, with a
chunk that was ignored, do. -/
theorem rank_eq_of_normalTexts_mixed :
    let first : List Draft := [.ofText "2d4", .ofText " D6 -0", .ofText "1d6"]
    let second : List Draft :=
      [.ofText "x+01d6", .reading ⟨⟨[⟨.plus, 2, .numeric 4 (by decide), by decide⟩], 0⟩, ["x"]⟩]
    Draft.normalTexts first = Draft.normalTexts second ∧
      ∃ kept others, (rank first ⟨1, 6⟩ (.whole 5)).result = .ok kept ∧
        (rank second ⟨1, 6⟩ (.whole 5)).result = .ok others ∧
        kept.map Candidate.text = ["1d6", "2d4"] ∧ kept = others := by
  intro first second
  let die : Candidate :=
    ⟨"1d6", ⟨1, 6, .ofDecimal false 35 (-1)⟩, .ofInt 100, .perfect, .zero false, .flat⟩
  let pair : Candidate :=
    ⟨"2d4", ⟨2, 8, .ofInt 5⟩, .ofInt 40, .exceedsHigh, .ofDecimal false 5 (-1), .somewhatBell⟩
  have scored : (first.mapM fun draft => (ofDraft draft ⟨1, 6⟩).result) =
      .ok [pair, die, die] := by
    decide +kernel
  have otherScored : (second.mapM fun draft => (ofDraft draft ⟨1, 6⟩).result) =
      .ok [die, pair] := by
    decide +kernel
  -- The texts that are scored are the same on both sides.
  have same : Draft.normalTexts first = Draft.normalTexts second := by
    ext text
    rw [← exists_text_iff scored, ← exists_text_iff otherScored]
    simp [or_comm]
  have held : allowed (.whole 5) = .ok 5 := by decide +kernel
  have strict : [die, pair].Pairwise Before := by decide +kernel
  have ok := rank_eq_ok_take held scored strict (by simp) (by simp)
  have otherOk := rank_eq_ok_take held otherScored strict (by simp) (by simp)
  exact ⟨same, _, _, ok, otherOk, rfl, rank_eq_of_normalTexts ⟨1, 6⟩ (.whole 5) same ok otherOk⟩

/-- How a ranking selects from some drafts when so many candidates are asked for. -/
structure Selects (drafts : List Draft) (target : Target) (limit : Int) (kept : List Candidate) :
    Prop where
  /-- No text comes twice. -/
  apart : (kept.map Candidate.text).Nodup
  /-- Each candidate ranks strictly before all those behind it. -/
  ordered : kept.Pairwise Before
  /-- There are as many as were asked for, at least one, as long as there are distinct texts. -/
  length : kept.length = min (max limit 1).toNat (Draft.normalTexts drafts).ncard
  /-- Each candidate is what one of the drafts is scored as. -/
  scored : ∀ candidate ∈ kept, ∃ draft ∈ drafts, (ofDraft draft target).result = .ok candidate
  /-- Every draft is scored under its normal text, and is kept or ranks behind all that are. -/
  complete : ∀ draft ∈ drafts, ∃ candidate, (ofDraft draft target).result = .ok candidate ∧
    draft.normalText = .ok candidate.text ∧
    (candidate ∈ kept ∨ candidate.text ∉ kept.map Candidate.text ∧
      ∀ better ∈ kept, better.Before candidate)
  /-- Asking for more candidates only adds some behind these. -/
  larger : ∀ more, limit ≤ more → ∃ longer,
    (rank drafts target (.whole more)).result = .ok longer ∧ kept <+: longer

/-- A ranking selects the best candidates, as many as were asked for. -/
theorem rank_selects (drafts : List Draft) (target : Target) (limit : Int)
    {kept : List Candidate} (ok : (rank drafts target (.whole limit)).result = .ok kept) :
    Selects drafts target limit kept := by
  obtain ⟨used, candidates, held, scored, rfl⟩ := rank_eq_ok.mp ok
  have rankable := rankable_of_ofDraft scored
  obtain ⟨short, rfl⟩ := allowed_whole_eq_ok.mp held
  refine
    { apart := best_texts _ candidates
      ordered := best_pairwise rankable _
      length := ?_
      scored := fun candidate member => exists_ofDraft_of_rank ok member
      complete := ?_
      larger := ?_ }
  · rw [length_best, length_distinct scored]
  · intro draft inside
    obtain ⟨candidate, member, draftOk⟩ := exists_mem_of_scored scored inside
    refine ⟨candidate, draftOk, normalText_of_ofDraft draftOk, ?_⟩
    by_cases among : candidate ∈ best (max limit 1).toNat candidates
    · exact .inl among
    · refine .inr ⟨?_, fun better kept => before_of_not_mem_best rankable member among kept⟩
      -- A candidate that is kept under the same text would be the same one.
      intro textKept
      obtain ⟨other, otherKept, same⟩ := List.mem_map.mp textKept
      apply among
      rw [← rankable.told other (mem_of_mem_best otherKept) candidate member same]
      exact otherKept
  · intro more le
    -- A larger number is as short when it is below one, and nothing is written otherwise.
    have moreShort : 1 ≤ more ∨ Decimal.Writable more := by
      rcases lt_or_ge more 1 with below | positive
      · have one : Decimal.Writable 1 := by decide +kernel
        rcases short with large | writable
        · exact absurd large (by omega)
        · exact .inr (writable.between one le (by omega))
      · exact .inl positive
    have moreHeld := allowed_whole_eq_ok.mpr ⟨moreShort, rfl⟩
    refine ⟨_, rank_eq_ok.mpr ⟨_, candidates, moreHeld, scored, rfl⟩, ?_⟩
    exact best_prefix (by omega) candidates

/-- Of a die spelled in two ways and a pair one is kept when none is asked for, and the pair is left
out. -/
theorem rank_selects_mixed :
    let drafts : List Draft := [.ofText "2d4", .ofText " D6 -0", .ofText "1d6"]
    let die : Candidate :=
      ⟨"1d6", ⟨1, 6, .ofDecimal false 35 (-1)⟩, .ofInt 100, .perfect, .zero false, .flat⟩
    (rank drafts ⟨1, 6⟩ (.whole 0)).result = .ok [die] ∧ Selects drafts ⟨1, 6⟩ 0 [die] := by
  intro drafts die
  let pair : Candidate :=
    ⟨"2d4", ⟨2, 8, .ofInt 5⟩, .ofInt 40, .exceedsHigh, .ofDecimal false 5 (-1), .somewhatBell⟩
  have scored : (drafts.mapM fun draft => (ofDraft draft ⟨1, 6⟩).result) =
      .ok [pair, die, die] := by
    decide +kernel
  have held : allowed (.whole 0) = .ok 1 := by decide +kernel
  have strict : [die, pair].Pairwise Before := by decide +kernel
  have ok : (rank drafts ⟨1, 6⟩ (.whole 0)).result = .ok [die] :=
    rank_eq_ok_take held scored strict (by simp) (by simp)
  exact ⟨ok, rank_selects drafts ⟨1, 6⟩ 0 ok⟩

end Candidate

end DiceLab
