import DiceLab.Proofs.Candidate.Order
import Mathlib.Data.List.Nodup

/-! The best of some candidates are those that rank first, whatever order and number they come in. -/

namespace DiceLab.Candidate

variable {candidates others : List Candidate} {candidate : Candidate}

/-- Scored candidates of which no two differ under one text. -/
structure Rankable (candidates : List Candidate) : Prop where
  scored : ∀ candidate ∈ candidates, candidate.Scored
  told : ∀ first ∈ candidates, ∀ second ∈ candidates, first.text = second.text → first = second

/-- No candidate comes twice when the distinct ones are sorted. -/
theorem nodup_mergeSort (candidates : List Candidate) :
    ((distinct candidates).mergeSort inOrder).Nodup :=
  List.Nodup.of_map _ (mergeSort_distinct_texts candidates)

namespace Rankable

/-- Taking out repetitions loses no candidate. -/
theorem mem_distinct (rankable : Rankable candidates) :
    candidate ∈ distinct candidates ↔ candidate ∈ candidates := by
  constructor
  · exact mem_of_mem_distinct
  · intro member
    -- What was left in place of a candidate has its text, and is the candidate itself.
    obtain ⟨kept, inside, same⟩ := exists_mem_distinct member
    rw [rankable.told candidate member kept (mem_of_mem_distinct inside) same]
    exact inside

/-- The distinct candidates are brought into strict order. -/
theorem pairwise (rankable : Rankable candidates) :
    ((distinct candidates).mergeSort inOrder).Pairwise Before := by
  have scored : ∀ candidate ∈ distinct candidates, candidate.Scored := fun candidate member =>
    rankable.scored candidate (mem_of_mem_distinct member)
  -- The texts are all different, and where the order is decided by them it is strict.
  have apart : ((distinct candidates).mergeSort inOrder).Pairwise
      fun first second => first.text ≠ second.text := by
    rw [← List.pairwise_map]
    exact mergeSort_distinct_texts candidates
  apply ((mergeSort_pairwise scored).and apart).imp_of_mem
  intro first second firstMember secondMember related
  rw [List.mem_mergeSort] at firstMember secondMember
  exact before_of_inOrder (scored first firstMember) (scored second secondMember) related.1
    related.2

/-- Candidates in strict order are the only such list of them. -/
theorem eq_of_pairwise (rankable : Rankable candidates) {first second : List Candidate}
    (firstOrdered : first.Pairwise Before) (secondOrdered : second.Pairwise Before)
    (firstInside : ∀ candidate ∈ first, candidate ∈ candidates) (same : first.Perm second) :
    first = second := by
  apply same.eq_of_pairwise _ firstOrdered secondOrdered
  intro left right leftMember rightMember before behind
  -- Neither of two candidates can rank before the other one.
  have leftScored := rankable.scored left (firstInside left leftMember)
  have rightScored := rankable.scored right (firstInside right (same.mem_iff.mpr rightMember))
  exact absurd behind (before.asymm leftScored rightScored)

/-- Candidates that are rankable stay so when they are repeated, reordered or left out. -/
theorem of_subset (rankable : Rankable candidates)
    (inside : ∀ candidate ∈ others, candidate ∈ candidates) : Rankable others where
  scored := fun candidate member => rankable.scored candidate (inside candidate member)
  told := fun first firstMember second secondMember =>
    rankable.told first (inside first firstMember) second (inside second secondMember)

/-- The order of distinct candidates does not depend on how often and where they come in. -/
theorem sorted_congr (rankable : Rankable candidates)
    (same : ∀ candidate, candidate ∈ candidates ↔ candidate ∈ others) :
    (distinct candidates).mergeSort inOrder = (distinct others).mergeSort inOrder := by
  have otherRankable : Rankable others := rankable.of_subset fun candidate => (same candidate).mpr
  apply rankable.eq_of_pairwise rankable.pairwise otherRankable.pairwise
  · intro candidate member
    rw [List.mem_mergeSort] at member
    exact mem_of_mem_distinct member
  · -- Both lists hold the same candidates, each of them once.
    apply (List.perm_ext_iff_of_nodup (nodup_mergeSort candidates) (nodup_mergeSort others)).mpr
    intro candidate
    rw [List.mem_mergeSort, List.mem_mergeSort, rankable.mem_distinct, otherRankable.mem_distinct]
    exact same candidate

end Rankable

/-- The best candidates do not depend on how often and where they come in. -/
theorem best_congr (rankable : Rankable candidates)
    (same : ∀ candidate, candidate ∈ candidates ↔ candidate ∈ others) (limit : Nat) :
    best limit candidates = best limit others := by
  rw [best, best, rankable.sorted_congr same]

/-- The best candidates are some of those they were taken from. -/
theorem mem_of_mem_best {limit : Nat} (member : candidate ∈ best limit candidates) :
    candidate ∈ candidates :=
  mem_of_mem_distinct (List.mem_mergeSort.mp (List.mem_of_mem_take member))

/-- The best candidates are in strict order. -/
theorem best_pairwise (rankable : Rankable candidates) (limit : Nat) :
    (best limit candidates).Pairwise Before :=
  rankable.pairwise.sublist (List.take_sublist limit _)

/-- The texts of the best candidates are distinct. -/
theorem best_texts (limit : Nat) (candidates : List Candidate) :
    ((best limit candidates).map Candidate.text).Nodup :=
  (mergeSort_distinct_texts candidates).sublist ((List.take_sublist limit _).map Candidate.text)

/-- There are as many best candidates as the limit allows and distinct ones there are. -/
theorem length_best (limit : Nat) (candidates : List Candidate) :
    (best limit candidates).length = min limit (distinct candidates).length := by
  rw [best, List.length_take, List.length_mergeSort]

/-- A candidate that is not among the best ranks behind each of them. -/
theorem before_of_not_mem_best (rankable : Rankable candidates) {limit : Nat}
    (member : candidate ∈ candidates) (leftOut : candidate ∉ best limit candidates)
    {kept : Candidate} (inside : kept ∈ best limit candidates) : kept.Before candidate := by
  -- The sorted candidates are the best ones followed by those that are left out.
  have ordered := rankable.pairwise
  rw [← List.take_append_drop limit ((distinct candidates).mergeSort inOrder)] at ordered
  have sorted : candidate ∈ (distinct candidates).mergeSort inOrder :=
    List.mem_mergeSort.mpr (rankable.mem_distinct.mpr member)
  rw [← List.take_append_drop limit ((distinct candidates).mergeSort inOrder)] at sorted
  rcases List.mem_append.mp sorted with among | behind
  · exact absurd among leftOut
  · exact (List.pairwise_append.mp ordered).2.2 kept inside candidate behind

/-- The first of the best candidates fits no worse than any candidate. -/
theorem exists_head_best (rankable : Rankable candidates) {limit : Nat} (positive : 0 < limit)
    (member : candidate ∈ candidates) :
    ∃ first, (best limit candidates).head? = some first ∧
      candidate.fitScore.le first.fitScore = true := by
  have ordered := best_pairwise rankable limit
  have scored := rankable.scored candidate member
  cases kept : best limit candidates with
  | nil =>
    -- Where there is a candidate and a limit, there is a best one.
    have length := length_best limit candidates
    have distinctMember := List.length_pos_of_mem (rankable.mem_distinct.mpr member)
    rw [kept, List.length_nil] at length
    omega
  | cons first rest =>
    rw [kept, List.pairwise_cons] at ordered
    refine ⟨first, rfl, ?_⟩
    have inside : first ∈ best limit candidates := by simp [kept]
    have firstScored := rankable.scored first (mem_of_mem_best inside)
    by_cases among : candidate ∈ best limit candidates
    · rw [kept] at among
      rcases List.mem_cons.mp among with same | behind
      · rw [same, Binary64.le_iff_place firstScored.fit.ne_nan firstScored.fit.ne_nan]
      · exact (ordered.1 candidate behind).fit_le firstScored scored
    · exact (before_of_not_mem_best rankable member among inside).fit_le firstScored scored

/-- The best candidates come first among those of any larger limit. -/
theorem best_prefix {limit larger : Nat} (le : limit ≤ larger) (candidates : List Candidate) :
    best limit candidates <+: best larger candidates :=
  List.take_prefix_take_left le

/-- The best candidates are the first of all of them when these are put in strict order. -/
theorem best_eq_take (rankable : Rankable candidates) {kept : List Candidate}
    (ordered : kept.Pairwise Before) (inside : ∀ candidate ∈ kept, candidate ∈ candidates)
    (all : ∀ candidate ∈ candidates, candidate ∈ kept) (limit : Nat) :
    best limit candidates = kept.take limit := by
  have apart : kept.Nodup := by
    -- No candidate can rank before itself.
    apply ordered.imp_of_mem
    intro first second firstMember _ before equal
    subst equal
    have scored := rankable.scored first (inside first firstMember)
    exact before.asymm scored scored before
  have sorted : (distinct candidates).mergeSort inOrder = kept := by
    apply rankable.eq_of_pairwise rankable.pairwise ordered
    · intro candidate member
      exact rankable.mem_distinct.mp (List.mem_mergeSort.mp member)
    · apply (List.perm_ext_iff_of_nodup (nodup_mergeSort candidates) apart).mpr
      intro candidate
      rw [List.mem_mergeSort, rankable.mem_distinct]
      exact ⟨all candidate, inside candidate⟩
  rw [best, sorted]

/-- The best of the best candidates are all of them. -/
theorem best_best (rankable : Rankable candidates) (limit : Nat) :
    best limit (best limit candidates) = best limit candidates := by
  -- The best of the best are all of them, in the order in which they stand.
  have few : (best limit candidates).length ≤ limit := by
    rw [length_best]
    exact Nat.min_le_left _ _
  have again := best_eq_take (rankable.of_subset fun _ => mem_of_mem_best)
    (best_pairwise rankable limit) (fun _ => id) (fun _ => id) limit
  rw [again, List.take_of_length_le few]

end DiceLab.Candidate
