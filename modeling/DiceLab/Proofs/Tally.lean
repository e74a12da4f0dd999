import DiceLab.Histogram
import DiceLab.Total

/-! A tally has one entry for each total that occurs, in ascending order. -/

namespace DiceLab.Histogram

variable {totals : List Int} {counts : List (Int × Nat)}

/-- The totals of a tally in ascending order. -/
def keys (counts : List (Int × Nat)) : List Int := counts.map Prod.fst

/-- Entries that tell how often each of some totals occurs, by ascending total. -/
structure IsTally (totals : List Int) (counts : List (Int × Nat)) : Prop where
  /-- No total has two entries, and the entries ascend. -/
  ascending : (keys counts).Pairwise (· < ·)
  /-- The entries are those of the totals that occur, with the number of their occurrences. -/
  counted : ∀ total count, (total, count) ∈ counts ↔ count = totals.count total ∧ 0 < count

namespace IsTally

/-- No entry counts nothing. -/
theorem positive (tally : IsTally totals counts) : ∀ entry ∈ counts, 1 ≤ entry.2 := by
  rintro ⟨total, count⟩ member
  exact ((tally.counted total count).mp member).2

/-- The order of the totals does not matter. -/
theorem of_perm (tally : IsTally totals counts) {others : List Int} (same : totals.Perm others) :
    IsTally others counts where
  ascending := tally.ascending
  counted := by
    intro total count
    rw [tally.counted, same.count_eq]

/-- Entries that ascend are in the order of their totals. -/
theorem sorted (tally : IsTally totals counts) :
    counts.Pairwise fun first second => first.1 < second.1 :=
  List.pairwise_map.mp tally.ascending

/-- Totals have one tally only. -/
theorem unique (tally : IsTally totals counts) {others : List (Int × Nat)}
    (other : IsTally totals others) : counts = others := by
  -- Both lists hold the same entries, and there is one ascending order of these.
  have distinct : ∀ {entries : List (Int × Nat)}, IsTally totals entries → entries.Nodup :=
    fun known => known.sorted.imp fun below same => by simp [same] at below
  have same : counts.Perm others :=
    (List.perm_ext_iff_of_nodup (distinct tally) (distinct other)).mpr fun (total, count) => by
      rw [tally.counted, other.counted]
  exact same.eq_of_pairwise (fun first second _ _ below above => by omega) tally.sorted other.sorted

end IsTally

/-- Every total as often as it is counted. -/
def spread (counts : List (Int × Nat)) : List Int :=
  counts.flatMap fun entry => List.replicate entry.2 entry.1

/-- Counting a total once more puts it in front. -/
theorem spread_addRun (total : Int) (counts : List (Int × Nat)) :
    spread (addRun total counts) = total :: spread counts := by
  cases counts with
  | nil => rfl
  | cons entry rest =>
    obtain ⟨first, count⟩ := entry
    -- Either the first entry counts one more, or a new one stands before it.
    rw [addRun]
    split
    · rename_i same
      simp [spread, same, List.replicate_succ]
    · simp [spread]

/-- As many totals are spread out as were counted. -/
theorem length_spread (counts : List (Int × Nat)) :
    (spread counts).length = naturalTotal (counts.map Prod.snd) := by
  induction counts with
  | nil => rfl
  | cons entry rest ih =>
    -- The first entry spreads out to as many totals as it counts.
    simp only [spread, List.flatMap_cons, List.length_append, List.length_replicate] at ih ⊢
    rw [ih]
    rfl

/-- Entries whose totals ascend tally the totals they are spread out to. -/
theorem isTally_spread (ascending : (keys counts).Pairwise (· < ·))
    (positive : ∀ entry ∈ counts, 1 ≤ entry.2) : IsTally (spread counts) counts := by
  refine ⟨ascending, ?_⟩
  induction counts with
  | nil => simp [spread]
  | cons entry rest ih =>
    obtain ⟨first, firstCount⟩ := entry
    simp only [keys, List.map_cons, List.pairwise_cons] at ascending
    simp only [List.mem_cons, forall_eq_or_imp] at positive
    have others := ih ascending.2 positive.2
    -- The total of the first entry is below those of the others, so they do not count it.
    have absent : (spread rest).count first = 0 := by
      rcases Nat.eq_zero_or_pos ((spread rest).count first) with absent | occurs
      · exact absent
      · have member := (others first _).mpr ⟨rfl, occurs⟩
        have below := ascending.1 first (List.mem_map_of_mem member)
        omega
    intro total count
    have split : (spread ((first, firstCount) :: rest)).count total =
        (if first = total then firstCount else 0) + (spread rest).count total := by
      simp [spread, List.count_replicate]
    rw [split, List.mem_cons, others, Prod.mk.injEq]
    -- A total is either counted by the first entry alone or by the others alone.
    by_cases same : first = total
    · subst same
      rw [if_pos rfl, absent]
      have some := positive.1
      simp only [true_and]
      omega
    · rw [if_neg same]
      have differs : total ≠ first := Ne.symm same
      simp [differs]

/-- Totals with one tally are the same up to their order. -/
theorem IsTally.perm {others : List Int} (tally : IsTally totals counts)
    (other : IsTally others counts) : totals.Perm others := by
  refine List.perm_iff_count.mpr fun total => ?_
  -- A total that occurs on either side has an entry, and that counts both sides.
  rcases Nat.eq_zero_or_pos (totals.count total) with absent | occurs
  · rcases Nat.eq_zero_or_pos (others.count total) with missing | occurs
    · rw [absent, missing]
    · exact ((tally.counted _ _).mp ((other.counted _ _).mpr ⟨rfl, occurs⟩)).1.symm
  · exact ((other.counted _ _).mp ((tally.counted _ _).mpr ⟨rfl, occurs⟩)).1

/-- The counts of a tally add up to the number of totals. -/
theorem IsTally.total (tally : IsTally totals counts) :
    naturalTotal (counts.map Prod.snd) = totals.length := by
  -- The entries spread out to totals with the same tally, which are as many.
  have same := (isTally_spread tally.ascending tally.positive).perm tally
  rw [← length_spread, same.length_eq]

/-- There are no more entries than totals. -/
theorem IsTally.length_le (tally : IsTally totals counts) : counts.length ≤ totals.length := by
  rw [← tally.total]
  -- Each entry counts one total at least.
  have positive := tally.positive
  clear tally
  induction counts with
  | nil => exact Nat.zero_le _
  | cons entry rest ih =>
    simp only [List.mem_cons, forall_eq_or_imp] at positive
    have others := ih positive.2
    have first := positive.1
    simp only [naturalTotal, List.map_cons, List.foldr_cons, List.length_cons] at others ⊢
    omega

/-- Counting a total leaves no entry without an occurrence. -/
theorem positive_addRun (total : Int) (positive : ∀ entry ∈ counts, 1 ≤ entry.2) :
    ∀ entry ∈ addRun total counts, 1 ≤ entry.2 := by
  cases counts with
  | nil => simp [addRun]
  | cons entry rest =>
    obtain ⟨first, count⟩ := entry
    simp only [List.mem_cons, forall_eq_or_imp] at positive
    rw [addRun]
    -- The first entry counts one more, or a new one is put in front of it.
    split
    · simpa using positive.2
    · simpa using positive

/-- Counting a total that is not above any other keeps the entries ascending. -/
theorem ascending_addRun {total : Int} (smallest : ∀ other ∈ keys counts, total ≤ other)
    (ascending : (keys counts).Pairwise (· < ·)) :
    (keys (addRun total counts)).Pairwise (· < ·) := by
  cases counts with
  | nil => simp [addRun, keys]
  | cons entry rest =>
    obtain ⟨first, count⟩ := entry
    rw [addRun]
    split
    · -- The totals of the entries are the same as before.
      exact ascending
    · rename_i differs
      have order := ascending
      simp only [keys, List.map_cons, List.pairwise_cons] at order
      simp only [keys, List.map_cons, List.mem_cons, forall_eq_or_imp] at smallest
      -- The total is below the first of the others, and with it below all of them.
      have below : total < first := by omega
      refine List.pairwise_cons.mpr ⟨?_, ascending⟩
      simp only [List.map_cons, List.mem_cons, forall_eq_or_imp]
      exact ⟨below, fun other member => Int.lt_trans below (order.1 other member)⟩

/-- Only totals that occur are counted. -/
theorem mem_of_mem_keys_addRun {total other : Int} (member : other ∈ keys (addRun total counts)) :
    other = total ∨ other ∈ keys counts := by
  cases counts with
  | nil => simpa [addRun, keys] using member
  | cons entry rest =>
    obtain ⟨first, count⟩ := entry
    rw [addRun] at member
    -- The total is put in front unless it stands there already.
    split at member
    · exact .inr member
    · exact List.mem_cons.mp member

/-- Counting the runs of ascending totals gives their tally. -/
theorem runs_isTally (ascending : totals.Pairwise (· ≤ ·)) :
    IsTally totals (totals.foldr addRun []) := by
  -- Whatever is counted, the entries spread out to the totals they were made from.
  have same : spread (totals.foldr addRun []) = totals := by
    clear ascending
    induction totals with
    | nil => rfl
    | cons total rest ih => rw [List.foldr_cons, spread_addRun, ih]
  -- The invariant of the count: ascending, without empty entries, and of totals that occur.
  have built : (keys (totals.foldr addRun [])).Pairwise (· < ·) ∧
      (∀ entry ∈ totals.foldr addRun [], 1 ≤ entry.2) ∧
      ∀ key ∈ keys (totals.foldr addRun []), key ∈ totals := by
    clear same
    induction totals with
    | nil => simp [keys]
    | cons total rest ih =>
      rw [List.pairwise_cons] at ascending
      obtain ⟨order, positive, inside⟩ := ih ascending.2
      refine ⟨ascending_addRun (fun other member => ascending.1 other (inside other member)) order,
        positive_addRun total positive, fun key member => ?_⟩
      rcases mem_of_mem_keys_addRun member with rfl | member
      · simp
      · exact List.mem_cons_of_mem total (inside key member)
  have tally := isTally_spread built.1 built.2.1
  rwa [same] at tally

/-- Sorting totals and counting their runs gives their tally. -/
theorem tally_isTally (totals : List Int) : IsTally totals (tally totals) := by
  -- The order of whole numbers is transitive and total, which is what the sort relies on.
  have transitive : ∀ first second third : Int, decide (first ≤ second) = true →
      decide (second ≤ third) = true → decide (first ≤ third) = true := by
    simp only [decide_eq_true_eq]
    omega
  have decided : ∀ first second : Int,
      (decide (first ≤ second) || decide (second ≤ first)) = true := by
    simp only [Bool.or_eq_true, decide_eq_true_eq]
    omega
  have ascending := (List.pairwise_mergeSort transitive decided totals).imp of_decide_eq_true
  exact (runs_isTally ascending).of_perm (List.mergeSort_perm totals _)

/-- Entries with ascending totals are the tally of whatever they spread out to. -/
theorem tally_eq (ascending : (keys counts).Pairwise (· < ·))
    (positive : ∀ entry ∈ counts, 1 ≤ entry.2) (same : (spread counts).Perm totals) :
    tally totals = counts :=
  (tally_isTally totals).unique ((isTally_spread ascending positive).of_perm same)

end DiceLab.Histogram
