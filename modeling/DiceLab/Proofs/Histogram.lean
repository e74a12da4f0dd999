import DiceLab.Histogram
import DiceLab.Proofs.Binary64.Order
import DiceLab.Proofs.Report
import DiceLab.Proofs.Sorting.Order
import DiceLab.Proofs.Tally
import Mathlib.Data.List.Sort

/-! Histograms of counts under distinct totals: the labels they are read from, the one ascending order
of their entries, and their greatest count. -/

namespace DiceLab.Histogram

variable {counts ordered : List (Int × Nat)} {histogram entries : Histogram}

/-- Counts under labels that are the totals themselves. -/
def labelled (counts : List (Int × Nat)) : List (Label × Number) :=
  counts.map fun entry => (.number (.whole entry.1), .whole entry.2)

/-- A total that has no entry yet gets one behind the others. -/
theorem storeLabel_labelled {total : Int} (fresh : total ∉ keys counts) (count : Nat) :
    storeLabel (labelled counts) (.number (.whole total), .whole count) =
      labelled (counts ++ [(total, count)]) := by
  -- The label is stored behind the others, as none of them stands for the same number.
  have unknown : ((labelled counts).any fun old => old.1.same (.number (.whole total))) = false := by
    rw [List.any_eq_false]
    intro old member
    obtain ⟨entry, among, rfl⟩ := List.mem_map.mp member
    have other : entry.1 ≠ total := fun same => fresh (same ▸ List.mem_map_of_mem among)
    simpa [Label.same, Number.sameValue] using other
  rw [storeLabel, unknown, labelled, labelled, List.map_append]
  rfl

/-- Labels that are distinct totals are read as these, in their order. -/
theorem ofLabels_labelled (distinct : (keys counts).Nodup) :
    ofLabels (labelled counts) = .ok (ofCounts counts) := by
  -- Each entry is stored behind those in front of it, none of which has its total.
  have stored (front behind : List (Int × Nat)) (distinct : (keys (front ++ behind)).Nodup) :
      (labelled behind).foldl storeLabel (labelled front) = labelled (front ++ behind) := by
    induction behind generalizing front with
    | nil => rw [List.append_nil]; rfl
    | cons entry behind ih =>
      have fresh : entry.1 ∉ keys front := by
        rw [keys, List.map_append, List.nodup_append] at distinct
        exact fun member => distinct.2.2 _ member _ List.mem_cons_self rfl
      rw [List.append_cons] at distinct ⊢
      rw [← ih _ distinct, ← storeLabel_labelled fresh]
      rfl
  have whole : (labelled counts).foldl storeLabel [] = labelled counts := stored [] counts distinct
  rw [ofLabels, whole, mapM_eq_ok, labelled, ofCounts, List.forall₂_map_left_iff,
    List.forall₂_map_right_iff, List.forall₂_same]
  exact fun entry _ => rfl

/-- Entries are compared by their totals before anything else. -/
theorem less_follows : Sorting.Follows less fun first second => first.1 ≤ second.1 where
  trans := Int.le_trans
  of_less := by
    intro first second isLess
    rw [less] at isLess
    -- Totals decide, and only entries with the same total compare their counts.
    split at isLess
    · omega
    · exact Int.le_of_lt (of_decide_eq_true isLess)
  of_not_less := by
    intro first second notLess
    rw [less] at notLess
    split at notLess
    · omega
    · exact Int.not_lt.mp (of_decide_eq_false notLess)

/-- Sorting gives the one order in which the totals ascend. -/
theorem sorted_eq (same : entries.Perm histogram)
    (ascending : entries.Pairwise fun first second => first.1 < second.1) :
    sorted histogram = entries := by
  have moved : (sorted histogram).Perm entries := (Sorting.sort_perm less histogram).trans same.symm
  have inOrder := less_follows.sort_pairwise histogram
  have distinct : (entries.map Prod.fst).Nodup :=
    List.pairwise_map.mpr (ascending.imp Int.ne_of_lt)
  -- Two entries of one total are the same entry, as the totals ascend.
  apply moved.eq_of_pairwise _ inOrder (ascending.imp Int.le_of_lt)
  intro first second member other below above
  exact List.inj_on_of_nodup_map distinct (moved.mem_iff.mp member) other
    (Int.le_antisymm below above)

/-- Distinct totals have an ascending order. -/
theorem exists_ascending (distinct : (keys counts).Nodup) :
    ∃ ordered : List (Int × Nat), ordered.Perm counts ∧
      ordered.Pairwise fun first second => first.1 < second.1 := by
  have moved : (counts.mergeSort fun first second => first.1 ≤ second.1).Perm counts :=
    List.mergeSort_perm _ _
  refine ⟨_, moved, ?_⟩
  -- Sorting puts the totals in order, and as they differ the order is strict.
  have inOrder := List.pairwise_mergeSort'
    (fun first second : Int × Nat => first.1 ≤ second.1) counts
  have apart := List.pairwise_map.mp ((moved.map Prod.fst).nodup_iff.mpr distinct)
  exact (inOrder.and apart).imp fun both => by omega

/-- Counts are sorted by ascending total. -/
theorem sorted_ofCounts (same : ordered.Perm counts)
    (ascending : ordered.Pairwise fun first second => first.1 < second.1) :
    sorted (ofCounts counts) = ofCounts ordered :=
  sorted_eq (same.map _) (List.pairwise_map.mpr ascending)

/-- The greatest of some counts is found by taking the maximum of the greatest so far and the next. -/
theorem foldl_greatest (counts : List (Int × Nat)) (best : Nat) :
    ((ofCounts counts).map Prod.snd).foldl
        (fun best number => if best.lt number then number else best) (.whole best) =
      .whole ((counts.map Prod.snd).foldl max best : Nat) := by
  induction counts generalizing best with
  | nil => rfl
  | cons entry counts ih =>
    -- Comparing labels of counts is comparing the counts.
    have step : (if (Number.whole best).lt (.whole entry.2) then Number.whole entry.2
        else .whole best) = .whole (max best entry.2 : Nat) := by
      rw [Number.lt_whole]
      by_cases greater : best < entry.2
      · rw [if_pos (by simpa using greater), Nat.max_eq_right (Nat.le_of_lt greater)]
      · rw [if_neg (by simpa using greater), Nat.max_eq_left (Nat.not_lt.mp greater)]
    refine (List.foldl_cons ..).trans ?_
    rw [step]
    exact ih (max best entry.2)

/-- The greatest of some counts is one that no other exceeds, or zero for none. -/
theorem exists_greatest (counts : List (Int × Nat)) :
    ∃ peak : Nat, Number.greatest ((ofCounts counts).map Prod.snd) = .whole peak ∧
      (∀ entry ∈ counts, entry.2 ≤ peak) ∧ (peak = 0 ∨ ∃ entry ∈ counts, entry.2 = peak) := by
  cases counts with
  -- Of no counts the greatest is taken to be zero.
  | nil => exact ⟨0, rfl, by simp, .inl rfl⟩
  | cons entry counts =>
    obtain ⟨member, most⟩ := List.max?_eq_some_iff.mp
      (List.max?_cons' : ((entry :: counts).map Prod.snd).max? = _)
    exact ⟨_, foldl_greatest counts entry.2,
      fun other inside => most other.2 (List.mem_map_of_mem inside), .inr (List.mem_map.mp member)⟩

end DiceLab.Histogram
