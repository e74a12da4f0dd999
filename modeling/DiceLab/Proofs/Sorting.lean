import DiceLab.Sorting
import Mathlib.Data.List.Perm.Basic

/-! Sorting by any comparison keeps the items, and only moves them. -/

namespace DiceLab.Sorting

variable {α : Type} (less : α → α → Bool)

/-- An inserted item stands among the others. -/
theorem insert_perm (item : α) (sorted : List α) :
    (insert less item sorted).Perm (item :: sorted) := by
  fun_induction insert less item sorted with
  | case1 sorted none =>
    -- Nothing stands behind the middle of the empty list alone.
    have empty : sorted = [] := by
      rw [List.drop_eq_nil_iff] at none
      apply List.length_eq_zero_iff.mp
      omega
    rw [empty]
  | case2 sorted before middle behind split smaller ih =>
    have whole : before ++ middle :: behind = sorted := by
      rw [← split]
      exact List.take_append_drop _ _
    rw [← whole]
    exact ih.append_right (middle :: behind)
  | case3 sorted before middle behind split larger ih =>
    have whole : before ++ middle :: behind = sorted := by
      rw [← split]
      exact List.take_append_drop _ _
    rw [← whole]
    apply ((ih.cons middle).append_left before).trans
    exact ((List.Perm.swap item middle behind).append_left before).trans List.perm_middle

/-- A rising run and what stands behind it are the items in their order. -/
theorem splitRising_append (items : List α) :
    (splitRising less items).1 ++ (splitRising less items).2 = items := by
  fun_induction splitRising less items with
  | case1 first second rest falls => rfl
  | case2 first second rest rises run behind split ih =>
    rw [split] at ih
    exact congrArg (first :: ·) ih
  | case3 items single => exact List.append_nil items

/-- A falling run and what stands behind it are the items in their order. -/
theorem splitFalling_append (items : List α) :
    (splitFalling less items).1 ++ (splitFalling less items).2 = items := by
  fun_induction splitFalling less items with
  | case1 first second rest falls run behind split ih =>
    rw [split] at ih
    exact congrArg (first :: ·) ih
  | case2 first second rest rises => rfl
  | case3 items single => exact List.append_nil items

/-- The first run may be turned round, and nothing else is moved. -/
theorem splitRun_perm (items : List α) :
    ((splitRun less items).1 ++ (splitRun less items).2).Perm items := by
  unfold splitRun
  split
  · rename_i first second rest
    split
    · -- A falling run is turned around, which only changes its order.
      have whole := splitFalling_append less (first :: second :: rest)
      dsimp only
      nth_rewrite 3 [← whole]
      exact (List.reverse_perm _).append_right _
    · rw [splitRising_append]
  · rw [List.append_nil]

/-- Insertion keeps the items. -/
theorem sortByInsertion_perm (items : List α) : (sortByInsertion less items).Perm items := by
  have general (behind run : List α) :
      (behind.foldl (fun sorted item => insert less item sorted) run).Perm (run ++ behind) := by
    induction behind generalizing run with
    | nil => rw [List.append_nil, List.foldl_nil]
    | cons item rest ih =>
      rw [List.foldl_cons]
      -- The item moves from behind the run to a place inside it.
      apply (ih _).trans
      exact ((insert_perm less item run).append_right rest).trans List.perm_middle.symm
  exact (general _ _).trans (splitRun_perm less items)

/-- Sorting keeps the items. -/
theorem sort_perm (items : List α) : (sort less items).Perm items := by
  unfold sort
  split
  · exact sortByInsertion_perm less items
  · exact List.mergeSort_perm _ _

end DiceLab.Sorting
