import DiceLab.Proofs.Sorting

/-! Sorting puts items in every order that the comparison follows. -/

namespace DiceLab.Sorting

variable {α : Type} {less : α → α → Bool} {before : α → α → Prop}

/-- A comparison follows an order when its answer tells for each two items which may stand before the
other. -/
structure Follows (less : α → α → Bool) (before : α → α → Prop) : Prop where
  trans : ∀ {first second third}, before first second → before second third → before first third
  of_less : ∀ {first second}, less first second = true → before first second
  of_not_less : ∀ {first second}, less first second = false → before second first

/-- A falling run is one that rises by the negated comparison. -/
theorem splitFalling_eq (items : List α) :
    splitFalling less items = splitRising (fun first second => !less first second) items := by
  fun_induction splitFalling less items with
  -- A fall is a rise of the turned order, so both walks end at the same item.
  | case1 first second rest falls run behind split ih =>
    rw [splitRising, if_neg (by simp [falls]), ← ih, split]
  | case2 first second rest rises => rw [splitRising, if_pos (by simp [rises])]
  | case3 items single => rw [splitRising.eq_2 _ _ single]

namespace Follows

variable (follows : Follows less before)
include follows

/-- An item is put where the order wants it. -/
theorem insert_pairwise (item : α) {sorted : List α} (ordered : sorted.Pairwise before) :
    (insert less item sorted).Pairwise before := by
  fun_induction insert less item sorted with
  | case1 sorted none => exact List.pairwise_singleton before item
  | case2 sorted front middle behind split smaller ih =>
    have whole : front ++ middle :: behind = sorted := by
      rw [← split]
      exact List.take_append_drop _ _
    rw [← whole, List.pairwise_append] at ordered
    obtain ⟨frontOrdered, restOrdered, across⟩ := ordered
    refine List.pairwise_append.mpr ⟨ih frontOrdered, restOrdered, ?_⟩
    -- The item comes before the middle, and so before everything behind that.
    intro first among second inside
    rcases List.mem_cons.mp ((insert_perm less item front).mem_iff.mp among) with rfl | old
    · have first := follows.of_less smaller
      rcases List.mem_cons.mp inside with rfl | later
      · exact first
      · exact follows.trans first (List.rel_of_pairwise_cons restOrdered later)
    · exact across first old second inside
  | case3 sorted front middle behind split larger ih =>
    have whole : front ++ middle :: behind = sorted := by
      rw [← split]
      exact List.take_append_drop _ _
    rw [← whole, List.pairwise_append, List.pairwise_cons] at ordered
    obtain ⟨frontOrdered, ⟨middleFirst, behindOrdered⟩, across⟩ := ordered
    have last := follows.of_not_less (Bool.eq_false_iff.mpr larger)
    have inBehind {second : α} : second ∈ insert less item behind → second = item ∨ second ∈ behind :=
      fun inside => List.mem_cons.mp ((insert_perm less item behind).mem_iff.mp inside)
    refine List.pairwise_append.mpr ⟨frontOrdered, List.pairwise_cons.mpr ⟨?_, ih behindOrdered⟩, ?_⟩
    · intro second inside
      rcases inBehind inside with rfl | old
      · exact last
      · exact middleFirst second old
    · -- The middle comes before the item, and everything in front of it does so as well.
      intro first among second inside
      have beforeMiddle := across first among middle List.mem_cons_self
      rcases List.mem_cons.mp inside with rfl | later
      · exact beforeMiddle
      · rcases inBehind later with rfl | old
        · exact follows.trans beforeMiddle last
        · exact across first among second (List.mem_cons_of_mem _ old)

/-- A rising run is in order and begins with the first item. -/
theorem splitRising_pairwise (items : List α) :
    (splitRising less items).1.Pairwise before ∧
      (splitRising less items).1.head? = items.head? := by
  fun_induction splitRising less items with
  | case1 first second rest falls => exact ⟨List.pairwise_singleton before first, rfl⟩
  | case2 first second rest rises run behind split ih =>
    rw [split] at ih
    obtain ⟨ordered, head⟩ := ih
    refine ⟨List.pairwise_cons.mpr ⟨?_, ordered⟩, rfl⟩
    have next := follows.of_not_less (Bool.eq_false_iff.mpr rises)
    -- The rest of the run begins with the second item, which comes before all others of it.
    intro item inside
    obtain ⟨others, rfl⟩ := List.head?_eq_some_iff.mp head
    rcases List.mem_cons.mp inside with rfl | later
    · exact next
    · exact follows.trans next (List.rel_of_pairwise_cons ordered later)
  | case3 items single =>
    refine ⟨?_, rfl⟩
    cases items with
    | nil => exact List.Pairwise.nil
    | cons first rest =>
      cases rest with
      | nil => exact List.pairwise_singleton before first
      | cons second rest => exact absurd rfl (single first second rest)

/-- Turned round, a comparison that is negated follows the order turned round. -/
theorem negated : Follows (fun first second => !less first second) (flip before) where
  trans := fun first second => follows.trans second first
  of_less := fun negative => follows.of_not_less (by simpa using negative)
  of_not_less := fun positive => follows.of_less (by simpa using positive)

/-- The first run is in order once it is turned round where it falls. -/
theorem splitRun_pairwise (items : List α) : (splitRun less items).1.Pairwise before := by
  unfold splitRun
  split
  · split
    · dsimp only
      -- A falling run is strict, so turned around it is a rising one.
      rw [splitFalling_eq]
      exact List.pairwise_reverse.mpr (follows.negated.splitRising_pairwise _).1
    · exact (follows.splitRising_pairwise _).1
  · rename_i several
    cases items with
    | nil => exact List.Pairwise.nil
    | cons first rest =>
      cases rest with
      | nil => exact List.pairwise_singleton before first
      | cons second rest => exact absurd rfl (several first second rest)

/-- Insertion puts the items in order. -/
theorem sortByInsertion_pairwise (items : List α) :
    (sortByInsertion less items).Pairwise before := by
  have general (behind run : List α) (ordered : run.Pairwise before) :
      (behind.foldl (fun sorted item => insert less item sorted) run).Pairwise before := by
    induction behind generalizing run with
    | nil => exact ordered
    -- Each insertion keeps the run in order.
    | cons item rest ih => exact ih _ (follows.insert_pairwise item ordered)
  exact general _ _ (follows.splitRun_pairwise items)

/-- Ordered lists are merged into an ordered one. -/
theorem merge_pairwise {left right : List α} (leftOrdered : left.Pairwise before)
    (rightOrdered : right.Pairwise before) : (left.merge right less).Pairwise before := by
  fun_induction List.merge left right less with
  | case1 right => exact rightOrdered
  | case2 left => exact leftOrdered
  | case3 first rest second others inOrder ih =>
    obtain ⟨firstLeads, restOrdered⟩ := List.pairwise_cons.mp leftOrdered
    refine List.pairwise_cons.mpr ⟨?_, ih restOrdered rightOrdered⟩
    -- What leads one list comes before what leads the other, and so before all of that.
    have leads := follows.of_less inOrder
    intro item inside
    rcases List.mem_merge.mp inside with old | new
    · exact firstLeads item old
    · rcases List.mem_cons.mp new with rfl | later
      · exact leads
      · exact follows.trans leads (List.rel_of_pairwise_cons rightOrdered later)
  | case4 first rest second others outOfOrder ih =>
    obtain ⟨secondLeads, othersOrdered⟩ := List.pairwise_cons.mp rightOrdered
    refine List.pairwise_cons.mpr ⟨?_, ih leftOrdered othersOrdered⟩
    have leads := follows.of_not_less (Bool.eq_false_iff.mpr outOfOrder)
    intro item inside
    rcases List.mem_merge.mp inside with old | new
    · rcases List.mem_cons.mp old with rfl | later
      · exact leads
      · exact follows.trans leads (List.rel_of_pairwise_cons leftOrdered later)
    · exact secondLeads item new

/-- Merging puts the items in order. -/
theorem mergeSort_pairwise (items : List α) : (items.mergeSort less).Pairwise before := by
  fun_induction List.mergeSort items less with
  | case1 => exact List.Pairwise.nil
  | case2 => exact List.pairwise_singleton before _
  -- Both halves are sorted first, and merging keeps the order.
  | case3 =>
    rename_i left right
    exact follows.merge_pairwise (left follows) (right follows)

/-- Swapped, a comparison that is negated follows the order as well. -/
theorem swapped : Follows (fun first second => !less second first) before where
  trans := follows.trans
  of_less := fun negative => follows.of_not_less (by simpa using negative)
  of_not_less := fun positive => follows.of_less (by simpa using positive)

/-- Sorting puts the items in every order that the comparison follows. -/
theorem sort_pairwise (items : List α) : (sort less items).Pairwise before := by
  unfold sort
  split
  · exact follows.sortByInsertion_pairwise items
  · exact follows.swapped.mergeSort_pairwise items

end Follows

end DiceLab.Sorting
