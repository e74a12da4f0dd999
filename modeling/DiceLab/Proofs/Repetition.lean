/-! Lists without repetitions keep the first of all items that count as the same. -/

namespace DiceLab

variable {α : Type}

/--
What holds of no items, and of a first item and those that differ from it, holds of every list.

This is how repetitions are taken out: the items equal to the first go before the rest is looked at.
-/
theorem induction_differing {motive : List α → Prop} (same : α → α → Bool)
    (nil : motive [])
    (cons : ∀ first rest,
      motive (rest.filter fun item => decide (same item first = false)) → motive (first :: rest))
    (items : List α) : motive items :=
  match items with
  | [] => nil
  -- What differs from the first item is no longer than what stands behind it.
  | first :: rest => cons first rest (induction_differing same nil cons _)
termination_by items.length
-- Leaving items out makes no list longer.
decreasing_by exact Nat.lt_succ_of_le (List.length_filter_le _ _)

/-- Items are only left out, and the others keep their order. -/
theorem eraseDupsBy_sublist (same : α → α → Bool) (items : List α) :
    (items.eraseDupsBy same).Sublist items := by
  induction items using induction_differing same with
  | nil => simp
  | cons first rest ih =>
    -- Filtering and erasing behind the first item both only leave items out.
    rw [List.eraseDupsBy_cons]
    exact (ih.trans List.filter_sublist).cons_cons first

/-- No item that is left is the same as one before it. -/
theorem eraseDupsBy_pairwise (same : α → α → Bool) (items : List α) :
    (items.eraseDupsBy same).Pairwise fun first second => same second first = false := by
  induction items using induction_differing same with
  | nil => simp
  | cons first rest ih =>
    rw [List.eraseDupsBy_cons]
    apply List.pairwise_cons.mpr
    constructor
    · -- Behind the first item only those are looked at that differ from it.
      intro item member
      have kept := (eraseDupsBy_sublist same _).subset member
      simpa using (List.mem_filter.mp kept).2
    · exact ih

/-- Every item has one that is left and counts as the same. -/
theorem exists_mem_eraseDupsBy {same : α → α → Bool} (reflexive : ∀ item, same item item = true)
    {items : List α} {item : α} (member : item ∈ items) :
    ∃ kept ∈ items.eraseDupsBy same, same item kept = true := by
  induction items using induction_differing same with
  | nil => simp at member
  | cons first rest ih =>
    rw [List.eraseDupsBy_cons]
    -- An item is the same as the first one, or is still there when the rest is looked at.
    cases decided : same item first with
    | true => exact ⟨first, List.mem_cons_self, decided⟩
    | false =>
      rcases List.mem_cons.mp member with here | later
      · rw [here, reflexive first] at decided
        exact absurd decided (by decide)
      · obtain ⟨kept, inside, alike⟩ := ih (List.mem_filter.mpr ⟨later, by simp [decided]⟩)
        exact ⟨kept, List.mem_cons_of_mem _ inside, alike⟩

/-- By equality, no item is left twice. -/
theorem nodup_eraseDups [DecidableEq α] (items : List α) : items.eraseDups.Nodup := by
  have differing := eraseDupsBy_pairwise (· == ·) items
  apply differing.imp
  intro first second differs same
  simp [same] at differs

end DiceLab
