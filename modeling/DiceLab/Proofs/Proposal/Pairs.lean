import DiceLab.Proofs.Proposal.Dice
import Mathlib.Data.List.FinRange

/-! The pairs of a list stand at the unordered pairs of its positions, each of which is taken
once. -/

namespace DiceLab.Proposal

/-- Pairs of images are images of pairs. -/
theorem pairs_map {α β : Type} (turn : α → β) (items : List α) :
    pairs (items.map turn) = (pairs items).map (Prod.map turn turn) := by
  induction items with
  | nil => rfl
  | cons first rest ih => simp [pairs, ih]

/-- Different items are paired once. -/
theorem nodup_pairs {α : Type} {items : List α} (distinct : items.Nodup) : (pairs items).Nodup := by
  induction items with
  | nil => exact List.nodup_nil
  | cons first rest ih =>
    obtain ⟨absent, others⟩ := List.nodup_cons.mp distinct
    have second : Function.Injective (Prod.mk (β := α) first) := Prod.mk_right_injective first
    refine List.nodup_append.mpr ⟨distinct.map second, ih others, ?_⟩
    -- What stands in front is in no pair of those behind it.
    rintro pair front other behind rfl
    obtain ⟨second, -, rfl⟩ := List.mem_map.mp front
    exact absent (mem_of_mem_pairs behind).1

/-- A pair begins with the first item, or stands behind it. -/
theorem mem_pairs_cons {α : Type} {first left right : α} {rest : List α} :
    (left, right) ∈ pairs (first :: rest) ↔
      left = first ∧ right ∈ first :: rest ∨ (left, right) ∈ pairs rest := by
  simp only [pairs, List.mem_append, List.mem_map, Prod.mk.injEq]
  constructor
  · rintro (⟨_, member, rfl, rfl⟩ | behind)
    · -- The item in front is paired with itself and with all that stand behind it.
      exact .inl ⟨rfl, member⟩
    · exact .inr behind
  · rintro (⟨rfl, member⟩ | behind)
    · exact .inl ⟨_, member, rfl, rfl⟩
    · exact .inr behind

/-- The pairs of a rising list are those of its items that do not fall. -/
theorem mem_pairs_of_rising {α : Type} [LinearOrder α] {items : List α}
    (rising : items.Pairwise (· < ·)) {left right : α} :
    (left, right) ∈ pairs items ↔ left ∈ items ∧ right ∈ items ∧ left ≤ right := by
  induction items with
  | nil => simp [pairs]
  | cons first rest ih =>
    obtain ⟨above, others⟩ := List.pairwise_cons.mp rising
    rw [mem_pairs_cons, ih others]
    -- The first item is below all others, so it can only be the left one of a pair.
    constructor
    · rintro (⟨rfl, member⟩ | ⟨inside, otherInside, order⟩)
      · refine ⟨List.mem_cons_self, member, ?_⟩
        rcases List.mem_cons.mp member with rfl | later
        · exact le_rfl
        · exact (above right later).le
      · exact ⟨List.mem_cons_of_mem _ inside, List.mem_cons_of_mem _ otherInside, order⟩
    · rintro ⟨inside, otherInside, order⟩
      rcases List.mem_cons.mp inside with rfl | later
      · exact .inl ⟨rfl, otherInside⟩
      · -- What is not below an item behind the first one stands behind the first one itself.
        rcases List.mem_cons.mp otherInside with rfl | otherLater
        · exact absurd (above left later) (not_lt.mpr order)
        · exact .inr ⟨later, otherLater, order⟩

/-- The unordered pairs of positions of a list of some length. -/
def positions (length : Nat) : List (Fin length × Fin length) := pairs (List.finRange length)

/-- A pair of items stands at a pair of positions. -/
theorem pairs_eq_positions {α : Type} (items : List α) :
    pairs items = (positions items.length).map fun position =>
      (items.get position.1, items.get position.2) := by
  have read := pairs_map items.get (List.finRange items.length)
  rwa [List.map_get_finRange] at read

/-- Each two positions are paired, and once only. -/
theorem nodup_positions (length : Nat) : (positions length).Nodup :=
  nodup_pairs (List.nodup_finRange length)

/-- A position is paired with itself and with those behind it. -/
theorem mem_positions {length : Nat} {first second : Fin length} :
    (first, second) ∈ positions length ↔ first ≤ second := by
  unfold positions
  rw [mem_pairs_of_rising (List.pairwise_lt_finRange length)]
  simp

end DiceLab.Proposal
