import DiceLab.Proofs.Value.Json

/-! The values that can be shown are those in which every whole number is short enough to be
written, at any depth. -/

namespace DiceLab

namespace Value

/-- What holds of values without parts, and of lists and tables when it holds of all their parts,
holds of every value. -/
theorem induction_parts {motive : Value → Prop} (null : motive .null)
    (truth : ∀ value, motive (.truth value)) (whole : ∀ value, motive (.whole value))
    (real : ∀ value, motive (.real value)) (text : ∀ value, motive (.text value))
    (list : ∀ items, (∀ item ∈ items, motive item) → motive (.list items))
    (table : ∀ entries, (∀ entry ∈ entries, motive entry.2) → motive (.table entries)) :
    ∀ value, motive value
  -- The parts of a value are smaller than the value, however deep they stand in it.
  | .null => null
  | .truth value => truth value
  | .whole value => whole value
  | .real value => real value
  | .text value => text value
  | .list items => list items fun item _ =>
    induction_parts null truth whole real text list table item
  | .table entries => table entries fun entry _ =>
    induction_parts null truth whole real text list table entry.2
termination_by value => sizeOf value
decreasing_by
  · have smaller := List.sizeOf_lt_of_mem ‹item ∈ items›
    simp only [Value.list.sizeOf_spec]
    omega
  · have smaller := List.sizeOf_lt_of_mem ‹entry ∈ entries›
    obtain ⟨key, item⟩ := entry
    simp only [Value.table.sizeOf_spec, Prod.mk.sizeOf_spec] at smaller ⊢
    omega

/-- Every whole number in a value, at any depth, is short enough to be written. -/
inductive Short : Value → Prop where
  | null : Short .null
  | truth (value : Bool) : Short (.truth value)
  | whole {value : Int} (writable : Decimal.Writable value) : Short (.whole value)
  | real (value : Binary64) : Short (.real value)
  | text (value : Text) : Short (.text value)
  | list {items : List Value} (each : ∀ item ∈ items, Short item) : Short (.list items)
  | table {entries : List (Text × Value)} (each : ∀ entry ∈ entries, Short entry.2) :
    Short (.table entries)

/-- A short value can be shown. -/
theorem Short.showable {value : Value} (short : value.Short) : value.Showable := by
  induction short with
  | null => exact ⟨_, rfl⟩
  | truth value =>
    cases value with
    | true => exact ⟨_, rfl⟩
    | false => exact ⟨_, rfl⟩
  -- Only whole numbers can be too long; other plain values always have a text.
  | whole writable => exact ⟨_, Decimal.write_eq_ok.mpr ⟨writable, rfl⟩⟩
  | real value => exact ⟨_, rfl⟩
  | text value => exact ⟨_, rfl⟩
  | list _ ih => exact showable_list.mpr ih
  | table _ ih => exact showable_table.mpr ih

/-- A value that can be shown is short. -/
theorem Showable.short {value : Value} (showable : value.Showable) : value.Short := by
  induction value using induction_parts with
  | null => exact .null
  | truth value => exact .truth value
  -- Writing succeeds on short numbers only.
  | whole value =>
    obtain ⟨_, written⟩ := showable
    rw [quoted, Decimal.write_eq_ok] at written
    exact .whole written.1
  | real value => exact .real value
  | text value => exact .text value
  | list items ih =>
    exact .list fun item member => ih item member (showable_list.mp showable item member)
  | table entries ih =>
    exact .table fun entry member => ih entry member (showable_table.mp showable entry member)

end Value

end DiceLab
