import DiceLab.Proofs.Entries
import DiceLab.Proofs.Formula.Size
import DiceLab.Proofs.Report
import DiceLab.Value.Json

/-! Whatever is read from a file can be shown: its whole numbers have no more digits than can be
written. -/

namespace DiceLab

namespace Value

/-- A value can be shown, inside another one as well. -/
def Showable (value : Value) : Prop := ∃ text, value.quoted = .ok text

variable {value : Value}

/-- A value that can be shown inside another one can be shown on its own. -/
theorem Showable.shown (showable : value.Showable) : ∃ text, value.shown = .ok text := by
  cases value with
  | text given => exact ⟨given, rfl⟩
  | _ =>
    -- Only a text is shown in another way on its own.
    exact showable

/-- The items of a list are shown one after the other. -/
theorem quotedItems_eq_mapM (items : List Value) : quotedItems items = items.mapM quoted := by
  induction items with
  | nil => rfl
  | cons item rest ih => rw [quotedItems, ih, List.mapM_cons]

/-- The entries of a table are shown one after the other, each value behind its key. -/
theorem quotedEntries_eq_mapM (entries : Entries Value) :
    quotedEntries entries =
      entries.mapM fun entry => do return Text.quoted entry.1 ++ ": " ++ (← entry.2.quoted) := by
  induction entries with
  | nil => rfl
  | cons entry rest ih => rw [quotedEntries, ih, List.mapM_cons]; simp only [bind_assoc, pure_bind]

/-- A list can be shown exactly when its items can. -/
theorem showable_list {items : List Value} :
    (list items).Showable ↔ ∀ item ∈ items, item.Showable := by
  unfold Showable
  rw [quoted, exists_bind_pure_eq_ok, quotedItems_eq_mapM, exists_mapM_eq_ok_iff]

/-- A table can be shown exactly when the values of its entries can. -/
theorem showable_table {entries : Entries Value} :
    (table entries).Showable ↔ ∀ entry ∈ entries, entry.2.Showable := by
  unfold Showable
  rw [quoted, exists_bind_pure_eq_ok, quotedEntries_eq_mapM, exists_mapM_eq_ok_iff]
  -- A key can always be quoted.
  simp only [exists_bind_pure_eq_ok]

end Value

namespace Json

open Value (Showable)

variable {text rest : Text} {value : Value}

/-- Words stand for values that can be shown. -/
theorem showable_of_mem_wordValues {word : String × Value} (member : word ∈ wordValues) :
    word.2.Showable := by
  simp only [wordValues, List.mem_cons, List.not_mem_nil, or_false] at member
  rcases member with rfl | rfl | rfl | rfl | rfl | rfl
  all_goals exact ⟨_, rfl⟩

/-- A number of a file can be shown, since it is not read when it has too many digits. -/
theorem showable_of_readNumber (ok : readNumber .ofFiles text = .ok (value, rest)) :
    value.Showable := by
  simp only [readNumber] at ok
  -- Where the digits start does not matter, only how many there are.
  generalize (if (text.head? == some (.char '-')) = true then text.drop 1 else text) = body at ok
  split at ok
  · cases ok
  · split at ok
    · split at ok
      · cases ok
      · rename_i few
        obtain ⟨rfl, -⟩ := Prod.mk.inj (Except.ok.inj ok)
        have short : (takeWhole body).1.length ≤ Decimal.digitLimit := by
          simpa [Limits.ofFiles] using few
        have writable : Decimal.Writable (Decimal.valueOf (takeWhole body).1) :=
          Nat.lt_of_lt_of_le (Decimal.valueOf_lt _) (tenTo_le short)
        refine ⟨_, Decimal.write_eq_ok.mpr ⟨?_, rfl⟩⟩
        -- The sign leaves the number of digits as it is.
        split
        · rwa [Decimal.Writable, Int.natAbs_neg]
        · exact writable
    · obtain ⟨rfl, -⟩ := Prod.mk.inj (Except.ok.inj ok)
      exact ⟨_, rfl⟩

/-- A word or a number of a file can be shown. -/
theorem showable_of_readPlain (ok : readPlain .ofFiles text = .ok (value, rest)) :
    value.Showable := by
  unfold readPlain at ok
  split at ok
  · rename_i word known found
    -- A known word stands for its value, and anything else is read as a number.
    obtain ⟨rfl, -⟩ := Prod.mk.inj (Except.ok.inj ok)
    exact showable_of_mem_wordValues (List.mem_of_find?_eq_some found)
  · exact showable_of_readNumber ok

/-- What is read from a file with so much fuel can be shown. -/
structure ReadsShowable (fuel : Nat) : Prop where
  value {room : Nat} {text rest : Text} {value : Value}
    (ok : readValue .ofFiles fuel room text = .ok (value, rest)) : value.Showable
  items {room : Nat} {text rest : Text} {items : List Value}
    (ok : readItems .ofFiles fuel room text = .ok (items, rest)) : ∀ item ∈ items, item.Showable
  /-- Entries are read behind others, which have been read before. -/
  entries {room : Nat} {text rest : Text} {stored entries : Entries Value}
    (before : ∀ entry ∈ stored, entry.2.Showable)
    (ok : readEntries .ofFiles fuel room stored text = .ok (entries, rest)) :
    ∀ entry ∈ entries, entry.2.Showable

/-- Without fuel nothing is read. -/
theorem readsShowable_zero : ReadsShowable 0 where
  -- Without any depth left nothing is read.
  value ok := by
    rw [readValue] at ok
    cases ok
  items ok := by
    rw [readItems] at ok
    cases ok
  entries _ ok := by
    rw [readEntries] at ok
    cases ok

namespace ReadsShowable

variable {fuel room : Nat} (smaller : ReadsShowable fuel)

include smaller

/-- A value that is read holds what is read with less fuel. -/
theorem value_succ (ok : readValue .ofFiles (fuel + 1) room text = .ok (value, rest)) :
    value.Showable := by
  rw [readValue] at ok
  -- The first code point tells a text, a list and a table from a word or a number.
  split at ok
  · obtain ⟨⟨known, behind⟩, -, made⟩ := bind_eq_ok.mp ok
    obtain ⟨rfl, -⟩ := Prod.mk.inj (Except.ok.inj made)
    exact ⟨_, rfl⟩
  · split at ok
    · cases ok
    · obtain ⟨rfl, -⟩ := Prod.mk.inj (Except.ok.inj ok)
      exact Value.showable_list.mpr (by simp)
    · obtain ⟨⟨items, behind⟩, inside, made⟩ := bind_eq_ok.mp ok
      obtain ⟨rfl, -⟩ := Prod.mk.inj (Except.ok.inj made)
      exact Value.showable_list.mpr (smaller.items inside)
  · split at ok
    · cases ok
    · obtain ⟨rfl, -⟩ := Prod.mk.inj (Except.ok.inj ok)
      exact Value.showable_table.mpr (by simp)
    · obtain ⟨⟨entries, behind⟩, inside, made⟩ := bind_eq_ok.mp ok
      obtain ⟨rfl, -⟩ := Prod.mk.inj (Except.ok.inj made)
      exact Value.showable_table.mpr (smaller.entries (by simp) inside)
  · exact showable_of_readPlain ok

/-- The items that are read are a value and the items behind it. -/
theorem items_succ {items : List Value}
    (ok : readItems .ofFiles (fuel + 1) room text = .ok (items, rest)) :
    ∀ item ∈ items, item.Showable := by
  rw [readItems] at ok
  obtain ⟨⟨item, behind⟩, first, ok⟩ := bind_eq_ok.mp ok
  have showable := smaller.value first
  dsimp only at ok
  -- Behind an item stands a comma, the end of the list, or what is refused.
  split at ok
  · obtain ⟨⟨others, last⟩, later, made⟩ := bind_eq_ok.mp ok
    obtain ⟨rfl, -⟩ := Prod.mk.inj (Except.ok.inj made)
    exact List.forall_mem_cons.mpr ⟨showable, smaller.items later⟩
  · obtain ⟨rfl, -⟩ := Prod.mk.inj (Except.ok.inj ok)
    exact List.forall_mem_singleton.mpr showable
  · cases ok

/-- The entries that are read are those before, a new one, and the entries behind it. -/
theorem entries_succ {stored entries : Entries Value}
    (before : ∀ entry ∈ stored, entry.2.Showable)
    (ok : readEntries .ofFiles (fuel + 1) room stored text = .ok (entries, rest)) :
    ∀ entry ∈ entries, entry.2.Showable := by
  rw [readEntries] at ok
  obtain ⟨⟨key, behind⟩, -, ok⟩ := bind_eq_ok.mp ok
  obtain ⟨⟨value, last⟩, first, ok⟩ := bind_eq_ok.mp ok
  -- The entries behind are stored over those that have been read with the new one.
  have together : ∀ entry ∈ stored.store key value, entry.2.Showable := by
    intro entry member
    rcases Entries.mem_store member with rfl | old
    · exact smaller.value first
    · exact before entry old
  dsimp only at ok
  split at ok
  · exact smaller.entries together ok
  · obtain ⟨rfl, -⟩ := Prod.mk.inj (Except.ok.inj ok)
    exact together
  · cases ok

end ReadsShowable

/-- What is read from a file can be shown, whatever the fuel. -/
theorem readsShowable (fuel : Nat) : ReadsShowable fuel := by
  induction fuel with
  | zero => exact readsShowable_zero
  | succ fuel ih => exact ⟨ih.value_succ, ih.items_succ, ih.entries_succ⟩

/-- Every value that a file holds can be shown. -/
theorem showable_of_parse (ok : parse .ofFiles text = .ok value) : value.Showable := by
  obtain ⟨⟨known, rest⟩, read, made⟩ := bind_eq_ok.mp ok
  dsimp only at made
  -- The text must end behind the value.
  split at made
  · obtain rfl := Except.ok.inj made
    exact (readsShowable _).value read
  · cases made

end Json

end DiceLab
