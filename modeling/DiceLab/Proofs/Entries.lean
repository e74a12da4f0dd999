import DiceLab.Entries

/-! Laws of entries: what is stored is found, and the last value that is stored under a key counts. -/

namespace DiceLab.Entries

variable {α : Type}

/-- What is stored is the new entry or was there before. -/
theorem mem_store {key : Text} {value : α} {entries : Entries α} {entry : Text × α}
    (member : entry ∈ store key value entries) : entry = (key, value) ∨ entry ∈ entries := by
  unfold store at member
  split at member
  · obtain ⟨old, inside, made⟩ := List.mem_map.mp member
    -- An entry for the key is replaced where it stands, and any other one is kept.
    split at made
    · exact .inl made.symm
    · rw [← made]
      exact .inr inside
  · rcases List.mem_append.mp member with before | last
    · exact .inr before
    · exact .inl (List.mem_singleton.mp last)

/-- Stored entries are among those that were added, or were there before. -/
theorem mem_storeAll {added entries : Entries α} {entry : Text × α}
    (member : entry ∈ storeAll added entries) : entry ∈ added ∨ entry ∈ entries := by
  -- The entries grow from step to step, so they stay quantified over.
  unfold storeAll at member
  induction added generalizing entries with
  | nil => exact .inr member
  | cons first rest ih =>
    rw [List.foldl_cons] at member
    rcases ih member with later | before
    · exact .inl (List.mem_cons_of_mem _ later)
    · rcases mem_store before with same | old
      · exact .inl (same ▸ List.mem_cons_self)
      · exact .inr old

/-- What is stored under a key is found there, and under other keys nothing changes. -/
theorem find?_store (key wanted : Text) (value : α) (entries : Entries α) :
    (store key value entries).find? wanted =
      if key = wanted then some value else entries.find? wanted := by
  unfold store
  split
  · rename_i known
    -- An old entry keeps its key, so the same entry is found as before.
    have same : ((fun entry : Text × α => entry.1 == wanted) ∘ fun entry =>
        if entry.1 == key then (key, value) else entry) = fun entry => entry.1 == wanted := by
      funext entry
      by_cases at_ : entry.1 = key
      · simp [at_]
      · simp [at_]
    rw [find?, List.find?_map, same]
    by_cases equal : key = wanted
    · subst equal
      obtain ⟨old, member, named⟩ := List.any_eq_true.mp known
      have some : (List.find? (fun entry : Text × α => entry.1 == key) entries).isSome :=
        List.find?_isSome.mpr ⟨old, member, named⟩
      obtain ⟨first, found⟩ := Option.isSome_iff_exists.mp some
      have firstNamed : first.1 = key := by simpa using List.find?_some found
      simp [found, firstNamed]
    · cases found : List.find? (fun entry => entry.1 == wanted) entries with
      | none => simp [find?, found, equal]
      | some first =>
        have firstNamed : first.1 = wanted := by simpa using List.find?_some found
        have other : ¬first.1 = key := fun same => equal (same.symm.trans firstNamed)
        simp [find?, found, equal, other]
  · rename_i unknown
    by_cases equal : key = wanted
    · subst equal
      have none : List.find? (fun entry : Text × α => entry.1 == key) entries = none := by
        rw [List.find?_eq_none]
        exact fun entry member named => unknown (List.any_eq_true.mpr ⟨entry, member, named⟩)
      simp [find?, List.find?_append, none]
    · simp [find?, List.find?_append, equal]

/-- What is found behind stored entries is one of them, or else what was found before. -/
theorem find?_storeAll (added entries : Entries α) (wanted : Text) :
    (storeAll added entries).find? wanted =
      ((storeAll added []).find? wanted).or (entries.find? wanted) := by
  -- Both lookups go through the entry that is stored first.
  induction added generalizing entries with
  | nil => rfl
  | cons first rest ih =>
    have step (entries : Entries α) : storeAll (first :: rest) entries =
        storeAll rest (store first.1 first.2 entries) := rfl
    rw [step, step, ih, ih (store first.1 first.2 []), Option.or_assoc, find?_store, find?_store]
    by_cases equal : first.1 = wanted
    · simp [equal]
    · simp [equal, find?]

/-- Entries under other keys are found as before when some are left out. -/
theorem find?_filter (kept : Text → Bool) (entries : Entries α) (wanted : Text) :
    find? wanted (entries.filter fun entry => kept entry.1) =
      if kept wanted then entries.find? wanted else none := by
  -- An entry for the wanted key is kept as that key is.
  have same : (fun entry : Text × α => decide (kept entry.1 ∧ entry.1 == wanted)) =
      fun entry => kept wanted && entry.1 == wanted := by
    funext entry
    by_cases named : entry.1 = wanted
    · simp [named]
    · simp [named]
  rw [find?, List.find?_filter, same]
  cases kept wanted with
  | true => simp [find?]
  | false => simp

/-- Something is found under the keys of entries and under no others. -/
theorem isSome_find? {key : Text} {entries : Entries α} :
    (entries.find? key).isSome = true ↔ key ∈ entries.map Prod.fst := by
  simp only [find?, Option.isSome_map, List.find?_isSome, beq_iff_eq, List.mem_map]

/-- What is stored under a new key goes last. -/
theorem store_of_not_mem {key : Text} {entries : Entries α} (value : α)
    (unknown : key ∉ entries.map Prod.fst) : store key value entries = entries ++ [(key, value)] := by
  refine if_neg fun known => unknown ?_
  obtain ⟨entry, member, named⟩ := List.any_eq_true.mp known
  exact List.mem_map.mpr ⟨entry, member, by simpa using named⟩

/-- Storing under a key leaves every key once. -/
theorem nodup_store {key : Text} {value : α} {entries : Entries α}
    (nodup : (entries.map Prod.fst).Nodup) : ((store key value entries).map Prod.fst).Nodup := by
  by_cases known : key ∈ entries.map Prod.fst
  · have same : (store key value entries).map Prod.fst = entries.map Prod.fst := by
      obtain ⟨entry, member, named⟩ := List.mem_map.mp known
      have found : (entries.any fun entry => entry.1 == key) = true :=
        List.any_eq_true.mpr ⟨entry, member, by simpa using named⟩
      rw [store, if_pos found, List.map_map]
      refine List.map_congr_left fun other _ => ?_
      -- Only an entry that has the key already gets it.
      by_cases at_ : other.1 = key
      · simp [at_]
      · simp [at_]
    rwa [same]
  · rw [store_of_not_mem value known, List.map_append, List.nodup_append]
    refine ⟨nodup, by simp, ?_⟩
    intro old member other last same
    obtain rfl := List.mem_singleton.mp last
    exact known (same ▸ member)

/-- Storing many entries leaves every key once. -/
theorem nodup_storeAll {added entries : Entries α} (nodup : (entries.map Prod.fst).Nodup) :
    ((storeAll added entries).map Prod.fst).Nodup := by
  unfold storeAll
  induction added generalizing entries with
  | nil => exact nodup
  | cons first rest ih => exact ih (nodup_store nodup)

/-- Entries under keys of their own are stored as they are. -/
theorem storeAll_of_nodup {added : Entries α} (nodup : (added.map Prod.fst).Nodup) :
    storeAll added [] = added := by
  -- What has been stored so far is the part of the list in front.
  have general : ∀ (rest stored : Entries α), ((stored ++ rest).map Prod.fst).Nodup →
      storeAll rest stored = stored ++ rest := by
    intro rest
    induction rest with
    | nil =>
      intro stored _
      exact (List.append_nil stored).symm
    | cons first rest ih =>
      intro stored nodup
      have unknown : first.1 ∉ stored.map Prod.fst := by
        intro member
        rw [List.map_append, List.map_cons, List.nodup_append] at nodup
        exact nodup.2.2 _ member _ List.mem_cons_self rfl
      have joined : stored ++ first :: rest = (stored ++ [first]) ++ rest := by simp
      rw [joined] at nodup ⊢
      rw [← ih _ nodup, ← store_of_not_mem first.2 unknown]
      rfl
  exact general added [] nodup

end DiceLab.Entries
