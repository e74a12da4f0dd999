import DiceLab.Proofs.Catalog.Files
import DiceLab.Proofs.Text.Order
import Mathlib

/-! Loading a catalog from a folder: each file decides about its own locale and no other one, unless two
files have one locale. -/

namespace DiceLab.Catalog

variable {folder : Folder} {entry : FolderEntry} {entries : Entries Value} {table : Table}

/-- The files of a folder with distinct names are its entries that are locale files, in some order. -/
theorem localeFiles_perm (distinct : (folder.entries.map FolderEntry.name).Nodup) :
    (localeFiles folder).Perm (folder.entries.filter fun entry => isLocaleFile entry.name) := by
  have keys : (folder.entries.map fun entry => (entry.name, entry)).map Prod.fst =
      folder.entries.map FolderEntry.name := by
    rw [List.map_map]
    rfl
  have values : (folder.entries.map fun entry => (entry.name, entry)).map Prod.snd =
      folder.entries := by
    rw [List.map_map]
    exact List.map_id _
  -- No name replaces another one, so only the order of the files is changed.
  rw [localeFiles, Entries.storeAll_of_nodup (keys ▸ distinct), values]
  exact List.mergeSort_perm _ _

/-- The files of a folder with distinct names are its entries that are locale files. -/
theorem mem_localeFiles (distinct : (folder.entries.map FolderEntry.name).Nodup)
    (entry : FolderEntry) :
    entry ∈ localeFiles folder ↔ entry ∈ folder.entries ∧ isLocaleFile entry.name = true := by
  rw [(localeFiles_perm distinct).mem_iff, List.mem_filter]

/-- One file stands strictly before another by its name. -/
def Before (first second : FolderEntry) : Prop :=
  first.name.inOrder second.name = true ∧ first.name ≠ second.name

/-- The files of a folder with distinct names are in strict order. -/
theorem localeFiles_pairwise (distinct : (folder.entries.map FolderEntry.name).Nodup) :
    (localeFiles folder).Pairwise Before := by
  have names : (localeFiles folder).Pairwise fun first second => first.name ≠ second.name := by
    have kept := (List.filter_sublist (p := fun entry => isLocaleFile entry.name)
      (l := folder.entries)).map FolderEntry.name
    exact List.pairwise_map.mp
      (((localeFiles_perm distinct).map FolderEntry.name).nodup_iff.mpr (distinct.sublist kept))
  -- Sorting orders the names, and as they differ the order is strict.
  refine List.Pairwise.and (List.pairwise_mergeSort ?_ ?_ _) names
  · exact fun first second third => Text.inOrder_trans first.name second.name third.name
  · exact fun first second => Text.inOrder_total first.name second.name

/-- The locale of a file is what stands before the ending, or the whole name when nothing does. -/
theorem localeOf_append (stem : Text) :
    localeOf (stem ++ fileEnding) = if stem = [] then fileEnding else stem := by
  have taken : (stem ++ fileEnding).take ((stem ++ fileEnding).length - fileEnding.length) = stem := by
    rw [List.length_append, Nat.add_sub_cancel, List.take_left]
  -- A name that is nothing but the ending is a locale of its own.
  simp only [localeOf, taken, List.isEmpty_iff]
  split
  · rename_i empty
    rw [empty, List.nil_append]
  · rfl

/-- Only two files have one locale: the one whose name is the ending, and the one whose name is that
with another ending. -/
theorem eq_of_localeOf_eq {first second : Text} (firstFile : isLocaleFile first = true)
    (secondFile : isLocaleFile second = true) (same : localeOf first = localeOf second) :
    first = second ∨ (first = ".json" ∧ second = ".json.json") ∨
      (first = ".json.json" ∧ second = ".json") := by
  obtain ⟨stem, rfl⟩ := List.isSuffixOf_iff_suffix.mp firstFile
  obtain ⟨other, rfl⟩ := List.isSuffixOf_iff_suffix.mp secondFile
  rw [localeOf_append, localeOf_append] at same
  -- Two names differ where only one of them has nothing in front of its ending.
  split at same
  · rename_i empty
    subst empty
    split at same
    · rename_i otherEmpty
      exact .inl (otherEmpty ▸ rfl)
    · exact .inr (.inl ⟨rfl, same ▸ rfl⟩)
  · split at same
    · rename_i otherEmpty
      subst otherEmpty same
      exact .inr (.inr ⟨rfl, rfl⟩)
    · exact .inl (same ▸ rfl)

/-- No file stands before one that stands before it. -/
theorem Before.not_before {first second : FolderEntry} (before : Before first second) :
    ¬Before second first := fun behind => before.2 (Text.eq_of_inOrder before.1 behind.1)

/-- A file counts for a locale when it offers a table to it. -/
def Counts (locale : Text) (entry : FolderEntry) : Prop :=
  localeOf entry.name = locale ∧ ∃ table, entry.Offers table

/-- A file offers one table only. -/
theorem offers_unique {other : Table} (one : entry.Offers table) (two : entry.Offers other) :
    table = other := by
  have read := readTable_of_offers ⟨[], []⟩ one
  rw [readTable_of_offers _ two] at read
  cases read
  rfl

/-- A table that the last file offers is stored behind those of the files in front. -/
theorem tablesOf_append {files : List FolderEntry} {last : FolderEntry}
    (offers : last.Offers table) :
    tablesOf folder (files ++ [last]) =
      (tablesOf folder files).store (localeOf last.name) table := by
  -- The table of the last file is stored last.
  rw [tablesOf, List.filterMap_append, List.filterMap_cons_some (given?_of_offers folder offers),
    Entries.storeAll, List.foldl_append]
  rfl

/-- A last file that does not count for a locale leaves it alone. -/
theorem find?_tablesOf_append {files : List FolderEntry} {last : FolderEntry}
    (shallow : ¬last.TooDeep) {locale : Text} (elsewhere : ¬Counts locale last) :
    (tablesOf folder (files ++ [last])).find? locale = (tablesOf folder files).find? locale := by
  by_cases offers : ∃ table, last.Offers table
  · -- A file with a table counts for its own locale, which is another one.
    obtain ⟨table, offers⟩ := offers
    rw [tablesOf_append offers, Entries.find?_store,
      if_neg fun here => elsewhere ⟨here, table, offers⟩]
  · rw [tablesOf, List.filterMap_append,
      List.filterMap_cons_none (given?_of_faulty folder offers shallow), List.filterMap_nil,
      List.append_nil]
    rfl

/-- A last file that does not count for a locale does not decide on its table either. -/
theorem decides_append {files : List FolderEntry} {last : FolderEntry} {locale : Text}
    (elsewhere : ¬Counts locale last) :
    (∃ entry ∈ files ++ [last], localeOf entry.name = locale ∧ entry.Offers table ∧
      ∀ other ∈ files ++ [last], Counts locale other → other = entry ∨ Before other entry) ↔
      ∃ entry ∈ files, localeOf entry.name = locale ∧ entry.Offers table ∧
        ∀ other ∈ files, Counts locale other → other = entry ∨ Before other entry := by
  constructor
  · rintro ⟨entry, member, here, offers, decides⟩
    rcases List.mem_append.mp member with front | same
    · exact ⟨entry, front, here, offers, fun other inside =>
        decides other (List.mem_append_left _ inside)⟩
    · obtain rfl := List.mem_singleton.mp same
      exact absurd ⟨here, table, offers⟩ elsewhere
  · rintro ⟨entry, member, here, offers, decides⟩
    refine ⟨entry, List.mem_append_left _ member, here, offers, ?_⟩
    intro other inside counts
    rcases List.mem_append.mp inside with front | same
    · exact decides other front counts
    · obtain rfl := List.mem_singleton.mp same
      exact absurd counts elsewhere

/-- The table of a locale is the one that the last file offers of those that count for it. -/
theorem find?_tablesOf {files : List FolderEntry} (ordered : files.Pairwise Before)
    (shallow : ∀ entry ∈ files, ¬entry.TooDeep) {locale : Text} :
    (tablesOf folder files).find? locale = some table ↔
      ∃ entry ∈ files, localeOf entry.name = locale ∧ entry.Offers table ∧
        ∀ other ∈ files, Counts locale other → other = entry ∨ Before other entry := by
  -- The last file is stored last, so the induction goes from there.
  induction files using List.reverseRecOn with
  | nil => simp [tablesOf, Entries.storeAll, Entries.find?]
  | append_singleton files last ih =>
    obtain ⟨filesShallow, lastShallow⟩ := List.forall_mem_append.mp shallow
    obtain ⟨filesOrdered, -, front⟩ := List.pairwise_append.mp ordered
    have inFront (entry : FolderEntry) (member : entry ∈ files) : Before entry last :=
      front entry member last (List.mem_singleton_self last)
    have atEnd : last ∈ files ++ [last] := List.mem_append_right _ (List.mem_singleton_self last)
    by_cases counts : Counts locale last
    · obtain ⟨here, latest, offers⟩ := counts
      rw [tablesOf_append offers, Entries.find?_store, if_pos here, Option.some.injEq]
      constructor
      · rintro rfl
        refine ⟨last, atEnd, here, offers, ?_⟩
        intro other member _
        rcases List.mem_append.mp member with before | same
        · exact .inr (inFront other before)
        · exact .inl (List.mem_singleton.mp same)
      · rintro ⟨entry, member, -, offersTable, decides⟩
        -- No file that counts stands behind the one that decides.
        rcases decides last atEnd ⟨here, latest, offers⟩ with rfl | before
        · exact offers_unique offers offersTable
        · rcases List.mem_append.mp member with front | same
          · exact absurd before (inFront entry front).not_before
          · obtain rfl := List.mem_singleton.mp same
            exact absurd before before.not_before
    · rw [find?_tablesOf_append (lastShallow last (List.mem_singleton_self last)) counts,
        ih filesOrdered filesShallow, decides_append counts]

/-- The locales of a catalog are those that have a table. -/
theorem mem_locales {catalog : Catalog} {locale : Text} :
    locale ∈ catalog.locales ↔ ∃ table, catalog.tables.find? locale = some table := by
  rw [locales, List.mem_mergeSort, ← Entries.isSome_find?, Option.isSome_iff_exists]

/--
A catalog holds what the files of a folder offer.

One locale may have two files, when one of them has nothing in front of its ending.
-/
structure Holds (catalog : Catalog) (folder : Folder) : Prop where
  /-- The locales are those of the files that decode to an object. -/
  locales (locale : Text) :
    locale ∈ catalog.locales ↔
      ∃ entry ∈ folder.entries, isLocaleFile entry.name = true ∧ localeOf entry.name = locale ∧
        ∃ entries, entry.Decodes entries
  /-- Each locale is there once. -/
  once : catalog.locales.Nodup
  /-- The table of a locale shows the object of its file, which is the later one of two. -/
  tables (locale : Text) (table : Table) :
    catalog.tables.find? locale = some table ↔
      ∃ entry ∈ folder.entries, isLocaleFile entry.name = true ∧ localeOf entry.name = locale ∧
        entry.Offers table ∧
        ¬(entry.name = ".json" ∧
          ∃ other ∈ folder.entries, other.name = ".json.json" ∧ ∃ entries, other.Decodes entries)
  /-- No other file has a say in the table of a file that has its locale for itself. -/
  alone (entry : FolderEntry) (member : entry ∈ folder.entries)
    (file : isLocaleFile entry.name = true) (stem : entry.name ≠ ".json")
    (single : entry.name ≠ ".json.json") (table : Table) :
    catalog.tables.find? (localeOf entry.name) = some table ↔ entry.Offers table

/-- Files in strict order are told by their names. -/
theorem eq_of_name_eq {files : List FolderEntry} (ordered : files.Pairwise Before)
    {first second : FolderEntry} (firstMember : first ∈ files) (secondMember : second ∈ files)
    (same : first.name = second.name) : first = second := by
  have distinct : (files.map FolderEntry.name).Nodup :=
    List.pairwise_map.mpr (ordered.imp fun before => before.2)
  exact List.inj_on_of_nodup_map distinct firstMember secondMember same

/-- Among files in strict order, the one that decides about its locale is the only one that counts for
it, or the later one of two. -/
theorem decides_iff {files : List FolderEntry} (ordered : files.Pairwise Before)
    (named : ∀ entry ∈ files, isLocaleFile entry.name = true) (member : entry ∈ files) :
    (∀ other ∈ files, Counts (localeOf entry.name) other → other = entry ∨ Before other entry) ↔
      ¬(entry.name = ".json" ∧
        ∃ other ∈ files, other.name = ".json.json" ∧ ∃ entries, other.Decodes entries) := by
  have late : ¬Text.inOrder ".json.json" ".json" = true := by decide
  constructor
  · rintro decides ⟨stem, other, inside, single, decodes⟩
    have counts : Counts (localeOf entry.name) other := by
      refine ⟨?_, exists_offers.mpr decodes⟩
      rw [stem, single]
      decide
    -- The other file would be the same one or stand in front, and it is neither.
    rcases decides other inside counts with rfl | before
    · rw [stem] at single
      exact absurd single (by decide)
    · have order := before.1
      rw [stem, single] at order
      exact late order
  · intro free other inside counts
    rcases eq_of_localeOf_eq (named other inside) (named entry member) counts.1 with
      same | ⟨otherStem, single⟩ | ⟨otherSingle, stem⟩
    · exact .inl (eq_of_name_eq ordered inside member same)
    · -- The one whose name is only the ending stands in front.
      right
      refine ⟨?_, ?_⟩
      · rw [otherStem, single]
        decide
      · rw [otherStem, single]
        decide
    · exact absurd ⟨stem, other, inside, otherSingle, exists_offers.mp counts.2⟩ free

/-- The table of a locale is the one that its file in the folder offers, or the later one of its two
files. -/
theorem find?_tablesOf_localeFiles (distinct : (folder.entries.map FolderEntry.name).Nodup)
    (shallow : ∀ entry ∈ localeFiles folder, ¬entry.TooDeep) (locale : Text) (table : Table) :
    (tablesOf folder (localeFiles folder)).find? locale = some table ↔
      ∃ entry ∈ folder.entries, isLocaleFile entry.name = true ∧ localeOf entry.name = locale ∧
        entry.Offers table ∧
        ¬(entry.name = ".json" ∧ ∃ other ∈ folder.entries,
          other.name = ".json.json" ∧ ∃ entries, other.Decodes entries) := by
  have ordered := localeFiles_pairwise distinct
  have member := mem_localeFiles distinct
  have named : ∀ entry ∈ localeFiles folder, isLocaleFile entry.name = true :=
    fun entry inside => ((member entry).mp inside).2
  rw [find?_tablesOf ordered shallow]
  constructor
  · rintro ⟨entry, inside, rfl, offers, decides⟩
    -- Of two files for one locale the later one decides, and only one pair of names stands for the
    -- same locale.
    obtain ⟨listed, file⟩ := (member entry).mp inside
    refine ⟨entry, listed, file, rfl, offers, ?_⟩
    rintro ⟨stem, other, otherListed, otherSingle, decodes⟩
    have otherFile : isLocaleFile other.name = true := by
      rw [otherSingle]
      decide
    exact (decides_iff ordered named inside).mp decides
      ⟨stem, other, (member other).mpr ⟨otherListed, otherFile⟩, otherSingle, decodes⟩
  · rintro ⟨entry, listed, file, rfl, offers, free⟩
    have inside := (member entry).mpr ⟨listed, file⟩
    refine ⟨entry, inside, rfl, offers, (decides_iff ordered named inside).mpr ?_⟩
    rintro ⟨stem, other, otherInside, otherSingle, decodes⟩
    exact free ⟨stem, other, ((member other).mp otherInside).1, otherSingle, decodes⟩

/-- The locales that have a table are those of the files that decode to an object. -/
theorem exists_find?_tablesOf (distinct : (folder.entries.map FolderEntry.name).Nodup)
    (shallow : ∀ entry ∈ localeFiles folder, ¬entry.TooDeep) (locale : Text) :
    (∃ table, (tablesOf folder (localeFiles folder)).find? locale = some table) ↔
      ∃ entry ∈ folder.entries, isLocaleFile entry.name = true ∧ localeOf entry.name = locale ∧
        ∃ entries, entry.Decodes entries := by
  simp only [find?_tablesOf_localeFiles distinct shallow, ← exists_offers]
  constructor
  · rintro ⟨table, entry, listed, file, here, offers, -⟩
    exact ⟨entry, listed, file, here, table, offers⟩
  · rintro ⟨entry, listed, file, here, table, offers⟩
    by_cases free : entry.name = ".json" ∧ ∃ other ∈ folder.entries,
        other.name = ".json.json" ∧ ∃ table, other.Offers table
    · -- The locale has a table, but it is that of the later file.
      obtain ⟨stem, other, otherListed, otherSingle, later, otherOffers⟩ := free
      have otherFile : isLocaleFile other.name = true := by
        rw [otherSingle]
        decide
      have otherHere : localeOf other.name = locale := by
        rw [otherSingle, ← here, stem]
        decide
      refine ⟨later, other, otherListed, otherFile, otherHere, otherOffers, ?_⟩
      rintro ⟨otherStem, -⟩
      rw [otherSingle] at otherStem
      exact absurd otherStem (by decide)
    · exact ⟨table, entry, listed, file, here, offers, free⟩

/-- What is stored of the files of a folder is what they offer. -/
theorem holds_tablesOf (distinct : (folder.entries.map FolderEntry.name).Nodup)
    (shallow : ∀ entry ∈ localeFiles folder, ¬entry.TooDeep) (default : Text) :
    Holds ⟨tablesOf folder (localeFiles folder), default⟩ folder := by
  have tables := find?_tablesOf_localeFiles distinct shallow
  refine ⟨?_, ?_, tables, ?_⟩
  · intro locale
    rw [mem_locales]
    exact exists_find?_tablesOf distinct shallow locale
  · rw [locales, (List.mergeSort_perm _ _).nodup_iff]
    exact Entries.nodup_storeAll List.nodup_nil
  · intro entry listed file stem notSingle table
    rw [tables]
    constructor
    · -- The file that decides about the locale is this one, as it is neither of the two.
      rintro ⟨other, otherListed, otherFile, here, offers, -⟩
      rcases eq_of_localeOf_eq otherFile file here with same | ⟨-, single⟩ | ⟨-, isStem⟩
      · rwa [List.inj_on_of_nodup_map distinct otherListed listed same] at offers
      · exact absurd single notSingle
      · exact absurd isStem stem
    · intro offers
      exact ⟨entry, listed, file, rfl, offers, fun free => stem free.1⟩

/--
Loading the shared catalog anew from a folder never fails, and the catalog it gives is that of the files
in the folder, whatever was loaded before.

Each file that does not decode to an object is warned about once, in the order of the names.
-/
theorem reload_isolated {folder : Folder}
    (distinct : (folder.entries.map FolderEntry.name).Nodup)
    (shallow : ∀ entry ∈ folder.entries, isLocaleFile entry.name = true → ¬entry.TooDeep)
    (default : Text) :
    ∃ catalog : Catalog, catalog.default = default ∧ catalog.Holds folder ∧
      ∀ before : Option Catalog, ∃ notices skipped,
        Shared.reload (some folder) default before = (⟨notices, .ok ()⟩, some catalog) ∧
        skipped.Pairwise Before ∧
        (∀ entry, entry ∈ skipped ↔ entry ∈ folder.entries ∧ isLocaleFile entry.name = true ∧
          ¬∃ entries, entry.Decodes entries) ∧
        List.Forall₂ (Reports folder) skipped (Notice.warnings notices) := by
  have member := mem_localeFiles distinct
  have shallowFiles : ∀ entry ∈ localeFiles folder, ¬entry.TooDeep := by
    intro entry inside
    obtain ⟨listed, file⟩ := (member entry).mp inside
    exact shallow entry listed file
  refine ⟨_, rfl, holds_tablesOf distinct shallowFiles default, ?_⟩
  intro before
  -- What was loaded before has no say in the tables, only in what is told about them.
  obtain ⟨notices, reloaded, reported⟩ := reload_folder shallowFiles default before
  refine ⟨notices, _, reloaded, (localeFiles_pairwise distinct).filter _, ?_, reported⟩
  intro entry
  rw [List.mem_filter, member entry, and_assoc, Option.isNone_iff_eq_none, ← exists_offers]
  refine and_congr_right fun listed => and_congr_right fun file => ?_
  constructor
  · rintro nothing ⟨table, offers⟩
    rw [given?_of_offers folder offers] at nothing
    cases nothing
  · intro faulty
    exact given?_of_faulty folder faulty (shallow entry listed file)

/-- A file that decodes to an object is not too deep. -/
theorem FolderEntry.Decodes.not_tooDeep (decodes : entry.Decodes entries) : ¬entry.TooDeep := by
  obtain ⟨text, known, parsed⟩ := decodes
  rintro ⟨other, otherKnown, deep⟩
  rw [known, Option.some.injEq] at otherKnown
  rw [← otherKnown, parsed] at deep
  cases deep

/-- A file that holds no text is not too deep. -/
theorem not_tooDeep_of_text? (none : entry.text? = none) : ¬entry.TooDeep := by
  rintro ⟨text, known, -⟩
  rw [none] at known
  cases known

/-- A number in the file of one locale is read between a file that holds no text and a folder. -/
theorem reload_isolated_mixed :
    let whole : FolderEntry := ⟨"a.json", some "\x7b\x22k\x22: 1\x7d".toUTF8⟩
    let folder : Folder := ⟨"locales", [⟨"b.json", some ⟨#[0xff]⟩⟩, whole, ⟨"c.json", none⟩]⟩
    let table : Table := [("k", "1")]
    ∃ catalog : Catalog, catalog.tables.find? "a" = some table ∧
      ∀ before : Option Catalog, ∃ notices,
        Shared.reload (some folder) "en" before = (⟨notices, .ok ()⟩, some catalog) := by
  intro whole folder table
  have decodes : whole.Decodes [("k", .whole 1)] := ⟨"\x7b\x22k\x22: 1\x7d", by decide, by cbv⟩
  have shallow : ∀ entry ∈ folder.entries, isLocaleFile entry.name = true → ¬entry.TooDeep := by
    rintro entry member -
    simp only [folder, List.mem_cons, List.not_mem_nil, or_false] at member
    rcases member with rfl | rfl | rfl
    · exact not_tooDeep_of_text? (by decide)
    · exact decodes.not_tooDeep
    · exact not_tooDeep_of_text? rfl
  obtain ⟨catalog, -, holds, reloaded⟩ := reload_isolated (by decide) shallow "en"
  refine ⟨catalog, ?_, ?_⟩
  · have writable : Decimal.Writable 1 := (Decimal.writable_iff_length 1).mpr (by decide)
    have shown : (Value.whole 1).shown = .ok "1" := by
      rw [Value.shown, Value.quoted, Decimal.write, if_pos writable]
      · rfl
      · simp
    have offers : whole.Offers table := ⟨_, decodes, .cons ⟨rfl, shown⟩ .nil⟩
    exact (holds.alone whole (by simp [folder]) (by decide) (by decide) (by decide) _).mpr offers
  · intro before
    obtain ⟨notices, skipped, done, -⟩ := reloaded before
    exact ⟨notices, done⟩

/-- A file whose name is only the ending loses its locale to one that has the ending twice. -/
theorem reload_endingTwice :
    let stem : FolderEntry := ⟨".json", some "\x7b\x22k\x22: \x221\x22\x7d".toUTF8⟩
    let twice : FolderEntry := ⟨".json.json", some "\x7b\x22k\x22: \x222\x22\x7d".toUTF8⟩
    let folder : Folder := ⟨"locales", [stem, twice]⟩
    let early : Table := [("k", "1")]
    let late : Table := [("k", "2")]
    stem.Offers early ∧ localeOf stem.name = ".json" ∧
      ∃ notices catalog,
        Shared.reload (some folder) "en" none = (⟨notices, .ok ()⟩, some catalog) ∧
        catalog.tables.find? ".json" = some late ∧ late ≠ early := by
  intro stem twice folder early late
  have stemDecodes : stem.Decodes [("k", .text "1")] :=
    ⟨"\x7b\x22k\x22: \x221\x22\x7d", by decide, by cbv⟩
  have twiceDecodes : twice.Decodes [("k", .text "2")] :=
    ⟨"\x7b\x22k\x22: \x222\x22\x7d", by decide, by cbv⟩
  have distinct : (folder.entries.map FolderEntry.name).Nodup := by decide
  have shallow : ∀ entry ∈ localeFiles folder, ¬entry.TooDeep := by
    intro entry member
    have listed := (mem_localeFiles distinct entry).mp member
    simp only [folder, List.mem_cons, List.not_mem_nil, or_false] at listed
    rcases listed with ⟨rfl | rfl, -⟩
    · exact stemDecodes.not_tooDeep
    · exact twiceDecodes.not_tooDeep
  obtain ⟨notices, reloaded, -⟩ := reload_folder shallow "en" none
  refine ⟨⟨_, stemDecodes, .cons ⟨rfl, rfl⟩ .nil⟩, by decide, notices, _, reloaded, ?_, by decide⟩
  apply ((holds_tablesOf distinct shallow "en").tables ".json" _).mpr
  exact ⟨twice, by simp [folder], by decide, by decide,
    ⟨_, twiceDecodes, .cons ⟨rfl, rfl⟩ .nil⟩, fun free => absurd free.1 (by decide)⟩

end DiceLab.Catalog
