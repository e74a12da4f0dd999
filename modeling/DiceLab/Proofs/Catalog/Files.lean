import DiceLab.Catalog.Shared
import DiceLab.Proofs.Value.Json

/-! The files of a folder one after another: each adds the table it offers to a catalog, or is left out
with a warning. -/

namespace DiceLab.Catalog

/-- A table has the keys of an object, each with the text of its value. -/
def Shows (entries : Entries Value) (table : Table) : Prop :=
  List.Forall₂ (fun entry line => line.1 = entry.1 ∧ entry.2.shown = .ok line.2) entries table

namespace FolderEntry

/-- The text that a file holds, when its bytes stand for one. -/
def text? (entry : FolderEntry) : Option Text := do
  return Text.ofString (← entry.content.bind String.fromUTF8?)

/-- What a file holds decodes to an object with these entries. -/
def Decodes (entry : FolderEntry) (entries : Entries Value) : Prop :=
  ∃ text, entry.text? = some text ∧ Json.parse .ofFiles text = .ok (.table entries)

/-- What a file holds is too deep to be decoded. -/
def TooDeep (entry : FolderEntry) : Prop :=
  ∃ text, entry.text? = some text ∧ Json.parse .ofFiles text = .error .tooDeep

/-- A file offers the table of its object. -/
def Offers (entry : FolderEntry) (table : Table) : Prop :=
  ∃ entries, entry.Decodes entries ∧ Shows entries table

end FolderEntry

variable {folder : Folder} {entry : FolderEntry} {entries : Entries Value} {table : Table}

/-- A table shows an object when it has the lines of its entries. -/
theorem mapM_line_eq_ok :
    (entries.mapM fun field => do return (field.1, ← field.2.shown)) = .ok table ↔
      Shows entries table := by
  -- Each line is the key of an entry with its value written behind.
  have line (field : Text × Value) (line : Text × Text) :
      (do return (field.1, ← field.2.shown)) = Except.ok line ↔
        line.1 = field.1 ∧ field.2.shown = .ok line.2 := by
    rw [bind_eq_ok]
    constructor
    · rintro ⟨text, known, made⟩
      obtain rfl := Except.ok.inj made
      exact ⟨rfl, known⟩
    · rintro ⟨named, known⟩
      exact ⟨line.2, known, by rw [← named]; rfl⟩
  simp only [mapM_eq_ok, line, Shows]

/-- Every object of a file has a table. -/
theorem FolderEntry.Decodes.exists_shows (decodes : entry.Decodes entries) :
    ∃ table, Shows entries table := by
  obtain ⟨text, -, parsed⟩ := decodes
  have each := Value.showable_table.mp (Json.showable_of_parse parsed)
  simp only [← mapM_line_eq_ok]
  -- Whatever was read from a file can be shown, so no line fails.
  refine exists_mapM_eq_ok _ fun field member => ?_
  obtain ⟨shown, known⟩ := (each field member).shown
  exact ⟨(field.1, shown), by rw [known]; rfl⟩

/-- A file offers a table when its content decodes to an object. -/
theorem exists_offers : (∃ table, entry.Offers table) ↔ ∃ entries, entry.Decodes entries := by
  constructor
  · rintro ⟨table, entries, decodes, -⟩
    exact ⟨entries, decodes⟩
  · rintro ⟨entries, decodes⟩
    -- Entries that were decoded always have a table.
    obtain ⟨table, shows⟩ := decodes.exists_shows
    exact ⟨table, entries, decodes, shows⟩

/-- The text of a file is what its reader goes by. -/
theorem text?_eq (entry : FolderEntry) :
    (do return Text.ofString (← entry.content.bind String.fromUTF8?)) = entry.text? := rfl

/-- The table that a file offers is read from it. -/
theorem readTable_of_offers (folder : Folder) (offers : entry.Offers table) :
    readTable folder entry = .ok (.ok table) := by
  obtain ⟨entries, ⟨text, known, parsed⟩, shows⟩ := offers
  simp only [readTable, text?_eq, known, Option.map_some, parsed, mapM_line_eq_ok.mpr shows]

/-- A file without an object has a fault that can be told. -/
theorem readTable_of_faulty (folder : Folder) (faulty : ¬∃ table, entry.Offers table)
    (shallow : ¬entry.TooDeep) : ∃ fault, readTable folder entry = .ok (.error fault) := by
  rw [exists_offers] at faulty
  rw [readTable, text?_eq]
  -- Two of the four outcomes are excluded: an object, and what is too deep to be decoded.
  split
  · rename_i entries parsed
    obtain ⟨text, known, parsed⟩ := Option.map_eq_some_iff.mp parsed
    exact absurd ⟨entries, text, known, parsed⟩ faulty
  · exact ⟨_, rfl⟩
  · rename_i parsed
    obtain ⟨text, known, parsed⟩ := Option.map_eq_some_iff.mp parsed
    exact absurd ⟨text, known, parsed⟩ shallow
  · exact ⟨_, rfl⟩

/-- What a file adds to the tables of a catalog. -/
def given? (folder : Folder) (entry : FolderEntry) : Option (Text × Table) :=
  match readTable folder entry with
  | .ok (.ok table) => some (localeOf entry.name, table)
  | _ => none

/-- A file adds the table it offers, for its locale. -/
theorem given?_of_offers (folder : Folder) (offers : entry.Offers table) :
    given? folder entry = some (localeOf entry.name, table) := by
  rw [given?, readTable_of_offers folder offers]

/-- A file that offers nothing adds nothing. -/
theorem given?_of_faulty (folder : Folder) (faulty : ¬∃ table, entry.Offers table)
    (shallow : ¬entry.TooDeep) : given? folder entry = none := by
  obtain ⟨fault, read⟩ := readTable_of_faulty folder faulty shallow
  rw [given?, read]

/-- A warning is that about a file which is left out. -/
def Reports (folder : Folder) (entry : FolderEntry) (warning : Text) : Prop :=
  ∃ fault, readTable folder entry = .ok (.error fault) ∧
    warning = "Skipping locale file '" ++ folder.name ++ "/" ++ entry.name ++ "'" ++ fault

/-- A file that offers a table puts it into the catalog. -/
theorem addFile_of_offers (folder : Folder) (offers : entry.Offers table) (catalog : Catalog) :
    addFile folder entry catalog =
      (⟨[], .ok ()⟩, ⟨catalog.tables.store (localeOf entry.name) table, catalog.default⟩) := by
  rw [addFile, readTable_of_offers folder offers]
  rfl

/-- A file that offers none is warned about, and the catalog stays as it is. -/
theorem addFile_of_faulty (folder : Folder) (faulty : ¬∃ table, entry.Offers table)
    (shallow : ¬entry.TooDeep) (catalog : Catalog) :
    ∃ warning, Reports folder entry warning ∧
      addFile folder entry catalog = (⟨[.warning warning], .ok ()⟩, catalog) := by
  obtain ⟨fault, read⟩ := readTable_of_faulty folder faulty shallow
  refine ⟨_, ⟨fault, read, rfl⟩, ?_⟩
  -- The fault becomes a warning, and the catalog is left as it was.
  rw [addFile, read]
  rfl

/-- Files are added one after another: the tables they offer are stored, and the other files are warned
about in their order. -/
theorem forM_addFile (folder : Folder) {files : List FolderEntry}
    (shallow : ∀ entry ∈ files, ¬entry.TooDeep) (catalog : Catalog) :
    ∃ warnings,
      List.Forall₂ (Reports folder) (files.filter fun entry => (given? folder entry).isNone)
        warnings ∧
      files.forM (addFile folder) catalog =
        (⟨warnings.map .warning, .ok ()⟩,
          ⟨Entries.storeAll (files.filterMap (given? folder)) catalog.tables, catalog.default⟩) := by
  -- The files behind the first one go on with the catalog that it leaves, so it may be any.
  induction files generalizing catalog with
  | nil => exact ⟨[], .nil, rfl⟩
  | cons entry rest ih =>
    obtain ⟨firstShallow, restShallow⟩ := List.forall_mem_cons.mp shallow
    have step : (entry :: rest).forM (addFile folder) =
        addFile folder entry >>= fun _ => rest.forM (addFile folder) := rfl
    by_cases offers : ∃ table, entry.Offers table
    · obtain ⟨table, offers⟩ := offers
      obtain ⟨warnings, reported, others⟩ :=
        ih restShallow ⟨catalog.tables.store (localeOf entry.name) table, catalog.default⟩
      have given := given?_of_offers folder offers
      refine ⟨warnings, ?_, ?_⟩
      · rwa [List.filter_cons_of_neg (by simp [given])]
      · rw [step, Session.bind_of_eq _ (addFile_of_offers folder offers catalog), others,
          List.filterMap_cons_some given]
        rfl
    · obtain ⟨warnings, reported, others⟩ := ih restShallow catalog
      obtain ⟨warning, reports, added⟩ := addFile_of_faulty folder offers firstShallow catalog
      have given := given?_of_faulty folder offers firstShallow
      refine ⟨warning :: warnings, ?_, ?_⟩
      · rw [List.filter_cons_of_pos (by simp [given])]
        exact .cons reports reported
      · rw [step, Session.bind_of_eq _ added, others, List.filterMap_cons_none given]
        rfl

/-- What is stored of files for their locales. -/
def tablesOf (folder : Folder) (files : List FolderEntry) : Entries Table :=
  Entries.storeAll (files.filterMap (given? folder)) []

/-- Telling what was loaded leaves it as it is. -/
theorem logLoaded_ends (name : Text) (catalog : Catalog) :
    ∃ record, (do liftM (logLoaded (← pure name) (← Session.get).tables) : Session Catalog Unit)
      catalog = (⟨[.log record], .ok ()⟩, catalog) := ⟨_, rfl⟩

/-- Loading a folder puts the tables of its files into an empty catalog. -/
theorem load_folder (shallow : ∀ entry ∈ localeFiles folder, ¬entry.TooDeep) (default : Text) :
    ∃ notices,
      load (some folder) default =
        (⟨notices, .ok ()⟩, ⟨tablesOf folder (localeFiles folder), default⟩) ∧
      List.Forall₂ (Reports folder)
        ((localeFiles folder).filter fun entry => (given? folder entry).isNone)
        (Notice.warnings notices) := by
  obtain ⟨warnings, reported, added⟩ := forM_addFile folder shallow ⟨[], default⟩
  obtain ⟨record, told⟩ :=
    logLoaded_ends folder.name ⟨tablesOf folder (localeFiles folder), default⟩
  refine ⟨warnings.map .warning ++ [.log record], ?_, ?_⟩
  · -- Every load starts from an empty catalog, so nothing of an earlier one is left.
    unfold load fill
    dsimp only
    rw [Session.bind_of_eq _ added]
    unfold tablesOf at told ⊢
    rw [told]
  · -- The record of what was loaded is no warning.
    have warned : Notice.warnings (warnings.map .warning) = warnings := by
      rw [Notice.warnings, List.filterMap_map]
      exact List.filterMap_some
    rw [Notice.warnings_append, warned]
    exact (List.append_nil warnings).symm ▸ reported

/-- Obtaining the shared catalog without a folder never fails, and warns about nothing. -/
theorem obtain_none (before : Option Catalog) :
    ∃ notices catalog, Shared.obtain none before = (⟨notices, .ok catalog⟩, some catalog) ∧
      Notice.warnings notices = [] := by
  cases before with
  | some catalog => exact ⟨[], catalog, rfl, rfl⟩
  | none => exact ⟨_, _, rfl, rfl⟩

/-- Loading the shared catalog anew gives what the folder gives, whatever was loaded before. -/
theorem reload_folder (shallow : ∀ entry ∈ localeFiles folder, ¬entry.TooDeep) (default : Text)
    (before : Option Catalog) :
    ∃ notices,
      Shared.reload (some folder) default before =
        (⟨notices, .ok ()⟩, some ⟨tablesOf folder (localeFiles folder), default⟩) ∧
      List.Forall₂ (Reports folder)
        ((localeFiles folder).filter fun entry => (given? folder entry).isNone)
        (Notice.warnings notices) := by
  obtain ⟨first, catalog, obtained, silent⟩ := obtain_none before
  obtain ⟨notices, loaded, reported⟩ := load_folder shallow default
  refine ⟨first ++ notices, ?_, ?_⟩
  · -- The catalog that was obtained is filled anew, so it may be any.
    unfold Shared.reload
    rw [Session.bind_of_eq _ obtained]
    dsimp only
    rw [loaded]
    rfl
  · rwa [Notice.warnings_append, silent, List.nil_append]

end DiceLab.Catalog
