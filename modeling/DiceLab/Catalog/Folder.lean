import DiceLab.Catalog
import DiceLab.Decimal.Digits
import DiceLab.Value.Json

/-! Catalogs read from a folder of files, one for each locale; a faulty file is left out. -/

namespace DiceLab.Catalog

/-- An entry of a folder; a folder inside it has no content. -/
structure FolderEntry where
  name : Text
  content : Option ByteArray

/-- A folder as it is named in messages, and its entries. -/
structure Folder where
  name : Text
  entries : List FolderEntry

/-- The ending of the names of locale files. -/
def fileEnding : Text := ".json"

/-- Whether a name is that of a locale file. -/
def isLocaleFile (name : Text) : Bool := fileEnding.isSuffixOf name

/-- The locale of a file: its name without the ending, unless nothing would be left. -/
def localeOf (name : Text) : Text :=
  let stem := name.take (name.length - fileEnding.length)
  if stem.isEmpty then name else stem

/-- The entries that are locale files by their names, in ascending order; a name that comes again
replaces the one before. -/
def localeFiles (folder : Folder) : List FolderEntry :=
  let named := Entries.storeAll (folder.entries.map fun entry => (entry.name, entry)) []
  ((named.map Prod.snd).filter fun entry => isLocaleFile entry.name).mergeSort
    fun first second => first.name.inOrder second.name

/-- The table a file holds, or what is told about its fault; values too deep inside one another are
no mere fault. -/
def readTable (folder : Folder) (entry : FolderEntry) : Except Failure (Except Text Table) :=
  match (entry.content.bind String.fromUTF8?).map (Json.parse .ofFiles ·) with
  | some (.ok (.table entries)) =>
    -- Every value becomes a text, whatever it was in the file.
    match entries.mapM fun field => do return (field.1, ← field.2.shown) with
    | .ok table => .ok (.ok table)
    | .error _ => .ok (.error "")
  | some (.ok other) =>
    .ok (.error
      (": Expected object in " ++ folder.name ++ "/" ++ entry.name ++ ", got " ++ other.kindName))
  -- Only a file that is nested too deep stops the load; all other faults skip the file.
  | some (.error .tooDeep) => .error .tooDeep
  | _ => .ok (.error "")

/-- Adds the table of a file to the catalog, or warns that it is left out. -/
def addFile (folder : Folder) (entry : FolderEntry) : Session Catalog Unit := do
  match ← (readTable folder entry : Except Failure (Except Text Table)) with
  | .ok table =>
    let catalog ← Session.get
    Session.set { catalog with tables := catalog.tables.store (localeOf entry.name) table }
  | .error fault =>
    (Reported.warn ("Skipping locale file '" ++ folder.name ++ "/" ++ entry.name ++ "'" ++ fault) :
      Reported Unit)

/-- Logs how many locales a folder gave. -/
def logLoaded (name : Text) (tables : Entries Table) : Reported Unit :=
  Reported.log .debug ("Loaded " ++ toString tables.length ++ " locales from " ++ name)
    [("locales", .text (Text.join "," (tables.map Prod.fst)))]

/-- The name of the folder of the catalog that comes with the engine. -/
def packagedFolder : Text := "<locales>"

/-- Fills an empty catalog from a folder, or with the tables that come with the engine. What was
added before a failure stays. -/
def fill (folder : Option Folder) : Session Catalog Unit := do
  let name ← match folder with
    -- The tables that come with the program are not read from a folder.
    | none => do
      Session.set { (← Session.get) with tables := packaged.tables }
      pure packagedFolder
    | some folder => do
      (localeFiles folder).forM (addFile folder)
      pure folder.name
  (logLoaded name (← Session.get).tables : Reported Unit)

/-- Loads a catalog with a default locale; what it holds after a failure is told too. -/
def load (folder : Option Folder) (default : Text) : Reported Unit × Catalog :=
  fill folder ⟨[], default⟩

end DiceLab.Catalog
