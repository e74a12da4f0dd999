import DiceLab.Catalog.Packaged
import DiceLab.Report
import DiceLab.Text.Replace

/-! Label texts by locale: a key is shown in a locale, with named values put into its text. -/

namespace DiceLab

/-- The tables of all locales, and the locale used in place of unknown ones. -/
structure Catalog where
  tables : Entries Catalog.Table
  default : Text

namespace Catalog

/-- The locale used unless another one is asked for. -/
def usualLocale : Text := "en"

/-- The catalog that comes with the engine. -/
def packaged : Catalog := ⟨[("en", english), ("es", spanish)], usualLocale⟩

/-- The names of the locales in ascending order. -/
def locales (catalog : Catalog) : List Text := (catalog.tables.map Prod.fst).mergeSort Text.inOrder

/-- The place in a text that a named value takes. -/
def placeholder (name : Text) : Text := "\x7b\x7b" ++ name ++ "\x7d\x7d"

/-- Puts a value into every place of its name. -/
def substitute (text : Text) (option : Text × Text) : Text :=
  Text.replace (placeholder option.1) option.2 text

/-- The texts of named values, one for each name. -/
def optionTexts (options : Entries Value) : Except Failure (Entries Text) :=
  (Entries.storeAll options []).mapM fun option => do return (option.1, ← option.2.shown)

/-- The locale to use for a wanted one: a missing or empty name stands for the default. -/
def chooseLocale (catalog : Catalog) (wanted : Option Text) : Reported Text := do
  let locale := (wanted.filter fun name => !name.isEmpty).getD catalog.default
  if (catalog.tables.find? locale).isSome then return locale
  Reported.warn ("Unknown locale '" ++ locale ++ "', using '" ++ catalog.default ++ "'")
  return catalog.default

/-- The text of a key in a locale, if it has one. -/
def lookup? (catalog : Catalog) (locale key : Text) : Option Text :=
  (catalog.tables.find? locale).bind (Entries.find? key)

/-- Shows a key in a locale: the named values are put in one after another, and a key without a text
stands for itself. -/
def render (catalog : Catalog) (key : Text) (wanted : Option Text)
    (options : Entries Value) : Reported Text := do
  let locale ← catalog.chooseLocale wanted
  match catalog.lookup? locale key with
  -- A key without a text stands for itself, and its options are not even written.
  | none => return key
  | some text =>
    let texts ← optionTexts options
    return texts.foldl substitute text

/-- The names that no value can have, each with the action that has it for something else; the first
group is asked before the second one. -/
def takenNames : List (List (String × String)) :=
  [[("translate", "key"), ("translate", "locale")], [("LabelCatalog.translate", "self")]]

/-- The action and the name of the first value whose name is taken in a group. -/
def taken? (options : Entries Value) (group : List (String × String)) : Option (String × String) :=
  options.findSome? fun option => group.find? fun entry => Text.ofString entry.2 == option.1

/-- Shows a key with values under names that are free. -/
def translate (catalog : Catalog) (key : Text) (wanted : Option Text) (options : Entries Value) :
    Reported Text :=
  match takenNames.findSome? (taken? options) with
  | some (action, name) => Reported.fail (.nameTaken action name)
  | none => catalog.render key wanted options

end Catalog

/-- A catalog and the locale that is wanted from it. -/
structure Wording where
  catalog : Catalog
  locale : Option Text

namespace Wording

/-- The text of a key with named values put in. -/
def text (wording : Wording) (key : Text) (options : Entries Value) : Reported Text :=
  wording.catalog.render key wording.locale options

/-- The text of a key that needs no values. -/
def label (wording : Wording) (key : Text) : Reported Text := wording.text key []

end Wording

end DiceLab
