import DiceLab.Proofs.Entries
import DiceLab.Proofs.Settings.Loading

/-! Overrides against a settings file, field by field: they win, unless what the file says about
other fields does not pass. -/

namespace DiceLab

namespace LogLevel

/-- The word for a level stands for it. -/
theorem ofWord?_word (level : LogLevel) : ofWord? level.word = some level := by
  cases level <;> decide

end LogLevel

namespace Settings

open Checked

/-- A field of settings. -/
inductive Field where
  | simulationCount
  | maxCandidates
  | availableFaces
  | locale
  | logLevel
deriving DecidableEq, Repr

namespace Field

/-- The key under which a field is given. -/
def key : Field → String
  | .simulationCount => "simulation_count"
  | .maxCandidates => "max_candidates"
  | .availableFaces => "available_faces"
  | .locale => "locale"
  | .logLevel => "log_level"

/-- A field of settings as a plain value. -/
def of (settings : Settings) : Field → Value
  | .simulationCount => .whole settings.simulationCount
  | .maxCandidates => .whole settings.maxCandidates
  | .availableFaces => .list (settings.availableFaces.map .text)
  | .locale => .text settings.locale
  | .logLevel => .text settings.logLevel.word

/-- The check of what is given for a field. -/
def check : Field → Value → Checked Value
  | .simulationCount, value => .whole <$> simulationCountField value
  | .maxCandidates, value => .whole <$> maxCandidatesField value
  | .availableFaces, value =>
    (fun tags => .list (tags.map .text)) <$> Schema.list Schema.text value
  | .locale, value => .text <$> Schema.text value
  | .logLevel, value => (fun level => .text level.word) <$> logLevelField value

/-- What a field comes to among plain fields: its usual value, or what the check makes of what is
given for it. -/
def among (field : Field) (fields : Entries Value) : Checked Value :=
  Schema.optional field.key (field.of {}) field.check fields

/-- A field only depends on what is given under its key. -/
theorem among_congr {field : Field} {fields others : Entries Value}
    (same : fields.find? field.key = others.find? field.key) :
    field.among fields = field.among others := by
  simp only [among, Schema.optional, same]

/-- A field for which nothing is given has its usual value. -/
theorem among_of_none {field : Field} {fields : Entries Value}
    (missing : fields.find? field.key = none) : field.among fields = .ok (field.of {}) := by
  simp only [among, Schema.optional, missing]

/-- A field of settings that may be missing comes to a plain value when it comes to what the value
stands for. -/
theorem optional_map {α : Type} {plain : α → Value} (injective : Function.Injective plain)
    {name : String} {usual value : α} {check : Value → Checked α} {fields : Entries Value} :
    Schema.optional name (plain usual) (fun given => plain <$> check given) fields =
        .ok (plain value) ↔
      Schema.optional name usual check fields = .ok value := by
  unfold Schema.optional
  split
  · rw [inside_eq_ok, inside_eq_ok, map_eq_ok]
    constructor
    · rintro ⟨other, passed, same⟩
      rwa [injective same] at passed
    · intro passed
      exact ⟨value, passed, rfl⟩
  · -- Without a value given, the two usual ones are compared.
    simp [injective.eq_iff]

end Field

/-- Settings pass when each of their fields does. -/
theorem ofFields_eq_ok {fields : Entries Value} {settings : Settings} :
    ofFields fields = .ok settings ↔
      ∀ field : Field, field.among fields = .ok (field.of settings) := by
  have wholes : Function.Injective Value.whole := fun _ _ => Value.whole.inj
  have texts : Function.Injective Value.text := fun _ _ => Value.text.inj
  have lists : Function.Injective fun tags : List Text => Value.list (tags.map .text) :=
    fun _ _ same => texts.list_map (Value.list.inj same)
  have levels : Function.Injective fun level : LogLevel => Value.text level.word :=
    fun first second same => by
      rw [← Option.some.injEq, ← first.ofWord?_word, ← second.ofWord?_word, Value.text.inj same]
  simp only [ofFields, seq_eq_ok, map_eq_ok]
  constructor
  · -- Field by field, the plain value passes when what it stands for does.
    rintro ⟨_, level, ⟨_, locale, ⟨_, faces, ⟨_, limit, ⟨count, counted, rfl⟩, limited, rfl⟩, faced,
      rfl⟩, located, rfl⟩, leveled, rfl⟩ field
    cases field with
    | simulationCount => exact (Field.optional_map wholes).mpr counted
    | maxCandidates => exact (Field.optional_map wholes).mpr limited
    | availableFaces => exact (Field.optional_map lists).mpr faced
    | locale => exact (Field.optional_map texts).mpr located
    | logLevel => exact (Field.optional_map levels).mpr leveled
  · intro each
    have counted := (Field.optional_map wholes).mp (each .simulationCount)
    have limited := (Field.optional_map wholes).mp (each .maxCandidates)
    have faced := (Field.optional_map lists).mp (each .availableFaces)
    have located := (Field.optional_map texts).mp (each .locale)
    have leveled := (Field.optional_map levels).mp (each .logLevel)
    exact ⟨_, _, ⟨_, _, ⟨_, _, ⟨_, _, ⟨_, counted, rfl⟩, limited, rfl⟩, faced, rfl⟩, located, rfl⟩,
      leveled, rfl⟩

/-- Settings with some fields of one and the other fields of another. -/
def mixed (takes : Field → Bool) (own others : Settings) : Settings where
  simulationCount := (if takes .simulationCount then own else others).simulationCount
  maxCandidates := (if takes .maxCandidates then own else others).maxCandidates
  availableFaces := (if takes .availableFaces then own else others).availableFaces
  locale := (if takes .locale then own else others).locale
  logLevel := (if takes .logLevel then own else others).logLevel

/-- Each field of mixed settings is the one that was taken. -/
theorem of_mixed (takes : Field → Bool) (own others : Settings) (field : Field) :
    field.of (mixed takes own others) = field.of (if takes field then own else others) := by
  cases field <;> rfl

/-- Whether an override that is not null is given for a field. -/
def isOverridden (overrides : Entries Value) (field : Field) : Bool :=
  ((under overrides []).find? field.key).isSome

/-- The fields that no override takes the place of. -/
def besides (overrides fields : Entries Value) : Entries Value :=
  fields.filter fun entry => ((under overrides []).find? entry.1).isNone

/-- What is given for a field besides the overrides is what the file gives for it, unless the field
is overridden. -/
theorem find?_besides (overrides fields : Entries Value) (field : Field) :
    (besides overrides fields).find? field.key =
      if isOverridden overrides field then none else fields.find? field.key := by
  have kept : (besides overrides fields).find? field.key =
      if ((under overrides []).find? field.key).isNone then fields.find? field.key else none :=
    Entries.find?_filter (fun key => ((under overrides []).find? key).isNone) fields field.key
  rw [kept, isOverridden]
  -- Whether something is found or nothing is, one is the negation of the other.
  cases (under overrides []).find? field.key with
  | some value => rfl
  | none => rfl

/-- A field under overrides comes to what it comes to among the overrides alone if it is overridden,
and otherwise to what it comes to among the fields besides them. -/
theorem among_under (overrides fields : Entries Value) (field : Field) :
    field.among (under overrides fields) =
      field.among (if isOverridden overrides field then under overrides []
        else besides overrides fields) := by
  -- The overrides are stored behind the fields, so what they give is found first.
  apply Field.among_congr
  have found : (under overrides fields).find? field.key =
      ((under overrides []).find? field.key).or (fields.find? field.key) :=
    Entries.find?_storeAll _ _ _
  rw [found, apply_ite (Entries.find? (field.key : Text)), find?_besides, isOverridden]
  cases given : (under overrides []).find? field.key with
  | some value => rfl
  | none => rfl

/-- Fields pass under overrides that pass alone exactly when those besides them pass alone. -/
theorem ofFields_under {overrides fields : Entries Value} {own settings : Settings}
    (alone : ofFields (under overrides []) = .ok own) :
    ofFields (under overrides fields) = .ok settings ↔
      ∃ others, ofFields (besides overrides fields) = .ok others ∧
        settings = mixed (isOverridden overrides) own others := by
  have mixes {others : Settings} (passed : ofFields (besides overrides fields) = .ok others) :
      ofFields (under overrides fields) = .ok (mixed (isOverridden overrides) own others) := by
    refine ofFields_eq_ok.mpr fun field => ?_
    rw [among_under, of_mixed]
    cases isOverridden overrides field with
    | true => exact ofFields_eq_ok.mp alone field
    | false => exact ofFields_eq_ok.mp passed field
  constructor
  · intro ok
    -- Besides the overrides, their fields have the usual values and the others stay.
    have passed : ofFields (besides overrides fields) =
        .ok (mixed (isOverridden overrides) {} settings) := by
      refine ofFields_eq_ok.mpr fun field => ?_
      have each := ofFields_eq_ok.mp ok field
      rw [among_under] at each
      rw [of_mixed]
      cases given : isOverridden overrides field with
      | true => exact Field.among_of_none (by rw [find?_besides, given]; rfl)
      | false => simpa [given] using each
    refine ⟨_, passed, ?_⟩
    have made := mixes passed
    rwa [ok, Checked.ok.injEq] at made
  · rintro ⟨others, passed, rfl⟩
    exact mixes passed

/-- What becomes of overrides that pass alone in settings that are loaded. -/
structure Overriding (file : Option File) (overrides : Entries Value) (own settings : Settings) :
    Prop where
  /-- Each overridden field is as the overrides alone make it, and each other field as the file
  makes it, when what the file says besides the overrides passes; when it does not, all fields are
  the usual ones, with a warning. -/
  decided : ∃ fields, Offered file fields ∧
    ((∃ others, ofFields (besides overrides fields) = .ok others ∧
      ∀ field : Field, field.of settings =
        if isOverridden overrides field then field.of own else field.of others) ∨
    (∃ faults, ofFields (besides overrides fields) = .faulty faults) ∧
      settings = {} ∧ Notice.warnings (load file overrides).notices ≠ [])
  /-- Without a file of use, the settings are as the overrides alone make them. -/
  alone : (∀ given, file = some given → given.Useless) → settings = own

/-- Overrides that pass alone win over a file in each field that they give, unless what the file
says about other fields does not pass. -/
theorem load_overrides {file : Option File} {overrides : Entries Value} {own settings : Settings}
    (alone : ofFields (under overrides []) = .ok own)
    (loaded : (load file overrides).result = .ok settings) :
    Overriding file overrides own settings where
  decided := by
    obtain ⟨fields, offered, ⟨passed, -⟩ | ⟨⟨usual, faults, faulty⟩, warned⟩⟩ :=
      exists_offered_of_load loaded
    · obtain ⟨others, passes, rfl⟩ := (ofFields_under alone).mp passed
      refine ⟨fields, offered, .inl ⟨others, passes, fun field => ?_⟩⟩
      rw [of_mixed, apply_ite fun settings => field.of settings]
    · -- What is faulty under the overrides is faulty besides them.
      refine ⟨fields, offered, .inr ⟨?_, usual, warned⟩⟩
      cases checked : ofFields (besides overrides fields) with
      | ok others =>
        have passed := (ofFields_under alone).mpr ⟨others, checked, rfl⟩
        rw [faulty] at passed
        cases passed
      | faulty faults => exact ⟨faults, rfl⟩
  alone := by
    intro useless
    obtain ⟨fields, offered, made⟩ := passed_or_usual_of_load loaded
    -- Nothing but the overrides is checked, and they pass alone.
    obtain rfl := offered.eq_nil useless
    rcases made with passed | ⟨-, faults, faulty⟩
    · rwa [alone, Checked.ok.injEq, eq_comm] at passed
    · rw [alone] at faulty
      cases faulty

/-- A language that is asked for takes the place of the file's, whose other field stays. -/
theorem load_overrides_locale :
    let text := "\x7b\x22simulation_count\x22: 500, \x22locale\x22: \x22fr\x22\x7d"
    let file : File := ⟨"settings.json", .ok text.toUTF8⟩
    let overrides : Entries Value := [("locale", .text "es"), ("max_candidates", .null)]
    let settings : Settings := { simulationCount := 500, locale := "es" }
    ofFields (under overrides []) = .ok { locale := "es" } ∧
      (load (some file) overrides).result = .ok settings ∧
      Overriding (some file) overrides { locale := "es" } settings := by
  intro text file overrides settings
  have alone : ofFields (under overrides []) = .ok { locale := "es" } := rfl
  have loaded : (load (some file) overrides).result = .ok settings := by decide +kernel
  exact ⟨alone, loaded, load_overrides alone loaded⟩

/-- A language that is asked for is lost with a file that gives no valid number of rolls. -/
theorem load_without_override :
    let file : File :=
      ⟨"settings.json", .ok "\x7b\x22simulation_count\x22: 0\x7d".toUTF8⟩
    let overrides : Entries Value := [("locale", .text "es")]
    ofFields (under overrides []) = .ok { locale := "es" } ∧
      (load (some file) overrides).result = .ok {} ∧
      Field.locale.of {} ≠ Field.locale.of { locale := "es" } :=
  ⟨rfl, by decide +kernel, by simp [Field.of, Text.ofString]⟩

end Settings

end DiceLab
