import DiceLab.Proofs.Settings

/-! Settings files that are useful, those that give way to the usual settings with a warning, and
those on which loading breaks. -/

namespace DiceLab

namespace Checked

variable {α β : Type}

/-- Every fault of a check can be told in a message. -/
def Tellable : Checked α → Prop
  | .ok _ => True
  | .faulty faults => ∀ fault ∈ faults, fault.kind ≠ .unwritable

/-- A fault that can be told in a message. -/
theorem tellable_fault {kind : FaultKind} :
    (fault kind : Checked α).Tellable ↔ kind ≠ .unwritable := by
  simp [Tellable, fault]

/-- A part is as tellable as it would be on its own. -/
theorem tellable_inside {step : String} {part : Checked α} :
    (part.inside step).Tellable ↔ part.Tellable := by
  -- The step goes in front of the path of a fault, and its kind stays.
  cases part with
  | ok value => rfl
  | faulty faults => simp [inside, Tellable]

/-- Faults of both parts are told. -/
theorem tellable_seq {first : Checked (α → β)} {second : Checked α} :
    (first <*> second).Tellable ↔ first.Tellable ∧ second.Tellable := by
  show (apply first second).Tellable ↔ _
  cases first with
  | ok function =>
    cases second with
    | ok value => simp [apply, Tellable]
    | faulty faults => simp [apply, Tellable]
  | faulty faults =>
    cases second with
    | ok value => simp [apply, Tellable]
    | faulty others =>
      -- The faults of the second part follow those of the first.
      simp only [apply, Tellable, List.mem_append]
      constructor
      · intro each
        exact ⟨fun fault member => each fault (.inl member),
          fun fault member => each fault (.inr member)⟩
      · rintro ⟨before, after⟩ fault (member | member)
        · exact before fault member
        · exact after fault member

/-- A function that is applied brings no faults of its own. -/
theorem tellable_map {function : α → β} {second : Checked α} :
    (function <$> second).Tellable ↔ second.Tellable := by
  -- Applying a function is combining it with one part only.
  show (apply (.ok function) second).Tellable ↔ _
  cases second with
  | ok value => simp [apply, Tellable]
  | faulty faults => simp [apply, Tellable]

/-- Faults of a value that passed first are those that are found in it next. -/
theorem tellable_andThen {first : Checked α} {next : α → Checked β} (starts : first.Tellable)
    (behind : ∀ value, (next value).Tellable) : (first.andThen next).Tellable := by
  -- The second check never runs behind a fault.
  cases first with
  | ok value => exact behind value
  | faulty faults => exact starts

/-- Faults that can be told make a failure that tells them all. -/
theorem result_of_tellable {faults : List Fault}
    (tellable : (.faulty faults : Checked α).Tellable) :
    (.faulty faults : Checked α).result = .error (.invalid faults) := by
  have none : (faults.any fun fault => fault.kind = .unwritable) = false := by
    simpa [List.any_eq_false, Tellable] using tellable
  simp [result, none]

/-- One fault that cannot be told hides all others. -/
theorem result_of_not_tellable {subject : Checked α} (hidden : ¬subject.Tellable) :
    subject.result = .error .unencodable := by
  cases subject with
  | ok value => simp [Tellable] at hidden
  | faulty faults =>
    -- One fault with a value that cannot be written spoils the whole message.
    have some : (faults.any fun fault => fault.kind = .unwritable) = true := by
      simpa [List.any_eq_true, Tellable] using hidden
    simp [result, some]

end Checked

namespace Schema

open Checked

variable {α : Type}

/-- A field that may be missing is as tellable as the check of what is given for it. -/
theorem tellable_optional {name : String} {default : α} {check : Value → Checked α}
    {fields : Entries Value} :
    (optional name default check fields).Tellable ↔
      ∀ value, fields.find? name = some value → (check value).Tellable := by
  -- Nothing is checked where nothing is given.
  unfold optional
  split
  · rename_i value found
    simp [found, tellable_inside]
  · rename_i missing
    simp [missing, Tellable]

/-- What is wrong with a text that is to be a plain number can be told. -/
theorem readPlainWhole_ne_unwritable {text : Text} {kind : FaultKind}
    (error : readPlainWhole text = .error kind) : kind ≠ .unwritable := by
  rintro rfl
  -- Each of the four refusals names another kind.
  unfold readPlainWhole at error
  dsimp only at error
  split_ifs at error <;> simp at error

/-- What is wrong with a text that is to be a number can be told. -/
theorem readWhole_ne_unwritable {text : Text} {kind : FaultKind}
    (error : readWhole text = .error kind) : kind ≠ .unwritable := by
  unfold readWhole at error
  split at error
  · -- The plain form was of no use either, and the text is called what it was called before.
    split at error
    · cases error
    · cases error
      decide
  · exact readPlainWhole_ne_unwritable error

/-- What is wrong with a binary64 value that is to be whole can be told. -/
theorem tellable_wholeOfReal (value : Binary64) : (wholeOfReal value).Tellable := by
  unfold wholeOfReal
  cases value.truncate with
  | error failure => exact tellable_fault.mpr (by decide)
  | ok number =>
    dsimp only
    -- The range is a large number, which must not be computed.
    generalize (Number.whole number.natAbs).lt wholeRange = short
    cases value.isWhole with
    | false => simp [tellable_fault]
    | true =>
      cases short with
      | false => simp [tellable_fault]
      | true => simp [Tellable]

/-- What is wrong with a whole number can be told. -/
theorem tellable_whole (value : Value) : (whole value).Tellable := by
  -- One case for each kind of value; texts are read, and reading them fails tellably.
  unfold whole
  split
  · trivial
  · trivial
  · exact tellable_wholeOfReal _
  · split
    · exact tellable_fault.mpr (by decide)
    · split
      · trivial
      · rename_i error
        exact tellable_fault.mpr (readWhole_ne_unwritable error)
  · exact tellable_fault.mpr (by decide)

/-- A number beyond its bounds can be told. -/
theorem tellable_between (low : Number) (high : Option Number) (number : Int) :
    (passing (fun number => between low high (.whole number)) number).Tellable := by
  unfold passing between
  split
  · trivial
  · -- Whichever bound is passed, the kind is one of two.
    rename_i found
    dsimp only at found
    split_ifs at found <;> cases found <;> exact tellable_fault.mpr (by decide)

/-- What is no text can be told. -/
theorem tellable_text (value : Value) : (text value).Tellable := by
  unfold text
  split
  · trivial
  · exact tellable_fault.mpr (by decide)

/-- The faults of a list are those of its items. -/
theorem tellable_list {check : Value → Checked α} (each : ∀ value, (check value).Tellable)
    (value : Value) : (list check value).Tellable := by
  unfold list
  split
  · rename_i items
    -- The items come with their positions, which only lead to the faults.
    induction items.zipIdx with
    | nil => trivial
    | cons first rest ih =>
      exact tellable_seq.mpr ⟨tellable_map.mpr (tellable_inside.mpr (each first.1)), ih⟩
  · exact tellable_fault.mpr (by decide)

end Schema

namespace LogLevel

/-- A word with a surrogate in it is no level's. -/
theorem ofWord?_of_isBroken {word : Text} (broken : word.isBroken = true) :
    ofWord? word = none := by
  obtain ⟨point, member, surrogate⟩ := List.any_eq_true.mp broken
  refine List.find?_eq_none.mpr fun level _ same => ?_
  -- The surrogate would stand in the level's word, which is made of characters.
  rw [beq_iff_eq] at same
  have inside : point.map capital ∈ Text.ofString level.word :=
    same ▸ List.mem_map.mpr ⟨point, member, rfl⟩
  obtain ⟨char, -, made⟩ := List.mem_map.mp inside
  cases point with
  | char value => simp [CodePoint.isSurrogate] at surrogate
  | surrogate offset => simp [CodePoint.map] at made

end LogLevel

namespace Settings

open Checked Schema

/-- What is wrong with a level of log records can be told, unless its word is broken. -/
theorem tellable_logLevelField {value : Value} :
    (logLevelField value).Tellable ↔ ∀ word, value = .text word → word.isBroken = false := by
  unfold logLevelField text
  split
  · rename_i word
    simp only [andThen, Value.text.injEq, forall_eq']
    split
    · rename_i level known
      -- A broken word would not be known.
      have whole : word.isBroken ≠ true := fun broken => by
        simp [LogLevel.ofWord?_of_isBroken broken] at known
      simpa [Tellable] using whole
    · rw [tellable_fault]
      cases word.isBroken with
      | true => simp
      | false => simp
  · rename_i other
    refine ⟨fun _ word same => absurd same (other word), fun _ => ?_⟩
    exact tellable_fault.mpr (by decide)

/-- What is wrong with settings can be told, unless the word for their level is broken. -/
theorem tellable_ofFields {fields : Entries Value} :
    (ofFields fields).Tellable ↔
      ∀ word, fields.find? "log_level" = some (.text word) → word.isBroken = false := by
  -- The checks of all fields but the last one tell every fault.
  have count (value : Value) : (simulationCountField value).Tellable :=
    tellable_andThen (tellable_whole value) (tellable_between _ _)
  have limit (value : Value) : (maxCandidatesField value).Tellable :=
    tellable_andThen (tellable_whole value) (tellable_between _ _)
  have faces (value : Value) : (list text value).Tellable := tellable_list tellable_text value
  simp only [ofFields, tellable_seq, tellable_map, tellable_optional, count, limit, faces,
    tellable_text, tellable_logLevelField, implies_true, true_and]
  -- What is left is the level, which is looked up and then looked at.
  constructor
  · intro each word given
    exact each _ given word rfl
  · rintro each value given word rfl
    exact each word given

/-- The file has a name that files can have, can be opened, and holds the text. -/
structure File.Holds (file : File) (text : String) : Prop where
  named : file.nameFailure? = none
  decoded : ∃ bytes, file.content = .ok bytes ∧ String.fromUTF8? bytes = some text

/-- The file holds a table with the fields. -/
def File.Offers (file : File) (fields : Entries Value) : Prop :=
  ∃ text, file.Holds text ∧ Json.parse .ofFiles text = .ok (.table fields)

/-- The file has nothing to say: it cannot be opened, is malformed, or holds no table. -/
inductive File.Useless (file : File) : Prop where
  | unopened {cause : Unopened} (named : file.nameFailure? = none)
      (closed : file.content = .error cause) : file.Useless
  | malformed {text : String} (holds : file.Holds text)
      (read : Json.parse .ofFiles text = .error .malformed) : file.Useless
  | noTable {text : String} {value : Value} (holds : file.Holds text)
      (read : Json.parse .ofFiles text = .ok value) (other : ∀ fields, value ≠ .table fields) :
      file.Useless

/-- The file breaks whatever reads it: no file can have its name, its bytes are not text, or its
text has a number that is too long or values too deep inside one another. -/
inductive File.Breaks (file : File) : Failure → Prop where
  | unnamed {failure : Failure} (wrong : file.nameFailure? = some failure) : file.Breaks failure
  | undecodable {bytes : ByteArray} (named : file.nameFailure? = none)
      (opened : file.content = .ok bytes) (noText : String.fromUTF8? bytes = none) :
      file.Breaks .undecodable
  | tooManyDigits {text : String} {count : Nat} (holds : file.Holds text)
      (read : Json.parse .ofFiles text = .error (.tooManyDigits count)) :
      file.Breaks (.tooManyDigits count)
  | tooDeep {text : String} (holds : file.Holds text)
      (read : Json.parse .ofFiles text = .error .tooDeep) : file.Breaks .tooDeep

/-- A file offers fields, has nothing to say, or breaks what reads it. -/
theorem File.offers_or_useless_or_breaks (file : File) :
    (∃ fields, file.Offers fields) ∨ file.Useless ∨ ∃ failure, file.Breaks failure := by
  -- A file is named, opened, decoded and read in this order, and each step can be the last.
  cases named : file.nameFailure? with
  | some failure => exact .inr (.inr ⟨failure, .unnamed named⟩)
  | none =>
    cases opened : file.content with
    | error cause => exact .inr (.inl (.unopened named opened))
    | ok bytes =>
      cases decoded : String.fromUTF8? bytes with
      | none => exact .inr (.inr ⟨_, .undecodable named opened decoded⟩)
      | some text =>
        have holds : file.Holds text := ⟨named, bytes, opened, decoded⟩
        -- What is left is the reading of the text.
        cases read : Json.parse .ofFiles text with
        | error fault =>
          cases fault with
          | malformed => exact .inr (.inl (.malformed holds read))
          | tooManyDigits count => exact .inr (.inr ⟨_, .tooManyDigits holds read⟩)
          | tooDeep => exact .inr (.inr ⟨_, .tooDeep holds read⟩)
        | ok value =>
          by_cases table : ∃ fields, value = .table fields
          · obtain ⟨fields, rfl⟩ := table
            exact .inl ⟨fields, text, holds, read⟩
          · exact .inr (.inl (.noTable holds read (not_exists.mp table)))

/-- What a file offers is read without a warning. -/
theorem fileFields_of_offers {file : File} {fields : Entries Value} (offers : file.Offers fields) :
    fileFields file = pure fields := by
  obtain ⟨text, ⟨named, bytes, opened, decoded⟩, read⟩ := offers
  simp [fileFields, named, opened, decoded, read]

/-- A file that has nothing to say is read as one without fields, with one warning. -/
theorem fileFields_of_useless {file : File} (useless : file.Useless) :
    ∃ text, fileFields file = ⟨[.warning text], .ok []⟩ := by
  -- Each way of being useless has its own warning.
  cases useless with
  | unopened named closed =>
    simp only [fileFields, named, closed]
    exact ⟨_, rfl⟩
  | malformed holds read =>
    obtain ⟨named, bytes, opened, decoded⟩ := holds
    simp only [fileFields, named, opened, decoded, read]
    exact ⟨_, rfl⟩
  | @noTable text value holds read other =>
    obtain ⟨named, bytes, opened, decoded⟩ := holds
    simp only [fileFields, named, opened, decoded, read]
    cases value with
    | table fields => exact absurd rfl (other fields)
    | _ => exact ⟨_, rfl⟩

/-- A file that offers fields is not useless: it would have been read with a warning. -/
theorem not_useless_of_offers {file : File} {fields : Entries Value} (offers : file.Offers fields) :
    ¬file.Useless := by
  intro useless
  obtain ⟨text, warned⟩ := fileFields_of_useless useless
  simp [fileFields_of_offers offers, pure] at warned

/-- A file that breaks what reads it leaves nothing but the failure. -/
theorem fileFields_of_breaks {file : File} {failure : Failure} (breaks : file.Breaks failure) :
    fileFields file = .fail failure := by
  -- None of these failures is caught, so each is the one that reading ends with.
  cases breaks with
  | unnamed wrong =>
    simp only [fileFields, wrong]
    rfl
  | undecodable named opened noText => simp [fileFields, named, opened, noText]
  | tooManyDigits holds read =>
    obtain ⟨named, bytes, opened, decoded⟩ := holds
    simp [fileFields, named, opened, decoded, read]
  | tooDeep holds read =>
    obtain ⟨named, bytes, opened, decoded⟩ := holds
    simp [fileFields, named, opened, decoded, read]

/-- The fields that settings start from: those that a file offers, and none without a useful file. -/
inductive Offered : Option File → Entries Value → Prop where
  | absent : Offered none []
  | useful {file : File} {fields : Entries Value} (offers : file.Offers fields) :
      Offered (some file) fields
  | useless {file : File} (useless : file.Useless) : Offered (some file) []

/-- The reading of the fields that settings start from. -/
def readFields : Option File → Reported (Entries Value)
  | none => pure []
  | some file => fileFields file

/-- Offered fields are read, with a warning exactly when the file is useless. -/
theorem readFields_of_offered {file : Option File} {fields : Entries Value}
    (offered : Offered file fields) :
    (readFields file).result = .ok fields ∧ (Notice.warnings (readFields file).notices = [] ↔
      ∀ given, file = some given → ¬given.Useless) := by
  cases offered with
  | absent => exact ⟨rfl, by simp [readFields, Notice.warnings]⟩
  -- A file that offers fields is read without a word, and a useless one is warned of.
  | @useful given _ offers =>
    have read := fileFields_of_offers offers
    simpa [readFields, read, Notice.warnings] using not_useless_of_offers offers
  | @useless given useless =>
    obtain ⟨text, read⟩ := fileFields_of_useless useless
    simpa [readFields, read, Notice.warnings] using useless

/-- Offered fields are the only ones. -/
theorem Offered.unique {file : Option File} {fields others : Entries Value}
    (offered : Offered file fields) (also : Offered file others) : fields = others := by
  have read := (readFields_of_offered offered).1
  rwa [(readFields_of_offered also).1, Except.ok.injEq, eq_comm] at read

/-- Without a file of use, no fields are offered. -/
theorem Offered.eq_nil {file : Option File} {fields : Entries Value}
    (offered : Offered file fields) (useless : ∀ given, file = some given → given.Useless) :
    fields = [] := by
  cases offered with
  | absent => rfl
  -- A file cannot offer fields and be useless at once.
  | useful offers => exact absurd (useless _ rfl) (not_useless_of_offers offers)
  | useless _ => rfl

/-- Fields over which the overrides that are not null are stored. -/
def under (overrides fields : Entries Value) : Entries Value :=
  Entries.storeAll (overrides.filter fun entry => !isNull entry.2) fields

/-- The settings that fields make, or the usual ones with a warning. -/
def settle (fields : Entries Value) : Reported Settings :=
  match (ofFields fields).result with
  | .ok settings => return settings
  | .error (.invalid _) => do
    Reported.warn "Invalid settings, using defaults"
    return {}
  | .error failure => Reported.fail failure

/-- Fields that pass are settled without a warning. -/
theorem settle_of_ok {fields : Entries Value} {settings : Settings}
    (passed : ofFields fields = .ok settings) : settle fields = pure settings := by
  simp [settle, passed, Checked.result]

/-- Fields with faults that can be told give way to the usual settings, with a warning. -/
theorem settle_of_faulty {fields : Entries Value} {faults : List Fault}
    (faulty : ofFields fields = .faulty faults) (tellable : (ofFields fields).Tellable) :
    settle fields = ⟨[.warning "Invalid settings, using defaults"], .ok {}⟩ := by
  -- All faults make one failure, and this one is caught.
  rw [faulty] at tellable
  simp only [settle, faulty, result_of_tellable tellable]
  rfl

/-- A fault that cannot be told ends everything. -/
theorem settle_of_not_tellable {fields : Entries Value} (hidden : ¬(ofFields fields).Tellable) :
    settle fields = .fail .unencodable := by
  simp only [settle, result_of_not_tellable hidden]

/-- An override may not be called what the file is called. -/
theorem load_of_taken {file : Option File} {overrides : Entries Value} {value : Value}
    (taken : overrides.find? fileArgument = some value) :
    (load file overrides).result = .error (.nameTaken "load_settings" fileArgument) := by
  simp only [load, taken, Option.isSome_some, if_true]
  rfl

/-- Fields are read and then settled under the overrides. -/
theorem load_of_free {file : Option File} {overrides : Entries Value}
    (free : overrides.find? fileArgument = none) :
    load file overrides = readFields file >>= fun fields => settle (under overrides fields) := by
  simp only [load, free, Option.isSome_none, Bool.false_eq_true, if_false]
  -- With a file or without one, the steps are the same.
  cases file with
  | none => rfl
  | some file => rfl

/-- Offered fields are settled under the overrides, behind what was noticed when they were read. -/
theorem load_of_offered {file : Option File} {overrides fields : Entries Value}
    (free : overrides.find? fileArgument = none) (offered : Offered file fields) :
    load file overrides =
      ⟨(readFields file).notices ++ (settle (under overrides fields)).notices,
        (settle (under overrides fields)).result⟩ := by
  rw [load_of_free free]
  exact Reported.bind_of_ok _ (readFields_of_offered offered).1

/-- Offered fields whose faults can be told make the settings, or the usual ones take their place and
one more warning is given. -/
theorem load_of_tellable {file : Option File} {overrides fields : Entries Value}
    (free : overrides.find? fileArgument = none) (offered : Offered file fields)
    (tellable : (ofFields (under overrides fields)).Tellable) :
    (∃ settings, ofFields (under overrides fields) = .ok settings ∧
      load file overrides = ⟨(readFields file).notices, .ok settings⟩) ∨
    ∃ faults, ofFields (under overrides fields) = .faulty faults ∧
      load file overrides = ⟨(readFields file).notices ++
        [.warning "Invalid settings, using defaults"], .ok {}⟩ := by
  rw [load_of_offered free offered]
  -- The fields are settled after the file was read, so its notices stand in front.
  cases checked : ofFields (under overrides fields) with
  | ok settings =>
    rw [settle_of_ok checked]
    exact .inl ⟨settings, rfl, by simp⟩
  | faulty faults =>
    rw [settle_of_faulty checked tellable]
    exact .inr ⟨faults, rfl, rfl⟩

/-- What stops the loading of settings: an override that is called what the file is called, a file
that breaks what reads it, or a level whose word no message can tell. -/
inductive Stops (file : Option File) (overrides : Entries Value) : Failure → Prop where
  | taken {value : Value} (given : overrides.find? fileArgument = some value) :
      Stops file overrides (.nameTaken "load_settings" fileArgument)
  | broken {given : File} {failure : Failure} (free : overrides.find? fileArgument = none)
      (named : file = some given) (breaks : given.Breaks failure) : Stops file overrides failure
  | level {fields : Entries Value} {word : Text} (free : overrides.find? fileArgument = none)
      (offered : Offered file fields)
      (given : (under overrides fields).find? "log_level" = some (.text word))
      (broken : word.isBroken = true) : Stops file overrides .unencodable

/-- What stops the loading is what it fails with. -/
theorem Stops.load {file : Option File} {overrides : Entries Value} {failure : Failure}
    (stops : Stops file overrides failure) :
    (Settings.load file overrides).result = .error failure := by
  -- The call fails before the file is read, the reading fails, or the settling does.
  cases stops with
  | taken given => exact load_of_taken given
  | @broken given _ free named breaks =>
    subst named
    have failed : (readFields (some given)).result = .error failure := by
      rw [readFields, fileFields_of_breaks breaks]
      rfl
    rw [load_of_free free, Reported.bind_of_error _ failed]
  | level free offered given broken =>
    have hidden : ¬(ofFields (under overrides _)).Tellable := fun tellable => by
      simpa [broken] using tellable_ofFields.mp tellable _ given
    rw [load_of_offered free offered, settle_of_not_tellable hidden]
    rfl

/-- Loading is stopped, or fields are offered that can be settled under the overrides. -/
theorem stops_or_offered (file : Option File) (overrides : Entries Value) :
    (∃ failure, Stops file overrides failure) ∨
      overrides.find? fileArgument = none ∧
        ∃ fields, Offered file fields ∧ (ofFields (under overrides fields)).Tellable := by
  cases free : overrides.find? fileArgument with
  | some value => exact .inl ⟨_, .taken free⟩
  | none =>
    -- Offered fields stop the loading only through a fault that cannot be told.
    have offers {fields : Entries Value} (offered : Offered file fields) :
        (∃ failure, Stops file overrides failure) ∨
          (none : Option Value) = none ∧
            ∃ fields, Offered file fields ∧ (ofFields (under overrides fields)).Tellable := by
      by_cases tellable : (ofFields (under overrides fields)).Tellable
      · exact .inr ⟨rfl, fields, offered, tellable⟩
      · rw [tellable_ofFields] at tellable
        push Not at tellable
        obtain ⟨word, given, broken⟩ := tellable
        exact .inl ⟨_, .level free offered given (by simpa using broken)⟩
    cases file with
    | none => exact offers .absent
    | some given =>
      rcases given.offers_or_useless_or_breaks with ⟨fields, useful⟩ | useless | ⟨failure, breaks⟩
      · exact offers (.useful useful)
      · exact offers (.useless useless)
      · exact .inl ⟨failure, .broken free rfl breaks⟩

/-- Loading fails with what stops it, and with nothing else. -/
theorem load_eq_error {file : Option File} {overrides : Entries Value} {failure : Failure} :
    (load file overrides).result = .error failure ↔ Stops file overrides failure := by
  refine ⟨fun error => ?_, Stops.load⟩
  rcases stops_or_offered file overrides with ⟨other, stops⟩ | ⟨free, fields, offered, tellable⟩
  · -- Loading fails once only.
    rw [stops.load, Except.error.injEq] at error
    exact error ▸ stops
  · -- Fields that can be settled make settings, of whatever kind.
    rcases load_of_tellable free offered tellable with ⟨_, -, made⟩ | ⟨_, -, made⟩
    · rw [made] at error
      cases error
    · rw [made] at error
      cases error

/-- Settings are loaded from offered fields: those that these make under the overrides, with the
warnings of the reading alone, or the usual ones, with a warning. -/
theorem exists_offered_of_load {file : Option File} {overrides : Entries Value}
    {settings : Settings} (ok : (load file overrides).result = .ok settings) :
    ∃ fields, Offered file fields ∧
      ((ofFields (under overrides fields) = .ok settings ∧
        Notice.warnings (load file overrides).notices =
          Notice.warnings (readFields file).notices) ∨
      (settings = {} ∧ ∃ faults, ofFields (under overrides fields) = .faulty faults) ∧
        Notice.warnings (load file overrides).notices ≠ []) := by
  rcases stops_or_offered file overrides with ⟨failure, stops⟩ | ⟨free, fields, offered, tellable⟩
  · -- A load that stops has no settings.
    rw [stops.load] at ok
    cases ok
  · refine ⟨fields, offered, ?_⟩
    rcases load_of_tellable free offered tellable with ⟨_, passed, made⟩ | ⟨faults, faulty, made⟩
    · rw [made] at ok ⊢
      obtain rfl := Except.ok.inj ok
      exact .inl ⟨passed, rfl⟩
    · rw [made] at ok ⊢
      -- The defaults are used, and the warning behind those of the file says so.
      obtain rfl := Except.ok.inj ok
      exact .inr ⟨⟨rfl, faults, faulty⟩, by simp [Notice.warnings]⟩

/-- Settings that are loaded are those that the offered fields make under the overrides, or the
usual ones. -/
theorem passed_or_usual_of_load {file : Option File} {overrides : Entries Value}
    {settings : Settings} (ok : (load file overrides).result = .ok settings) :
    ∃ fields, Offered file fields ∧
      (ofFields (under overrides fields) = .ok settings ∨
        settings = {} ∧ ∃ faults, ofFields (under overrides fields) = .faulty faults) := by
  obtain ⟨fields, offered, ⟨passed, -⟩ | ⟨usual, -⟩⟩ := exists_offered_of_load ok
  · exact ⟨fields, offered, .inl passed⟩
  · exact ⟨fields, offered, .inr usual⟩

/-- Whatever settings are loaded, they are within their bounds. -/
theorem valid_of_load {file : Option File} {overrides : Entries Value} {settings : Settings}
    (ok : (load file overrides).result = .ok settings) : settings.Valid := by
  obtain ⟨fields, -, passed | ⟨rfl, -⟩⟩ := passed_or_usual_of_load ok
  · exact valid_of_ofFields passed
  · exact valid_default

/-- Settings are loaded without a warning exactly when the file is not useless and its fields pass
under the overrides. -/
theorem warnings_of_load {file : Option File} {overrides : Entries Value} {settings : Settings}
    (ok : (load file overrides).result = .ok settings) :
    Notice.warnings (load file overrides).notices = [] ↔
      (∀ given, file = some given → ¬given.Useless) ∧
        ∃ fields, Offered file fields ∧ ofFields (under overrides fields) = .ok settings := by
  obtain ⟨fields, offered, ⟨passed, warned⟩ | ⟨⟨-, faults, faulty⟩, warned⟩⟩ :=
    exists_offered_of_load ok
  · -- Only the reading can have warned.
    rw [warned, (readFields_of_offered offered).2]
    exact ⟨fun useful => ⟨useful, fields, offered, passed⟩, fun both => both.1⟩
  · refine ⟨fun silent => absurd silent warned, ?_⟩
    -- There are no other fields that could have passed.
    rintro ⟨-, others, also, passed⟩
    rw [← offered.unique also, faulty] at passed
    cases passed

/-- What is known of the loading of settings. -/
structure Loading (file : Option File) (overrides : Entries Value) : Prop where
  /-- Loading fails with what stops it, and with nothing else. -/
  fails : ∀ failure, (load file overrides).result = .error failure ↔ Stops file overrides failure
  /-- Settings are those that the offered fields make under the overrides, or the usual ones. -/
  settled : ∀ settings, (load file overrides).result = .ok settings →
    ∃ fields, Offered file fields ∧
      (ofFields (under overrides fields) = .ok settings ∨
        settings = {} ∧ ∃ faults, ofFields (under overrides fields) = .faulty faults)
  /-- Settings are within their bounds. -/
  valid : ∀ settings, (load file overrides).result = .ok settings → settings.Valid
  /-- Settings come without a warning exactly when the file is not useless and its fields pass under
  the overrides. -/
  warned : ∀ settings, (load file overrides).result = .ok settings →
    (Notice.warnings (load file overrides).notices = [] ↔
      (∀ given, file = some given → ¬given.Useless) ∧
        ∃ fields, Offered file fields ∧ ofFields (under overrides fields) = .ok settings)

/-- Loading gives settings within their bounds unless something stops it, and warns when the file is
useless or its fields do not pass. -/
theorem load_account (file : Option File) (overrides : Entries Value) :
    Loading file overrides where
  fails := fun _ => load_eq_error
  settled := fun _ => passed_or_usual_of_load
  valid := fun _ => valid_of_load
  warned := fun _ => warnings_of_load

/-- A file of one byte that is not text ends the loading, and neither settings nor a warning are
given. -/
theorem load_of_oneByte :
    let file : File := ⟨"settings.json", .ok ⟨#[0xff]⟩⟩
    (load (some file) []).result = .error .undecodable ∧
      Notice.warnings (load (some file) []).notices = [] := by
  intro file
  have breaks : file.Breaks .undecodable :=
    .undecodable (by decide +kernel) (rfl : file.content = .ok ⟨#[0xff]⟩) (by decide +kernel)
  exact ⟨(Stops.broken rfl rfl breaks).load, by decide +kernel⟩

end Settings

end DiceLab
