import DiceLab.Proofs.Decimal.Runs
import DiceLab.Proofs.Face.Resolution
import DiceLab.Proofs.Formula.Readable
import DiceLab.Proofs.Formula.RoundTrip

/-! Which texts name a face: the spellings of its sides, behind the letter of a die or without it. -/

namespace DiceLab

open Chunk (SidesSpelled FaceSpelled)

namespace FaceTag

/-- The spellings of sides in a tag, in front of which the letter of a die may be left out. -/
inductive Spelled (sides : SidesText) : Text → Prop where
  | bare {text : Text} (sided : SidesSpelled sides text) : Spelled sides text
  | lettered {letter : Char} {text : Text} (lettered : letter = 'd' ∨ letter = 'D')
      (sided : SidesSpelled sides text) : Spelled sides (.char letter :: text)

/-- A text spells the sides of a face. -/
def Spells (text : Text) (face : Face) : Prop :=
  ∃ sides, Spelled sides text ∧ FaceSpelled sides face

/-- A text spells sides with more digits than a number may have. -/
def LongSides (text run : Text) : Prop :=
  Spelled (.digits run) text ∧ Decimal.digitLimit < run.length

variable {text : Text} {sides : SidesText} {face : Face}

/-- Sides are taken off a text with nothing left when the text spells them. -/
theorem takeSides_whole :
    Chunk.takeSides text = some (sides, []) ↔ SidesSpelled sides text := by
  rw [Chunk.takeSides_eq_some]
  constructor
  · rintro ⟨sidesText, sided, rfl, -⟩
    rwa [List.append_nil]
  · intro sided
    exact ⟨text, sided, (List.append_nil text).symm, .inr Decimal.ends_nil⟩

/-- No sides start with the letter of a die. -/
theorem not_sidesSpelled_lettered {letter : Char} (lettered : letter = 'd' ∨ letter = 'D') :
    ¬SidesSpelled sides (.char letter :: text) := by
  intro sided
  cases sided with
  | small => simp at lettered
  | capital => simp at lettered
  | digits _ digits =>
    -- Neither letter is a digit.
    have ends : Decimal.Ends (.char letter :: text) := Chunk.ends_letter lettered
    have digit := digits (.char letter) List.mem_cons_self
    rw [ends _ rfl] at digit
    cases digit

/-- A tag is read through the sides that it spells. -/
theorem readText_of_spelled (spelled : Spelled sides text) :
    readText text = Chunk.readSides sides := by
  cases spelled with
  | lettered lettered sided =>
    have taken := takeSides_whole.mpr sided
    rcases lettered with rfl | rfl
    · simp only [readText, taken]
    · simp only [readText, taken]
  | bare sided =>
    have taken := takeSides_whole.mpr sided
    unfold readText
    -- A letter in front would have been taken off, but sides do not start with one.
    split
    · exact absurd sided (not_sidesSpelled_lettered (.inl rfl))
    · exact absurd sided (not_sidesSpelled_lettered (.inr rfl))
    · simp only [taken]

/-- A tag that is not read as naming nothing spells some sides. -/
theorem exists_spelled (some : readText text ≠ .ok none) : ∃ sides, Spelled sides text := by
  unfold readText at some
  dsimp only at some
  split at some
  · rename_i found taken
    have sided := takeSides_whole.mp taken
    refine ⟨found, ?_⟩
    -- One leading letter may be dropped before the sides are read.
    split at sided
    · exact .lettered (.inl rfl) sided
    · exact .lettered (.inr rfl) sided
    · exact .bare sided
  · exact absurd rfl some

/-- A tag is not read exactly when it spells sides with too many digits. -/
theorem readText_eq_error {failure : Failure} :
    readText text = .error failure ↔
      ∃ run, LongSides text run ∧ failure = .tooManyDigits run.length := by
  constructor
  · intro failed
    -- A text that spells no sides is answered without a failure.
    obtain ⟨sides, spelled⟩ : ∃ sides, Spelled sides text := exists_spelled (by simp [failed])
    rw [readText_of_spelled spelled] at failed
    obtain ⟨run, rfl, long, told⟩ := Chunk.readSides_eq_error failed
    exact ⟨run, ⟨spelled, long⟩, told⟩
  · rintro ⟨run, ⟨spelled, long⟩, rfl⟩
    rw [readText_of_spelled spelled, Chunk.readSides,
      Decimal.readDigits_eq_error.mpr ⟨long, rfl⟩]
    rfl

/-- A tag is read as a face exactly when it spells its sides, with no more digits than they may
have. -/
theorem readText_eq_some :
    readText text = .ok (some face) ↔ Spells text face ∧ ¬∃ run, LongSides text run := by
  constructor
  · intro ok
    constructor
    · obtain ⟨sides, spelled⟩ : ∃ sides, Spelled sides text := exists_spelled (by simp [ok])
      rw [readText_of_spelled spelled] at ok
      exact ⟨sides, spelled, (Chunk.readSides_eq_ok ok face).mp rfl⟩
    · rintro ⟨run, long⟩
      rw [readText_eq_error.mpr ⟨run, long, rfl⟩] at ok
      cases ok
  · rintro ⟨⟨sides, spelled, faced⟩, short⟩
    -- A tag is spelled in one way, so what it is read as is the face that it spells.
    cases outcome : readText text with
    | error failure =>
      obtain ⟨run, long, -⟩ := readText_eq_error.mp outcome
      exact absurd ⟨run, long⟩ short
    | ok named =>
      rw [readText_of_spelled spelled] at outcome
      rw [(Chunk.readSides_eq_ok outcome face).mpr faced]

/-- A tag names nothing exactly when it spells no face and no sides with too many digits. -/
theorem readText_eq_none :
    readText text = .ok none ↔ (¬∃ face, Spells text face) ∧ ¬∃ run, LongSides text run := by
  cases outcome : readText text with
  | error failure =>
    obtain ⟨run, long, -⟩ := readText_eq_error.mp outcome
    exact iff_of_false (by simp) fun unnamed => unnamed.2 ⟨run, long⟩
  | ok named =>
    cases named with
    | some face =>
      obtain ⟨spells, -⟩ := readText_eq_some.mp outcome
      exact iff_of_false (by simp) fun unnamed => unnamed.1 ⟨face, spells⟩
    | none =>
      -- What failed or named a face is not this answer, so both other cases are left out.
      have short : ¬∃ run, LongSides text run := by
        rintro ⟨run, long⟩
        rw [readText_eq_error.mpr ⟨run, long, rfl⟩] at outcome
        cases outcome
      refine iff_of_true rfl ⟨?_, short⟩
      rintro ⟨face, spells⟩
      rw [readText_eq_some.mpr ⟨spells, short⟩] at outcome
      cases outcome

/-- A text with short runs of digits does not spell sides with too many. -/
theorem not_longSides_of_shortRuns (short : Decimal.ShortRuns text) : ¬∃ run, LongSides text run := by
  rintro ⟨run, spelled, long⟩
  cases spelled with
  | bare sided =>
    cases sided with
    | digits _ digits =>
      exact absurd ((Decimal.shortRuns_of_digits digits).mp short) (Nat.not_le.mpr long)
  | lettered lettered sided =>
    cases sided with
    | digits _ digits =>
      -- The letter is no digit, so the run behind it is one of the text.
      have ends : Decimal.Ends (.char _ :: run) := Chunk.ends_letter lettered
      have behind := ((Decimal.shortRuns_append_cons [] run (ends _ rfl)).mp short).2
      exact absurd ((Decimal.shortRuns_of_digits digits).mp behind) (Nat.not_le.mpr long)

/-- A tag that is a text is read without its blanks, and only when it names nothing is it warned
about. -/
theorem read_text (text : Text) :
    read (.value (.text text)) =
      match readText text.squeeze with
      | .ok (some face) => ⟨[], .ok (some face)⟩
      | .ok none => ⟨[.warning ("Unknown dice face '" ++ text ++ "'")], .ok none⟩
      | .error failure => ⟨[], .error failure⟩ := by
  simp only [read, ensureText, pure_bind]
  rcases readText text.squeeze with failure | _ | face
  · rfl
  · rfl
  · rfl

/-- A whole number is read as the text that it is written in. -/
theorem read_whole {sides : Nat} (writable : Decimal.Writable sides) :
    read (.value (.whole sides)) = read (.value (.text (Decimal.naturalText sides))) := by
  -- A whole number is written out and then read as that text.
  have written : Reported.write sides = pure (Decimal.naturalText sides) := by
    rw [Reported.write, Decimal.write, if_pos writable, Decimal.wholeText, if_neg (by omega),
      Int.natAbs_natCast]
    rfl
  simp only [read, written, map_pure, pure_bind]

/-- The values that name a face: its tag, and for a numeric one its number of sides, which may be
given as a number or as a text. -/
inductive NamedBy : Face → Value → Prop where
  | tag (face : Face) : NamedBy face (.text face.tagText)
  | whole (sides : Nat) (positive : 0 < sides) : NamedBy (.numeric sides positive) (.whole sides)
  | digits (sides : Nat) (positive : 0 < sides) :
      NamedBy (.numeric sides positive) (.text (Decimal.naturalText sides))

/-- A text without blanks that spells the written sides of a face is read as the face. -/
theorem read_of_spelled (writable : face.Writable) (plain : ∀ point ∈ text, point.IsPlain)
    (spelled : Spelled face.spelledSides text) :
    read (.value (.text text)) = ⟨[], .ok (some face)⟩ := by
  rw [read_text, Text.squeeze_of_plain plain, readText_of_spelled spelled,
    Face.readSides_spelledSides writable]

/-- A face is read from every value that names it. -/
theorem read_of_namedBy (writable : face.Writable) {value : Value} (named : NamedBy face value) :
    read (.value value) = ⟨[], .ok (some face)⟩ := by
  cases named with
  | tag =>
    refine read_of_spelled writable ?_ (.lettered (.inl rfl) face.sidesSpelled)
    -- The letter is written plainly, as the sides are.
    exact List.forall_mem_cons.mpr ⟨⟨_, rfl, .inr (by simp)⟩, face.sidesText_plain⟩
  | whole sides positive =>
    rw [read_whole writable]
    exact read_of_spelled writable (Decimal.naturalText_plain sides) (.bare (Face.sidesSpelled _))
  | digits sides positive =>
    exact read_of_spelled writable (Decimal.naturalText_plain sides) (.bare (Face.sidesSpelled _))

/--
A face is read from its tag and from the number of its sides, and a text is read as a face exactly
when it spells one.

Every other text is warned about once. What fails are sides with more digits than a number may have,
of which a text has none when its runs of digits are short once the blanks are taken out.
-/
theorem read_exact (face : Face) (text : Text) :
    (face.Writable → face.tag = .ok face.tagText ∧
      ∀ value, NamedBy face value → read (.value value) = ⟨[], .ok (some face)⟩) ∧
    (read (.value (.text text)) = ⟨[], .ok (some face)⟩ ↔
      Spells text.squeeze face ∧ ¬∃ run, LongSides text.squeeze run) ∧
    (read (.value (.text text)) = ⟨[.warning ("Unknown dice face '" ++ text ++ "'")], .ok none⟩ ↔
      (¬∃ face, Spells text.squeeze face) ∧ ¬∃ run, LongSides text.squeeze run) ∧
    (∀ failure, (read (.value (.text text))).result = .error failure ↔
      ∃ run, LongSides text.squeeze run ∧ failure = .tooManyDigits run.length) ∧
    (Decimal.ShortRuns text.squeeze → ¬∃ run, LongSides text.squeeze run) := by
  constructor
  · intro writable
    exact ⟨Face.tag_eq_ok.mpr ⟨writable, rfl⟩, fun value named => read_of_namedBy writable named⟩
  · -- Whatever the text spells, reading it says so in one of three ways.
    simp only [← readText_eq_some, ← readText_eq_none, ← readText_eq_error, read_text]
    cases readText text.squeeze with
    | error failure => simpa using not_longSides_of_shortRuns
    | ok named =>
      cases named with
      | none => simpa using not_longSides_of_shortRuns
      | some other => simpa using not_longSides_of_shortRuns

/-- Digits spell the numeric face with as many sides as they stand for. -/
theorem faceSpelled_of_valueOf {run : Text} {sides : Nat} {positive : 0 < sides}
    (value : Decimal.valueOf run = sides) : FaceSpelled (.digits run) (.numeric sides positive) := by
  subst value
  exact .numeric positive

/-- The coin is read from its number of sides, and from a digit of another script between blanks. -/
theorem read_exact_coin :
    let coin : Face := .numeric 2 (by decide)
    coin.Writable ∧ read (.value (.whole 2)) = ⟨[], .ok (some coin)⟩ ∧
      Spells (Text.squeeze " D ٢\n") coin ∧ Decimal.ShortRuns (Text.squeeze " D ٢\n") ∧
      read (.value (.text " D ٢\n")) = ⟨[], .ok (some coin)⟩ := by
  intro coin
  have writable : coin.Writable := (Decimal.writable_iff_length 2).mpr (by decide)
  have squeezed : Text.squeeze " D ٢\n" = [.char 'D', .char '٢'] := by decide
  have digits : Decimal.Digits [.char '٢'] := List.forall_mem_singleton.mpr (by decide)
  have spells : Spells (Text.squeeze " D ٢\n") coin := by
    rw [squeezed]
    exact ⟨_, .lettered (.inr rfl) (.digits (by decide) digits), faceSpelled_of_valueOf (by decide)⟩
  have short : Decimal.ShortRuns (Text.squeeze " D ٢\n") := by
    rw [squeezed]
    decide
  obtain ⟨known, named, -, -, notLong⟩ := read_exact coin " D ٢\n"
  exact ⟨writable, (known writable).2 _ (.whole 2 _), spells, short,
    named.mpr ⟨spells, notLong short⟩⟩

/-- Zeros stand for zero, however many they are. -/
theorem valueOf_zeros (count : Nat) : Decimal.valueOf (List.replicate count '0') = 0 := by
  induction count with
  | zero => rfl
  | succ count ih =>
    have zero : (Text.valueOfDigit? '0').getD 0 = 0 := by decide
    rw [List.replicate_succ', Decimal.valueOf_concat, ih, zero]

/-- Digits whose runs are short in the text are not read as the face they spell when taking out a blank
joins them into a long one. -/
theorem read_partedDigits :
    let zeros : Text := List.replicate 4300 '0'
    let text : Text := zeros ++ " 6"
    Decimal.ShortRuns text ∧ Spells text.squeeze (.numeric 6 (by decide)) ∧
      (read (.value (.text text))).result = .error (.tooManyDigits 4301) := by
  intro zeros text
  have zerosLength : zeros.length = 4300 := List.length_replicate
  have digits : Decimal.Digits zeros := by
    intro point member
    rw [List.eq_of_mem_replicate member]
    decide
  have last : Decimal.Digits [.char '6'] := List.forall_mem_singleton.mpr (by decide)
  have squeezed : text.squeeze = zeros ++ [.char '6'] := by
    have same : zeros.squeeze = zeros := List.filter_replicate_of_pos (by decide)
    have six : Text.squeeze " 6" = [.char '6'] := by decide
    rw [← six, ← same]
    exact List.filter_append ..
  have length : text.squeeze.length = 4301 := by
    rw [squeezed, List.length_append, zerosLength]
    rfl
  have long : LongSides text.squeeze text.squeeze := by
    constructor
    · rw [squeezed]
      exact .bare (.digits (List.append_ne_nil_of_right_ne_nil _ (List.cons_ne_nil _ _))
        (List.forall_mem_append.mpr ⟨digits, last⟩))
    · rw [length]
      decide
  refine ⟨?_, ⟨_, long.1, faceSpelled_of_valueOf ?_⟩, ?_⟩
  · -- The blank parts the digits into two runs.
    apply (Decimal.shortRuns_append_cons zeros [.char '6'] (by decide)).mpr
    rw [Decimal.shortRuns_of_digits digits, Decimal.shortRuns_of_digits last, zerosLength]
    decide
  · rw [squeezed, Decimal.valueOf_concat, valueOf_zeros]
    decide
  · rw [read_text, readText_eq_error.mpr ⟨_, long, rfl⟩, length]

end FaceTag

end DiceLab
