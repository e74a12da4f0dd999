import DiceLab.Proofs.Decimal.Digits
import DiceLab.Proofs.Formula.Cut

/-! The grammar of chunks: how dice and numbers are spelled, and which of them a chunk starts
with. -/

namespace DiceLab.Chunk

open Decimal (Digits Ends)

/-- The spellings of a sign; a plus may be left out. -/
inductive SignSpelled : Sign → Text → Prop where
  | absent : SignSpelled .plus []
  | plus : SignSpelled .plus [.char '+']
  | minus : SignSpelled .minus [.char '-']

/-- The spellings of what stands behind the letter of a die. -/
inductive SidesSpelled : SidesText → Text → Prop where
  | digits {run : Text} (nonempty : run ≠ []) (digits : Digits run) : SidesSpelled (.digits run) run
  | small : SidesSpelled .fudge [.char 'f']
  | capital : SidesSpelled .fudge [.char 'F']

/-- The spellings of a die: a sign, the number of dice, a letter, and the sides. -/
inductive DieSpelled (sign : Sign) (count : Text) (sides : SidesText) : Text → Prop where
  | intro {signText sidesText : Text} {letter : Char} (signed : SignSpelled sign signText)
      (counted : Digits count) (lettered : letter = 'd' ∨ letter = 'D')
      (sided : SidesSpelled sides sidesText) :
      DieSpelled sign count sides (signText ++ (count ++ .char letter :: sidesText))

/-- The spellings of a whole number: a sign and at least one digit. -/
inductive NumberSpelled (sign : Sign) (digits : Text) : Text → Prop where
  | intro {signText : Text} (signed : SignSpelled sign signText) (nonempty : digits ≠ [])
      (counted : Digits digits) : NumberSpelled sign digits (signText ++ digits)

/-- A chunk starts with a die, of which no digit is left behind. -/
def StartsWithDie (chunk : Text) (sign : Sign) (count : Text) (sides : SidesText) (rest : Text) :
    Prop :=
  -- Behind the letter of the Fudge die a digit is not a part of the die.
  ∃ die, DieSpelled sign count sides die ∧ chunk = die ++ rest ∧ (sides = .fudge ∨ Ends rest)

/-- A chunk starts with a whole number, of which no digit is left behind. -/
def StartsWithNumber (chunk : Text) (sign : Sign) (digits rest : Text) : Prop :=
  ∃ number, NumberSpelled sign digits number ∧ chunk = number ++ rest ∧ Ends rest

/-- A chunk starts with some die. -/
def HasDie (chunk : Text) : Prop :=
  ∃ sign count sides rest, StartsWithDie chunk sign count sides rest

/-- A chunk starts with some whole number. -/
def HasNumber (chunk : Text) : Prop := ∃ sign digits rest, StartsWithNumber chunk sign digits rest

/-- A text does not start with a sign. -/
def Unsigned (text : Text) : Prop := ∀ point, text.head? = some point → isSign point = false

/-- No digit is a sign. -/
theorem isSign_of_isDigit {point : CodePoint} (digit : Decimal.isDigit point = true) :
    isSign point = false := by
  -- Neither of the two signs is in the table of digits.
  cases sign : isSign point with
  | false => rfl
  | true =>
    simp only [isSign, Bool.or_eq_true, beq_iff_eq] at sign
    rcases sign with rfl | rfl
    · exact absurd digit (by decide)
    · exact absurd digit (by decide)

/-- Digits in front of a text are taken off it when the text goes on with none. -/
theorem takeDigits_append {run rest : Text} (digits : Digits run) (ends : Ends rest) :
    takeDigits (run ++ rest) = (run, rest) := by
  -- The run is taken whole, and nothing behind it is.
  have taken : rest.takeWhile Decimal.isDigit = [] ∧ rest.dropWhile Decimal.isDigit = rest := by
    cases rest with
    | nil => exact ⟨rfl, rfl⟩
    | cons point rest => simp [ends point rfl]
  simp only [takeDigits, List.takeWhile_append_of_pos digits, List.dropWhile_append_of_pos digits,
    taken, List.append_nil]

/-- The digits that are taken off a text are digits, and none is left in front of the rest. -/
theorem takeDigits_spec (text : Text) :
    text = (takeDigits text).1 ++ (takeDigits text).2 ∧ Digits (takeDigits text).1 ∧
      Ends (takeDigits text).2 := by
  refine ⟨List.takeWhile_append_dropWhile.symm, ?_, ?_⟩
  · intro point member
    exact List.all_eq_true.mp List.all_takeWhile point member
  · -- The rest starts where a code point failed the test.
    intro point first
    have stopped := List.head?_dropWhile_not Decimal.isDigit text
    simp only [takeDigits] at first
    rw [first] at stopped
    simpa using stopped

/-- A sign in front of a text without one is taken off it. -/
theorem takeSign_append {sign : Sign} {signText body : Text} (signed : SignSpelled sign signText)
    (unsigned : Unsigned body) : takeSign (signText ++ body) = (sign, body) := by
  cases signed with
  | plus => rfl
  | minus => rfl
  | absent =>
    -- Only a text that starts with a sign loses its first code point.
    simp only [List.nil_append, takeSign]
    split
    · exact absurd (unsigned _ rfl) (by decide)
    · exact absurd (unsigned _ rfl) (by decide)
    · rfl

/-- What is taken off a text as its sign spells that sign. -/
theorem takeSign_spec (text : Text) :
    ∃ signText, SignSpelled (takeSign text).1 signText ∧ text = signText ++ (takeSign text).2 := by
  -- Each branch of the reader is one of the three spellings.
  simp only [takeSign]
  split
  · exact ⟨_, .minus, rfl⟩
  · exact ⟨_, .plus, rfl⟩
  · exact ⟨_, .absent, rfl⟩

/-- The sides of a die are what their spellings say, with every digit that follows. -/
theorem takeSides_eq_some {text rest : Text} {sides : SidesText} :
    takeSides text = some (sides, rest) ↔
      ∃ sidesText, SidesSpelled sides sidesText ∧ text = sidesText ++ rest ∧
        (sides = .fudge ∨ Ends rest) := by
  constructor
  · intro taken
    cases text with
    | nil => simp [takeSides] at taken
    | cons letter behind =>
      simp only [takeSides] at taken
      split at taken
      · -- The letter of the Fudge die may be small or capital.
        rename_i fudge
        simp only [Option.some.injEq, Prod.mk.injEq] at taken
        obtain ⟨rfl, rfl⟩ := taken
        rcases fudge with rfl | rfl
        · exact ⟨_, .small, rfl, .inl rfl⟩
        · exact ⟨_, .capital, rfl, .inl rfl⟩
      · -- Anything else has to be a run of digits that is not empty.
        split at taken
        · simp at taken
        · rename_i some
          simp only [Option.some.injEq, Prod.mk.injEq] at taken
          obtain ⟨rfl, rfl⟩ := taken
          obtain ⟨joined, digits, ends⟩ := takeDigits_spec (letter :: behind)
          exact ⟨_, .digits (by simpa using some) digits, joined, .inr ends⟩
  · rintro ⟨sidesText, spelled, rfl, ends⟩
    cases spelled with
    | small => rfl
    | capital => rfl
    | digits nonempty digits =>
      obtain ⟨first, others, rfl⟩ := List.exists_cons_of_ne_nil nonempty
      have split := takeDigits_append digits (ends.resolve_left (by simp))
      -- A run of digits starts with neither of the two letters.
      have letterless : ¬(first = 'f' ∨ first = 'F') := by
        have digit := digits first (by simp)
        rintro (rfl | rfl)
        · exact absurd digit (by decide)
        · exact absurd digit (by decide)
      simp only [List.cons_append] at split ⊢
      simp [takeSides, letterless, split]

/-- A digit or the letter of a die is no sign. -/
theorem unsigned_die {count sidesText : Text} {letter : Char} (digits : Digits count)
    (lettered : letter = 'd' ∨ letter = 'D') :
    Unsigned (count ++ .char letter :: sidesText) := by
  intro point first
  cases count with
  | nil =>
    -- Without a count the die starts with its letter.
    simp only [List.nil_append, List.head?_cons, Option.some.injEq] at first
    rcases lettered with rfl | rfl
    · exact first ▸ by decide
    · exact first ▸ by decide
  | cons digit count =>
    simp only [List.cons_append, List.head?_cons, Option.some.injEq] at first
    exact first ▸ isSign_of_isDigit (digits digit (by simp))

/-- A digit is no sign. -/
theorem unsigned_digits {digits rest : Text} (nonempty : digits ≠ []) (counted : Digits digits) :
    Unsigned (digits ++ rest) := by
  intro point first
  obtain ⟨digit, others, rfl⟩ := List.exists_cons_of_ne_nil nonempty
  simp only [List.cons_append, List.head?_cons, Option.some.injEq] at first
  exact first ▸ isSign_of_isDigit (counted digit (by simp))

/-- The letter of a die ends a run of digits. -/
theorem ends_letter {letter : Char} {text : Text} (lettered : letter = 'd' ∨ letter = 'D') :
    Ends (.char letter :: text) := by
  intro point first
  simp only [List.head?_cons, Option.some.injEq] at first
  rcases lettered with rfl | rfl
  · exact first ▸ by decide
  · exact first ▸ by decide

/-- Behind a sign and digits, a die goes on with its letter and its sides. -/
theorem leadOf_eq_die {sign die : Sign} {digits text count rest : Text} {sides : SidesText} :
    leadOf sign digits text = .die die count sides rest ↔
      die = sign ∧ count = digits ∧ ∃ (letter : Char) (sidesText : Text),
        (letter = 'd' ∨ letter = 'D') ∧ SidesSpelled sides sidesText ∧
        text = .char letter :: (sidesText ++ rest) ∧ (sides = .fudge ∨ Ends rest) := by
  constructor
  · intro led
    simp only [leadOf] at led
    split at led
    · -- Only behind one of the two letters are sides looked for.
      rename_i found sides' rest' taken
      simp only [Lead.die.injEq] at led
      obtain ⟨rfl, rfl, rfl, rfl⟩ := led
      refine ⟨rfl, rfl, ?_⟩
      split at taken
      · obtain ⟨sidesText, spelled, rfl, ends⟩ := takeSides_eq_some.mp taken
        exact ⟨'d', sidesText, .inl rfl, spelled, rfl, ends⟩
      · obtain ⟨sidesText, spelled, rfl, ends⟩ := takeSides_eq_some.mp taken
        exact ⟨'D', sidesText, .inr rfl, spelled, rfl, ends⟩
      · simp at taken
    · split at led
      · simp at led
      · simp at led
  · -- Both letters lead to the same reading of the sides.
    rintro ⟨rfl, rfl, letter, sidesText, lettered, spelled, rfl, ends⟩
    have taken := takeSides_eq_some.mpr ⟨sidesText, spelled, rfl, ends⟩
    rcases lettered with rfl | rfl
    · simp [leadOf, taken]
    · simp [leadOf, taken]

/-- Behind a sign and digits there is a die, or else the digits are a number if there are any. -/
theorem leadOf_cases (sign : Sign) (digits text : Text) :
    (∃ sides rest, leadOf sign digits text = .die sign digits sides rest) ∨
      leadOf sign digits text = if digits.isEmpty then .neither else .number sign digits text := by
  simp only [leadOf]
  -- Sides are looked for first, and digits are a number only where there are none behind a letter.
  split
  · exact .inl ⟨_, _, rfl⟩
  · exact .inr rfl

/-- A chunk is a sign, the digits behind it and a rest, which decide what it leads with. -/
theorem lead_split (chunk : Text) :
    ∃ sign signText digits rest, SignSpelled sign signText ∧ chunk = signText ++ (digits ++ rest) ∧
      Digits digits ∧ Ends rest ∧ lead chunk = leadOf sign digits rest := by
  obtain ⟨signText, signed, joined⟩ := takeSign_spec chunk
  obtain ⟨split, counted, ends⟩ := takeDigits_spec (takeSign chunk).2
  exact ⟨_, signText, _, _, signed, split ▸ joined, counted, ends, rfl⟩

/-- A chunk leads with a die exactly when it starts with it. -/
theorem lead_eq_die {chunk count rest : Text} {sign : Sign} {sides : SidesText} :
    lead chunk = .die sign count sides rest ↔ StartsWithDie chunk sign count sides rest := by
  constructor
  · intro led
    obtain ⟨taken, signText, digits, text, signed, rfl, counted, -, split⟩ := lead_split chunk
    rw [split] at led
    obtain ⟨rfl, rfl, letter, sidesText, lettered, sided, rfl, ends⟩ := leadOf_eq_die.mp led
    exact ⟨_, .intro signed counted lettered sided, by simp, ends⟩
  · rintro ⟨die, ⟨signed, counted, lettered, sided⟩, rfl, ends⟩
    -- Sign and digits come off as they were spelled, since neither runs on into what follows.
    simp only [List.append_assoc, List.cons_append, lead,
      takeSign_append signed (unsigned_die counted lettered),
      takeDigits_append counted (ends_letter lettered)]
    exact leadOf_eq_die.mpr ⟨rfl, rfl, _, _, lettered, sided, rfl, ends⟩

/-- A chunk leads with a number exactly when it starts with it, and not with a die. -/
theorem lead_eq_number {chunk digits rest : Text} {sign : Sign} :
    lead chunk = .number sign digits rest ↔
      ¬HasDie chunk ∧ StartsWithNumber chunk sign digits rest := by
  constructor
  · intro led
    constructor
    · -- A chunk that starts with a die leads with it instead.
      rintro ⟨_, _, _, _, starts⟩
      rw [lead_eq_die.mpr starts] at led
      simp at led
    · obtain ⟨taken, signText, run, text, signed, rfl, counted, ends, split⟩ := lead_split chunk
      rw [split] at led
      rcases leadOf_cases taken run text with ⟨_, _, die⟩ | number
      · simp [die] at led
      · rw [number] at led
        split at led
        · simp at led
        · rename_i nonempty
          simp only [Lead.number.injEq] at led
          obtain ⟨rfl, rfl, rfl⟩ := led
          exact ⟨_, .intro signed (by simpa using nonempty) counted, by simp, ends⟩
  · rintro ⟨noDie, number, @⟨signText, signed, nonempty, counted⟩, rfl, ends⟩
    have taken : lead (signText ++ digits ++ rest) = leadOf sign digits rest := by
      simp only [List.append_assoc, lead, takeSign_append signed (unsigned_digits nonempty counted),
        takeDigits_append counted ends]
    -- Leading with a die is ruled out, and there are digits to make a number.
    rcases leadOf_cases sign digits rest with ⟨sides, behind, die⟩ | number
    · exact absurd ⟨_, _, _, _, lead_eq_die.mp (taken.trans die)⟩ noDie
    · rw [taken, number, if_neg (by simpa using nonempty)]

/-- A chunk starts with one die only. -/
theorem StartsWithDie.unique {chunk count otherCount rest otherRest : Text} {sign otherSign : Sign}
    {sides otherSides : SidesText} (one : StartsWithDie chunk sign count sides rest)
    (other : StartsWithDie chunk otherSign otherCount otherSides otherRest) :
    sign = otherSign ∧ count = otherCount ∧ sides = otherSides ∧ rest = otherRest := by
  -- The reader leads with either of them, and it leads with one thing.
  have led := lead_eq_die.mpr one
  rw [lead_eq_die.mpr other, Lead.die.injEq] at led
  obtain ⟨rfl, rfl, rfl, rfl⟩ := led
  exact ⟨rfl, rfl, rfl, rfl⟩

/-- A chunk that starts with no die starts with one number only. -/
theorem StartsWithNumber.unique {chunk digits otherDigits rest otherRest : Text}
    {sign otherSign : Sign} (noDie : ¬HasDie chunk)
    (one : StartsWithNumber chunk sign digits rest)
    (other : StartsWithNumber chunk otherSign otherDigits otherRest) :
    sign = otherSign ∧ digits = otherDigits ∧ rest = otherRest := by
  have led := lead_eq_number.mpr ⟨noDie, one⟩
  rw [lead_eq_number.mpr ⟨noDie, other⟩, Lead.number.injEq] at led
  obtain ⟨rfl, rfl, rfl⟩ := led
  exact ⟨rfl, rfl, rfl⟩

/-- A chunk leads with neither exactly when it starts with no die and no number. -/
theorem lead_eq_neither {chunk : Text} :
    lead chunk = .neither ↔ ¬HasDie chunk ∧ ¬HasNumber chunk := by
  constructor
  · intro led
    have noDie : ¬HasDie chunk := by
      rintro ⟨_, _, _, _, starts⟩
      rw [lead_eq_die.mpr starts] at led
      simp at led
    refine ⟨noDie, ?_⟩
    rintro ⟨_, _, _, starts⟩
    rw [lead_eq_number.mpr ⟨noDie, starts⟩] at led
    simp at led
  · rintro ⟨noDie, noNumber⟩
    -- The two other ways to lead are ruled out, and there is no fourth.
    cases led : lead chunk with
    | neither => rfl
    | die sign count sides rest => exact absurd ⟨_, _, _, _, lead_eq_die.mp led⟩ noDie
    | number sign digits rest => exact absurd ⟨_, _, _, (lead_eq_number.mp led).2⟩ noNumber

end DiceLab.Chunk
