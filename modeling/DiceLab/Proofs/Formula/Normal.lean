import DiceLab.Proofs.Decimal.Runs
import DiceLab.Proofs.Formula.RoundTrip
import Mathlib.Data.List.Induction

/-! The grammar of normal texts, and normalizing as the way to the one normal text of a formula. -/

namespace DiceLab

/-- The spellings of a positive number: ASCII digits, the first of which is not zero. -/
inductive NormalText.Positive : Text → Prop where
  | intro {first : Char} {rest : List Char} (digit : first.isDigit = true) (nonzero : first ≠ '0')
      (digits : ∀ char ∈ rest, char.isDigit = true) : Positive (.char first :: rest.map .char)

namespace NormalText

/-- A sign and what stands behind it; a plus is left out at the start of a text and nowhere else. -/
inductive Signed (Spelled : Text → Prop) : (leading : Bool) → Text → Prop where
  | omitted {text : Text} (spelled : Spelled text) : Signed Spelled true text
  | plus {text : Text} (spelled : Spelled text) : Signed Spelled false (.char '+' :: text)
  | minus {leading : Bool} {text : Text} (spelled : Spelled text) :
      Signed Spelled leading (.char '-' :: text)

/-- The spellings of dice: how many there are, the letter of a die, and its sides or the letter of
the Fudge die. -/
inductive Dice : Text → Prop where
  | numeric {count sides : Text} (counted : Positive count) (sided : Positive sides) :
      Dice (count ++ .char 'd' :: sides)
  | fudge {count : Text} (counted : Positive count) : Dice (count ++ [.char 'd', .char 'F'])

/-- What stands behind the first dice: more of them, then one number at most, which is not zero. -/
inductive Later : Text → Prop where
  | nothing : Later []
  | modifier {number : Text} (signed : Signed Positive false number) : Later number
  | dice {dice rest : Text} (signed : Signed Dice false dice) (later : Later rest) : Later (dice ++ rest)

end NormalText

/-- The normal texts: zero, another whole number, or dice with what stands behind them. -/
inductive NormalText : Text → Prop where
  | zero : NormalText [.char '0']
  | number {text : Text} (leads : NormalText.Signed NormalText.Positive true text) : NormalText text
  | dice {first rest : Text} (leads : NormalText.Signed NormalText.Dice true first)
      (later : NormalText.Later rest) : NormalText (first ++ rest)

namespace NormalText

/-- An ASCII digit is written for the value by which it stands behind the digit zero. -/
theorem digitChar_of_isDigit {char : Char} (digit : char.isDigit = true) :
    char.toNat - 48 < 10 ∧ Nat.digitChar (char.toNat - 48) = char := by
  have bounds := Decimal.ascii_bounds digit
  have small : char.toNat - 48 < 10 := by omega
  -- The ten digits follow each other from the code of zero on.
  have written : ∀ value < 10, Nat.digitChar value = Char.ofNat (48 + value) := by decide
  refine ⟨small, ?_⟩
  rw [written _ small, show 48 + (char.toNat - 48) = char.toNat by omega, Char.ofNat_toNat]

/-- A positive number goes on with any digit. -/
theorem Positive.append_digit {numeral : Text} (spelled : Positive numeral) {char : Char}
    (digit : char.isDigit = true) : Positive (numeral ++ [.char char]) := by
  cases spelled with
  | @intro first rest leads nonzero digits =>
    have follow : ∀ other ∈ rest ++ [char], other.isDigit = true :=
      List.forall_mem_append.mpr ⟨digits, List.forall_mem_singleton.mpr digit⟩
    have spelled := Positive.intro leads nonzero follow
    rwa [List.map_append] at spelled

/-- A number is written with its last digit behind the other ones. -/
theorem naturalText_snoc {value digit : Nat} (positive : 0 < value) (small : digit < 10) :
    Decimal.naturalText (10 * value + digit) =
      Decimal.naturalText value ++ [.char digit.digitChar] := by
  rw [Decimal.naturalText, ← Nat.toDigits_append_toDigits (by decide) positive small,
    Nat.toDigits_of_lt_base small, List.map_append]
  rfl

/-- The positive numbers are spelled as they are written. -/
theorem positive_iff {numeral : Text} :
    Positive numeral ↔ ∃ value, 0 < value ∧ numeral = Decimal.naturalText value := by
  constructor
  · rintro ⟨leads, nonzero, digits⟩
    rename_i first rest
    -- The number grows digit by digit from the left, so the induction goes from the right.
    induction rest using List.reverseRecOn with
    | nil =>
      obtain ⟨small, written⟩ := digitChar_of_isDigit leads
      refine ⟨first.toNat - 48, ?_, ?_⟩
      · -- Only the digit zero has the value zero.
        refine Nat.pos_of_ne_zero fun zero => nonzero ?_
        rw [← written, zero]
        rfl
      · rw [Decimal.naturalText, Nat.toDigits_of_lt_base small, written]
        rfl
    | append_singleton rest last ih =>
      obtain ⟨others, lastDigit⟩ := List.forall_mem_append.mp digits
      obtain ⟨value, positive, same⟩ := ih others
      obtain ⟨small, written⟩ := digitChar_of_isDigit (lastDigit last (List.mem_singleton_self _))
      refine ⟨10 * value + (last.toNat - 48), by omega, ?_⟩
      rw [naturalText_snoc positive small, written, ← same, List.map_append]
      rfl
  · rintro ⟨value, positive, rfl⟩
    -- All but the last digit write the tenth part of the number.
    induction value using Nat.strongRecOn with
    | ind value ih =>
      have last : value % 10 < 10 := Nat.mod_lt _ (by decide)
      have digit : (value % 10).digitChar.isDigit = true := by
        have all : ∀ digit < 10, digit.digitChar.isDigit = true := by decide
        exact all _ last
      by_cases small : value < 10
      · have all : ∀ digit < 10, 0 < digit → digit.digitChar.isDigit = true ∧ digit.digitChar ≠ '0' := by
          decide
        obtain ⟨leads, nonzero⟩ := all value small positive
        rw [Decimal.naturalText, Nat.toDigits_of_lt_base small]
        exact .intro leads nonzero (by simp)
      · have spelled := ih (value / 10) (by omega) (by omega)
        have joined : 10 * (value / 10) + value % 10 = value := Nat.div_add_mod value 10
        rw [← joined, naturalText_snoc (by omega) last]
        exact spelled.append_digit digit

variable {Spelled : Text → Prop} {leading : Bool} {text : Text}

/-- What has a sign is written behind it. -/
theorem signed_iff :
    Signed Spelled leading text ↔
      ∃ (sign : Sign) (body : Text), Spelled body ∧ text = sign.written leading ++ body := by
  constructor
  · rintro (spelled | spelled | spelled)
    · exact ⟨.plus, _, spelled, rfl⟩
    · exact ⟨.plus, _, spelled, rfl⟩
    · exact ⟨.minus, _, spelled, rfl⟩
  · rintro ⟨sign, body, spelled, rfl⟩
    -- Only the plus can be left out, and only by the leading part.
    cases sign with
    | minus => exact .minus spelled
    | plus =>
      cases leading with
      | true => exact .omitted spelled
      | false => exact .plus spelled

/-- A sign and a positive number are a whole number that is not zero. -/
theorem signed_positive_iff :
    Signed Positive leading text ↔
      ∃ value : Int, value ≠ 0 ∧ text = Decimal.signedText leading value := by
  rw [signed_iff]
  constructor
  · rintro ⟨sign, body, spelled, rfl⟩
    -- The sign of the value is the one that is written, because the size is not zero.
    obtain ⟨number, positive, rfl⟩ := positive_iff.mp spelled
    cases sign with
    | plus =>
      have plus : Sign.ofWhole number = .plus := if_neg (by omega)
      exact ⟨number, by omega, by rw [Decimal.signedText, plus, Int.natAbs_natCast]⟩
    | minus =>
      have minus : Sign.ofWhole (-number) = .minus := if_pos (by omega)
      refine ⟨-number, by omega, ?_⟩
      rw [Decimal.signedText, minus, Int.natAbs_neg, Int.natAbs_natCast]
  · rintro ⟨value, nonzero, rfl⟩
    exact ⟨.ofWhole value, _, positive_iff.mpr ⟨_, Int.natAbs_pos.mpr nonzero, rfl⟩, rfl⟩

/-- Dice are spelled as those of a term with any sign are written. -/
theorem dice_iff (sign : Sign) : Dice text ↔ ∃ term : Term, term.sign = sign ∧ text = term.body := by
  constructor
  · rintro (⟨counted, sided⟩ | counted)
    · obtain ⟨count, some, rfl⟩ := positive_iff.mp counted
      obtain ⟨sides, positive, rfl⟩ := positive_iff.mp sided
      exact ⟨⟨sign, count, .numeric sides positive, some⟩, rfl, rfl⟩
    · obtain ⟨count, some, rfl⟩ := positive_iff.mp counted
      exact ⟨⟨sign, count, .fudge, some⟩, rfl, rfl⟩
  · rintro ⟨⟨_, count, face, some⟩, rfl, rfl⟩
    have counted : Positive (Decimal.naturalText count) := positive_iff.mpr ⟨count, some, rfl⟩
    -- Counts and sides are positive numbers, which are spelled without zeros in front.
    cases face with
    | fudge => exact .fudge counted
    | numeric sides positive => exact .numeric counted (positive_iff.mpr ⟨sides, positive, rfl⟩)

/-- A sign and dice are a term. -/
theorem signed_dice_iff :
    Signed Dice leading text ↔ ∃ term : Term, text = term.plainText leading := by
  rw [signed_iff]
  constructor
  · rintro ⟨sign, body, spelled, rfl⟩
    -- The sign is a part of the term, so it is fixed before the body is read.
    obtain ⟨term, rfl, rfl⟩ := (dice_iff sign).mp spelled
    exact ⟨term, (term.plainText_eq leading).symm⟩
  · rintro ⟨term, rfl⟩
    exact ⟨term.sign, term.body, (dice_iff term.sign).mpr ⟨term, rfl, rfl⟩, term.plainText_eq leading⟩

/-- What stands behind the first dice is written for more terms and a modifier. -/
theorem later_iff :
    Later text ↔ ∃ (terms : List Term) (modifier : Int),
      text = terms.flatMap (Term.plainText false) ++ Formula.modifierText modifier := by
  constructor
  · -- Nothing is written for the modifier zero, so every ending has a modifier.
    intro later
    induction later with
    | nothing => exact ⟨[], 0, rfl⟩
    | modifier signed =>
      obtain ⟨value, nonzero, rfl⟩ := signed_positive_iff.mp signed
      exact ⟨[], value, by rw [Formula.modifierText_eq, if_neg nonzero]; rfl⟩
    | dice signed _ ih =>
      obtain ⟨term, rfl⟩ := signed_dice_iff.mp signed
      obtain ⟨terms, modifier, rfl⟩ := ih
      exact ⟨term :: terms, modifier, by rw [List.flatMap_cons, List.append_assoc]⟩
  · rintro ⟨terms, modifier, rfl⟩
    induction terms with
    | nil =>
      rw [List.flatMap_nil, List.nil_append, Formula.modifierText_eq]
      split
      · exact .nothing
      · rename_i nonzero
        exact .modifier (signed_positive_iff.mpr ⟨modifier, nonzero, rfl⟩)
    | cons term terms ih =>
      rw [List.flatMap_cons, List.append_assoc]
      exact .dice (signed_dice_iff.mpr ⟨term, rfl⟩) ih

end NormalText

namespace Formula

/-- Without dice the modifier is written on its own. -/
theorem plainText_nil (modifier : Int) :
    plainText ⟨[], modifier⟩ = Decimal.wholeText modifier := rfl

/-- With dice the modifier is written behind them. -/
theorem plainText_cons (first : Term) (rest : List Term) (modifier : Int) :
    plainText ⟨first :: rest, modifier⟩ =
      first.plainText true ++ rest.flatMap (Term.plainText false) ++ modifierText modifier := rfl

end Formula

/-- The normal texts are those that formulas are written in. -/
theorem normalText_iff {text : Text} :
    NormalText text ↔ ∃ formula : Formula, text = formula.plainText := by
  constructor
  · rintro (_ | leads | ⟨leads, later⟩)
    · exact ⟨⟨[], 0⟩, rfl⟩
    · -- Without dice the text is the modifier alone.
      obtain ⟨value, -, rfl⟩ := NormalText.signed_positive_iff.mp leads
      exact ⟨⟨[], value⟩, (Decimal.wholeText_eq value).symm⟩
    · obtain ⟨term, rfl⟩ := NormalText.signed_dice_iff.mp leads
      obtain ⟨terms, modifier, rfl⟩ := NormalText.later_iff.mp later
      exact ⟨⟨term :: terms, modifier⟩, (List.append_assoc _ _ _).symm⟩
  · rintro ⟨⟨terms, modifier⟩, rfl⟩
    cases terms with
    | nil =>
      -- A formula without dice writes its modifier, even where that is zero.
      by_cases zero : modifier = 0
      · subst zero
        exact .zero
      · rw [Formula.plainText_nil, Decimal.wholeText_eq]
        exact .number (NormalText.signed_positive_iff.mpr ⟨modifier, zero, rfl⟩)
    | cons first rest =>
      rw [Formula.plainText_cons, List.append_assoc]
      exact .dice (NormalText.signed_dice_iff.mpr ⟨first, rfl⟩)
        (NormalText.later_iff.mpr ⟨rest, modifier, rfl⟩)

namespace Decimal

/-- The sign that a text starts with holds no digit. -/
theorem shortRuns_written (sign : Sign) (text : Text) :
    ShortRuns (sign.written true ++ text) ↔ ShortRuns text := by
  cases sign with
  | plus =>
    -- A plus in front is not written.
    exact Iff.rfl
  | minus => exact (shortRuns_append_cons [] text (by decide)).trans (and_iff_right shortRuns_nil)

/-- A sign that is not left out parts the runs in front of it from those behind it. -/
theorem shortRuns_append_written (front : Text) (sign : Sign) (text : Text) :
    ShortRuns (front ++ (sign.written false ++ text)) ↔ ShortRuns front ∧ ShortRuns text := by
  cases sign with
  | plus => exact shortRuns_append_cons front text (by decide)
  | minus => exact shortRuns_append_cons front text (by decide)

/-- A whole number has few enough digits to be written when the text of its size has. -/
theorem shortRuns_natAbs (value : Int) :
    ShortRuns (naturalText value.natAbs) ↔ Writable value := by
  rw [shortRuns_naturalText, writable_natAbs]

end Decimal

/-- The numbers of a term are short enough to be written when no run of digits of its text is long. -/
theorem Term.shortRuns_body (term : Term) : Decimal.ShortRuns term.body ↔ term.Writable := by
  obtain ⟨sign, count, face, some⟩ := term
  have sides : Decimal.ShortRuns face.sidesText ↔ face.Writable := by
    cases face with
    | fudge =>
      -- The letter has no digits on either side.
      exact iff_of_true ((Decimal.shortRuns_append_cons [] [] (by decide)).mpr
        ⟨Decimal.shortRuns_nil, Decimal.shortRuns_nil⟩) trivial
    | numeric sides positive => exact Decimal.shortRuns_naturalText sides
  rw [Term.Writable, ← sides, ← Decimal.shortRuns_naturalText]
  exact Decimal.shortRuns_append_cons _ _ (by decide)

namespace Formula

/-- The runs of digits behind a text are those of the terms and of the modifier. -/
theorem shortRuns_append_later (front : Text) (terms : List Term) (modifier : Int) :
    Decimal.ShortRuns (front ++ (terms.flatMap (Term.plainText false) ++ modifierText modifier)) ↔
      Decimal.ShortRuns front ∧ (∀ term ∈ terms, term.Writable) ∧ Decimal.Writable modifier := by
  -- Each term becomes a part of the text in front, which is therefore any text.
  induction terms generalizing front with
  | nil =>
    rw [List.flatMap_nil, List.nil_append, modifierText_eq]
    split
    · rename_i zero
      subst zero
      simp [Decimal.writable_zero]
    · rw [Decimal.signedText, Decimal.shortRuns_append_written, Decimal.shortRuns_natAbs]
      simp
  | cons term rest ih =>
    rw [List.flatMap_cons, List.append_assoc, ← List.append_assoc, ih, term.plainText_eq,
      Decimal.shortRuns_append_written, term.shortRuns_body, List.forall_mem_cons]
    simp only [and_assoc]

/-- A formula can be written exactly when no run of digits of its normal text is too long. -/
theorem shortRuns_plainText (formula : Formula) :
    Decimal.ShortRuns formula.plainText ↔ formula.Writable := by
  obtain ⟨terms, modifier⟩ := formula
  cases terms with
  | nil =>
    -- A sign between two numerals keeps their runs apart, so each one is bounded alone.
    rw [plainText_nil, Decimal.wholeText_eq, Decimal.signedText, Decimal.shortRuns_written,
      Decimal.shortRuns_natAbs, Writable]
    simp
  | cons first rest =>
    rw [plainText_cons, List.append_assoc, shortRuns_append_later, first.plainText_eq,
      Decimal.shortRuns_written, first.shortRuns_body, Writable, List.forall_mem_cons, and_assoc]

end Formula

/-- The code points of normal texts are ASCII characters. -/
theorem CodePoint.IsPlain.number_lt {point : CodePoint} (plain : point.IsPlain) :
    point.number < 128 := by
  obtain ⟨char, rfl, digit | listed⟩ := plain
  · have bounds := Decimal.ascii_bounds digit
    change char.toNat < 128
    omega
  · simp only [List.mem_cons, List.not_mem_nil, or_false] at listed
    -- Besides digits there are two signs and two letters.
    rcases listed with rfl | rfl | rfl | rfl
    all_goals decide

namespace Reading

variable {text normal : Text}

/-- A text is normalized to the normal text of the formula that it is read as. -/
theorem normalize_eq_ok :
    (normalize text).result = .ok normal ↔
      ∃ reading, (ofText text).result = .ok reading ∧ reading.formula.Writable ∧
        normal = reading.formula.plainText := by
  simp only [normalize, Reported.bind_result, Reported.lift_result, bind_eq_ok, Formula.text_eq_ok]

/-- A formula that can be written is normalized to its normal text. -/
theorem normalize_plainText {formula : Formula} (writable : formula.Writable) :
    (normalize formula.plainText).result = .ok formula.plainText :=
  normalize_eq_ok.mpr ⟨_, (ofText_plainText writable).1, writable, rfl⟩

/-- A text is its own normal text exactly when it is a normal text with no run of digits too long. -/
theorem normalize_eq_self :
    (normalize text).result = .ok text ↔ NormalText text ∧ Decimal.ShortRuns text := by
  constructor
  · intro ok
    -- What comes back is the plain text of a formula, and so is the text itself.
    obtain ⟨reading, -, writable, same⟩ := normalize_eq_ok.mp ok
    rw [same]
    exact ⟨normalText_iff.mpr ⟨_, rfl⟩, (Formula.shortRuns_plainText _).mpr writable⟩
  · rintro ⟨isNormal, short⟩
    obtain ⟨formula, rfl⟩ := normalText_iff.mp isNormal
    -- Plain text is read back as the formula that wrote it.
    exact normalize_plainText ((Formula.shortRuns_plainText formula).mp short)

end Reading

namespace Draft

/-- A text is normalized as it stands. -/
theorem normalize_text (text : Text) : (value (.text text)).normalize = Reading.normalize text := by
  simp only [normalize, parse, ensureText, DiceLab.ensureText, pure_bind, Reading.normalize]

/--
Normalizing gives normal texts, and gives back those that it was given.

Of the normal texts only those with a number that is too long are not given back, and no other
text ever is.
-/
theorem normalize_canonical (text : Text) :
    (∀ normal, (value (.text text)).normalize.result = .ok normal →
        NormalText normal ∧ (∀ point ∈ normal, point.number < 128) ∧
          (value (.text normal)).normalize.result = .ok normal) ∧
      ((value (.text text)).normalize.result = .ok text ↔
        NormalText text ∧ Decimal.ShortRuns text) := by
  simp only [normalize_text]
  refine ⟨?_, Reading.normalize_eq_self⟩
  intro normal ok
  obtain ⟨reading, -, writable, rfl⟩ := Reading.normalize_eq_ok.mp ok
  exact ⟨normalText_iff.mpr ⟨_, rfl⟩,
    fun point member => (reading.formula.plainText_plain point member).number_lt,
    Reading.normalize_plainText writable⟩

end Draft

end DiceLab
