import DiceLab.Proofs.Formula.Reading
import DiceLab.Proofs.Total

/-! A formula in its normal text reads back as the formula it came from. -/

namespace DiceLab

open Chunk (SignSpelled SidesSpelled DieSpelled NumberSpelled IsItem Opens)

/-- The code points of normal texts: ASCII digits, the signs, and the letters of dice. -/
def CodePoint.IsPlain (point : CodePoint) : Prop :=
  ∃ char : Char, point = .char char ∧ (char.isDigit = true ∨ char ∈ ['+', '-', 'd', 'F'])

/-- Whether a code point belongs to a normal text is seen from its character. -/
theorem CodePoint.isPlain_iff {point : CodePoint} :
    point.IsPlain ↔
      point.has (fun char => char.isDigit || ['+', '-', 'd', 'F'].contains char) = true := by
  cases point with
  | char value => simp [IsPlain, has]
  | surrogate number => simp [IsPlain, has]

instance (point : CodePoint) : Decidable point.IsPlain :=
  decidable_of_iff _ CodePoint.isPlain_iff.symm

/-- No code point of a normal text is blank. -/
theorem CodePoint.IsPlain.not_blank {point : CodePoint} (plain : point.IsPlain) :
    point.has Text.isBlank = false := by
  obtain ⟨char, rfl, digit | listed⟩ := plain
  · -- The digits lie between the blanks below them and the first one above ASCII.
    have bounds := Decimal.ascii_bounds digit
    simp only [has, Text.isBlank, Bool.or_eq_false_iff, Bool.and_eq_false_iff, beq_eq_false_iff_ne,
      decide_eq_false_iff_not]
    omega
  · -- None of the four others is a blank.
    simp only [List.mem_cons, List.not_mem_nil, or_false] at listed
    rcases listed with rfl | rfl | rfl | rfl
    all_goals decide

/-- Squeezing leaves a text without blanks as it is. -/
theorem Text.squeeze_of_plain {text : Text} (plain : ∀ point ∈ text, point.IsPlain) :
    text.squeeze = text := by
  -- Only blanks are left out, and there are none.
  refine List.filter_eq_self.mpr fun point member => ?_
  simp [(plain point member).not_blank]

/-- Numbers are written plainly. -/
theorem Decimal.naturalText_plain (value : Nat) : ∀ point ∈ naturalText value, point.IsPlain := by
  intro point member
  obtain ⟨char, written, rfl⟩ := List.mem_map.mp member
  exact ⟨char, rfl, .inl (Nat.isDigit_of_mem_toDigits (by decide) (by decide) written)⟩

namespace Face

/-- The sides of a face as they are written behind the letter of a die. -/
def spelledSides : Face → SidesText
  | .fudge => .fudge
  | .numeric sides _ => .digits (Decimal.naturalText sides)

/-- The sides of a face are spelled by their text. -/
theorem sidesSpelled (face : Face) : SidesSpelled face.spelledSides face.sidesText := by
  cases face with
  | fudge => exact .capital
  | numeric sides positive =>
    exact .digits (Decimal.naturalText_ne_nil sides) (Decimal.digits_naturalText sides)

/-- The sides of a face are written plainly. -/
theorem sidesText_plain (face : Face) : ∀ point ∈ face.sidesText, point.IsPlain := by
  cases face with
  | fudge =>
    intro point member
    simp only [sidesText, List.mem_singleton] at member
    exact ⟨_, member, .inr (by simp [fudgeLetter])⟩
  | numeric sides _ => exact Decimal.naturalText_plain sides

/-- The written sides of a face read back as the face. -/
theorem readSides_spelledSides {face : Face} (writable : face.Writable) :
    Chunk.readSides face.spelledSides = .ok (some face) := by
  cases face with
  | fudge => rfl
  | numeric sides positive =>
    simp only [Chunk.readSides, spelledSides, Decimal.readDigits_naturalText writable]
    simp [Bind.bind, Except.bind, pure, Except.pure, ofSides?, positive]

end Face

namespace Sign

/-- A sign as it is written, where a plus is left out at the start. -/
def written (leading : Bool) : Sign → Text
  | .minus => [.char '-']
  | .plus => if leading then [] else [.char '+']

/-- A sign is spelled as it is written. -/
theorem signSpelled (leading : Bool) (sign : Sign) : SignSpelled sign (sign.written leading) := by
  cases sign with
  -- Only a plus may be left out, and only in front.
  | minus => exact .minus
  | plus =>
    cases leading with
    | true => exact .absent
    | false => exact .plus

/-- Signs are written plainly. -/
theorem written_plain (leading : Bool) (sign : Sign) :
    ∀ point ∈ sign.written leading, point.IsPlain := by
  intro point member
  cases sign with
  | minus =>
    simp only [written, List.mem_singleton] at member
    exact ⟨_, member, .inr (by simp)⟩
  | plus =>
    cases leading with
    | true => simp [written] at member
    | false =>
      simp only [written, Bool.false_eq_true, if_false, List.mem_singleton] at member
      exact ⟨_, member, .inr (by simp)⟩

/-- A sign that is not left out opens a chunk. -/
theorem opens_written (sign : Sign) (text : Text) : Opens (sign.written false ++ text) := by
  intro point first
  -- Behind the leading part every sign is written, and a sign starts a new chunk.
  cases sign with
  | minus =>
    obtain rfl : .char '-' = point := Option.some.inj first
    rfl
  | plus =>
    obtain rfl : .char '+' = point := Option.some.inj first
    rfl

/-- The sign of a whole number. -/
def ofWhole (value : Int) : Sign := if value < 0 then .minus else .plus

/-- A whole number is its sign times its size. -/
theorem factor_ofWhole (value : Int) : (ofWhole value).factor * value.natAbs = value := by
  -- Only a negative number changes its sign when it is written.
  rw [ofWhole]
  split
  · simp only [factor]
    omega
  · simp only [factor]
    omega

end Sign

namespace Term

/-- A term is written as its sign and its dice. -/
theorem plainText_eq (leading : Bool) (term : Term) :
    term.plainText leading = term.sign.written leading ++ term.body := by
  obtain ⟨sign, count, face, positive⟩ := term
  cases sign with
  | minus => rfl
  | plus =>
    cases leading with
    | true => rfl
    | false => rfl

/-- A written term spells a die. -/
theorem dieSpelled (leading : Bool) (term : Term) :
    DieSpelled term.sign (Decimal.naturalText term.count) term.face.spelledSides
      (term.plainText leading) := by
  rw [plainText_eq]
  exact .intro (term.sign.signSpelled leading) (Decimal.digits_naturalText term.count) (.inl rfl)
    term.face.sidesSpelled

/-- A term is written as a valid die. -/
theorem isValid (term : Term) :
    Chunk.IsValid (Decimal.naturalText term.count) term.face.spelledSides := by
  -- The count is always written out, so it stands for itself.
  have counted : Chunk.countOf (Decimal.naturalText term.count) = term.count := by
    simp [Chunk.countOf, Decimal.naturalText_ne_nil]
  cases face : term.face with
  | fudge => simp [Face.spelledSides, Chunk.IsValid, counted, term.positive]
  | numeric sides positive =>
    simp [Face.spelledSides, Chunk.IsValid, counted, term.positive, positive]

/-- A written term reads back as that term, with nothing behind it. -/
theorem read_plainText (leading : Bool) {term : Term} (writable : term.Writable) :
    Chunk.read (term.plainText leading) = .ok (.term term, []) := by
  have led : Chunk.lead (term.plainText leading) =
      .die term.sign (Decimal.naturalText term.count) term.face.spelledSides [] :=
    Chunk.lead_eq_die.mpr ⟨_, term.dieSpelled leading, (List.append_nil _).symm,
      .inr Decimal.ends_nil⟩
  have counted : Chunk.readCount (Decimal.naturalText term.count) = .ok term.count := by
    simp [Chunk.readCount, Decimal.naturalText_ne_nil, Decimal.readDigits_naturalText writable.1]
  -- Both numbers are read, and they make the very term that was written.
  simp only [Chunk.read, led, counted, Face.readSides_spelledSides writable.2, Bind.bind,
    Except.bind, Chunk.termOf, term.positive, dite_true]
  rfl

/-- A term as a piece of a text. -/
def piece (leading : Bool) (term : Term) : Piece := ⟨term.plainText leading, .term term, []⟩

/-- A term is written plainly. -/
theorem plainText_plain (leading : Bool) (term : Term) :
    ∀ point ∈ term.plainText leading, point.IsPlain := by
  intro point member
  -- A code point belongs to the sign, the count, the letter or the sides.
  simp only [plainText_eq, body, Face.tagText, List.mem_append, List.mem_cons] at member
  rcases member with sign | count | rfl | sides
  · exact term.sign.written_plain leading point sign
  · exact Decimal.naturalText_plain _ point count
  · exact ⟨_, rfl, .inr (by simp)⟩
  · exact term.face.sidesText_plain point sides

end Term

/-- A whole number behind the sign that it is written with. -/
def Decimal.signedText (leading : Bool) (value : Int) : Text :=
  (Sign.ofWhole value).written leading ++ naturalText value.natAbs

namespace Decimal

/-- A whole number on its own is written behind its sign, a plus being left out. -/
theorem wholeText_eq (value : Int) : wholeText value = signedText true value := by
  simp only [wholeText, signedText, Sign.ofWhole]
  split
  · rfl
  · rfl

/-- A written number spells a number. -/
theorem numberSpelled (leading : Bool) (value : Int) :
    NumberSpelled (.ofWhole value) (naturalText value.natAbs) (signedText leading value) :=
  .intro ((Sign.ofWhole value).signSpelled leading) (naturalText_ne_nil _) (digits_naturalText _)

/-- A written number reads back as that number, with nothing behind it. -/
theorem read_signedText (leading : Bool) {value : Int} (writable : Writable value) :
    Chunk.read (signedText leading value) = .ok (.flat value, []) := by
  -- A number that takes up its chunk leads with itself, since no die is spelled in it.
  have spelled := numberSpelled leading value
  have led : Chunk.lead (signedText leading value) =
      .number (.ofWhole value) (naturalText value.natAbs) [] :=
    Chunk.lead_eq_number.mpr ⟨spelled.noDie, _, spelled, (List.append_nil _).symm, ends_nil⟩
  have digits := readDigits_naturalText (writable_natAbs.mpr writable)
  simp only [Chunk.read, led, digits, Bind.bind, Except.bind, Sign.factor_ofWhole]
  rfl

/-- A whole number as a piece of a text. -/
def piece (leading : Bool) (value : Int) : Piece := ⟨signedText leading value, .flat value, []⟩

/-- A number is written plainly behind its sign. -/
theorem signedText_plain (leading : Bool) (value : Int) :
    ∀ point ∈ signedText leading value, point.IsPlain := by
  intro point member
  simp only [signedText, List.mem_append] at member
  rcases member with sign | digit
  · exact (Sign.ofWhole value).written_plain leading point sign
  · exact naturalText_plain _ point digit

end Decimal

namespace Formula

/-- A modifier behind dice is written behind its sign, unless it is zero. -/
theorem modifierText_eq (modifier : Int) :
    modifierText modifier = if modifier = 0 then [] else Decimal.signedText false modifier := by
  simp only [modifierText, Decimal.signedText, Sign.ofWhole, Decimal.wholeText]
  -- Zero is not written at all; any other modifier has its sign in front.
  split
  · rfl
  · split
    · rfl
    · rfl

/-- The pieces behind the first term of a normal text. -/
def laterPieces (terms : List Term) (modifier : Int) : List Piece :=
  terms.map (Term.piece false) ++ if modifier = 0 then [] else [Decimal.piece false modifier]

/-- The pieces that the normal text of a formula is made of. -/
def pieces (formula : Formula) : List Piece :=
  match formula.terms with
  | [] => [Decimal.piece true formula.modifier]
  | first :: rest => first.piece true :: laterPieces rest formula.modifier

/-- A later piece is a term or the modifier, behind a sign that is not left out. -/
theorem mem_laterPieces {terms : List Term} {modifier : Int} {piece : Piece}
    (member : piece ∈ laterPieces terms modifier) :
    (∃ term ∈ terms, piece = term.piece false) ∨ piece = Decimal.piece false modifier := by
  simp only [laterPieces, List.mem_append, List.mem_map] at member
  rcases member with ⟨term, inside, rfl⟩ | last
  · exact .inl ⟨term, inside, rfl⟩
  · -- A modifier of zero has no piece.
    split at last
    · simp at last
    · exact .inr (List.mem_singleton.mp last)

/-- A piece is one of the terms or the modifier. -/
theorem mem_pieces {formula : Formula} {piece : Piece} (member : piece ∈ formula.pieces) :
    ∃ leading, (∃ term ∈ formula.terms, piece = term.piece leading) ∨
      piece = Decimal.piece leading formula.modifier := by
  -- What stands in front is written without a plus: the first term, or the modifier where there is
  -- none.
  obtain ⟨terms, modifier⟩ := formula
  cases terms with
  | nil => exact ⟨true, .inr (List.mem_singleton.mp member)⟩
  | cons first rest =>
    rcases List.mem_cons.mp member with rfl | later
    · exact ⟨true, .inl ⟨first, by simp, rfl⟩⟩
    · rcases mem_laterPieces later with ⟨term, inside, rfl⟩ | rfl
      · exact ⟨false, .inl ⟨term, by simp [inside], rfl⟩⟩
      · exact ⟨false, .inr rfl⟩

/-- The chunks of the pieces are the normal text. -/
theorem pieces_joined (formula : Formula) :
    (formula.pieces.map Piece.chunk).flatten = formula.plainText := by
  obtain ⟨terms, modifier⟩ := formula
  cases terms with
  | nil => simp [pieces, plainText, Decimal.wholeText_eq, Decimal.piece]
  | cons first rest =>
    -- A modifier of zero has neither a piece nor a text.
    simp only [pieces, laterPieces, plainText, modifierText_eq]
    split
    · simp [List.flatMap_def, Function.comp_def, Term.piece]
    · simp [List.flatMap_def, Function.comp_def, Term.piece, Decimal.piece]

/-- Every piece of a normal text reads back as itself when the formula can be written. -/
theorem pieces_isRead {formula : Formula} (writable : formula.Writable) :
    ∀ piece ∈ formula.pieces, piece.IsRead := by
  intro piece member
  obtain ⟨leading, ⟨term, inside, rfl⟩ | rfl⟩ := mem_pieces member
  · exact term.read_plainText leading (writable.1 term inside)
  · exact Decimal.read_signedText leading writable.2

/-- Every piece of a normal text is an item. -/
theorem pieces_isItem (formula : Formula) : ∀ piece ∈ formula.pieces, IsItem piece.chunk := by
  intro piece member
  obtain ⟨leading, ⟨term, -, rfl⟩ | rfl⟩ := mem_pieces member
  · exact .inl ⟨_, _, _, term.dieSpelled leading, term.isValid⟩
  · exact .inr ⟨_, _, Decimal.numberSpelled leading formula.modifier⟩

/-- Every piece of a normal text but the first starts with a sign. -/
theorem pieces_opens (formula : Formula) : ∀ piece ∈ formula.pieces.tail, Opens piece.chunk := by
  obtain ⟨terms, modifier⟩ := formula
  intro piece member
  cases terms with
  | nil => simp [pieces] at member
  | cons first rest =>
    -- Behind the first term no sign is left out, not even a plus.
    rcases mem_laterPieces member with ⟨term, -, rfl⟩ | rfl
    · simp only [Term.piece, Term.plainText_eq]
      exact term.sign.opens_written term.body
    · exact (Sign.ofWhole modifier).opens_written _

/-- The normal text of a formula is cut into its pieces. -/
theorem cut_plainText (formula : Formula) :
    formula.pieces.map Piece.chunk = Chunk.cut formula.plainText := by
  -- A text has one division before its signs, so it is enough that the pieces are one.
  refine Chunk.IsCut.eq_cut
    ⟨formula.pieces_joined, fun chunk member => ?_, fun chunk member => ?_⟩
  · obtain ⟨piece, inside, rfl⟩ := List.mem_map.mp member
    exact (formula.pieces_isItem piece inside).isChunk
  · rw [← List.map_tail] at member
    obtain ⟨piece, inside, rfl⟩ := List.mem_map.mp member
    exact formula.pieces_opens piece inside

/-- The terms of the pieces are those of the formula, in their order. -/
theorem pieces_terms (formula : Formula) :
    formula.pieces.filterMap Piece.term? = formula.terms := by
  obtain ⟨terms, modifier⟩ := formula
  cases terms with
  | nil => rfl
  | cons first rest =>
    -- The modifier is no term, whether it is written or not.
    have later : (laterPieces rest modifier).filterMap Piece.term? = rest := by
      simp only [laterPieces, List.filterMap_append, List.filterMap_map]
      split
      · simp [Function.comp_def, Term.piece, Piece.term?]
      · simp [Function.comp_def, Term.piece, Decimal.piece, Piece.term?]
    simp [pieces, later, Term.piece, Piece.term?]

/-- The numbers of the pieces add up to the modifier. -/
theorem pieces_total (formula : Formula) :
    wholeTotal (formula.pieces.map Piece.flat) = formula.modifier := by
  obtain ⟨terms, modifier⟩ := formula
  cases terms with
  | nil => simp [pieces, Decimal.piece, Piece.flat]
  | cons first rest =>
    -- Terms add nothing, and a modifier that is not written is zero.
    have nothing : wholeTotal ((rest.map (Term.piece false)).map Piece.flat) = 0 :=
      wholeTotal_of_zero (by simp [Term.piece, Piece.flat])
    simp only [pieces, laterPieces, List.map_cons, List.map_append, wholeTotal_cons,
      wholeTotal_append, nothing]
    split
    · rename_i zero
      simp [zero, Term.piece, Piece.flat]
    · simp [Term.piece, Decimal.piece, Piece.flat]

/-- The pieces of a normal text make the formula, and leave nothing out. -/
theorem ofPieces_pieces (formula : Formula) :
    Reading.ofPieces formula.pieces = ⟨formula, []⟩ := by
  -- Terms and modifier are both written so that nothing is left behind them.
  have ignored : (formula.pieces.filter fun piece => !piece.isWhole) = [] := by
    refine List.filter_eq_nil_iff.mpr fun piece member => ?_
    obtain ⟨leading, ⟨term, -, rfl⟩ | rfl⟩ := mem_pieces member
    · simp [Term.piece, Piece.isWhole]
    · simp [Decimal.piece, Piece.isWhole]
  simp only [Reading.ofPieces, ignored, formula.pieces_terms, formula.pieces_total, List.map_nil]

/-- A normal text is written plainly. -/
theorem plainText_plain (formula : Formula) : ∀ point ∈ formula.plainText, point.IsPlain := by
  intro point member
  -- Every code point of the text is one of some piece.
  rw [← pieces_joined, List.mem_flatten] at member
  obtain ⟨chunk, inside, held⟩ := member
  obtain ⟨piece, isPiece, rfl⟩ := List.mem_map.mp inside
  obtain ⟨leading, ⟨term, -, rfl⟩ | rfl⟩ := mem_pieces isPiece
  · exact term.plainText_plain leading point held
  · exact Decimal.signedText_plain leading formula.modifier point held

end Formula

namespace Reading

/-- A formula that can be written is read back from its normal text, without a warning. -/
theorem ofText_plainText {formula : Formula} (writable : formula.Writable) :
    (ofText formula.plainText).result = .ok ⟨formula, []⟩ ∧
      Notice.warnings (ofText formula.plainText).notices = [] := by
  -- There is no blank to take out, so the chunks of the text are those of the pieces.
  have squeezed := Text.squeeze_of_plain formula.plainText_plain
  have held : formula.pieces.map Piece.chunk = Chunk.cut formula.plainText.squeeze := by
    rw [squeezed]
    exact formula.cut_plainText
  have made := formula.ofPieces_pieces
  have piecesRead := Formula.pieces_isRead writable
  have written : (ofPieces formula.pieces).formula.Writable := by rwa [made]
  refine ⟨ofText_eq_ok.mpr ⟨_, held, piecesRead, written, made.symm⟩, ?_⟩
  -- Only chunks that are ignored are warned about.
  have ignored : (ofPieces formula.pieces).ignored = [] := by rw [made]
  simp only [ofPieces, List.map_eq_nil_iff] at ignored
  rw [ofText_warnings held piecesRead written, ignored]
  rfl

/-- Formulas that can be written have one normal text each. -/
theorem plainText_inj {first second : Formula} (firstWritable : first.Writable)
    (secondWritable : second.Writable) :
    first.plainText = second.plainText ↔ first = second := by
  refine ⟨fun same => ?_, fun same => same ▸ rfl⟩
  -- One text reads back as one formula, and it is both of them.
  have readFirst := (ofText_plainText firstWritable).1
  rw [same, (ofText_plainText secondWritable).1] at readFirst
  cases readFirst
  rfl

/--
A formula whose numbers can be written reads back from its normal text, and from no other's.

The chunks that were ignored when the formula was read leave no trace in the text.
-/
theorem roundTrip_text (reading : Reading) (writable : reading.formula.Writable) :
    ∃ text, reading.formula.text = .ok text ∧
      (ofText text).result = .ok ⟨reading.formula, []⟩ ∧
      Notice.warnings (ofText text).notices = [] ∧
      ∀ other : Reading, other.formula.Writable →
        (other.formula.text = .ok text ↔
          other.formula.terms = reading.formula.terms ∧
            other.formula.modifier = reading.formula.modifier) := by
  obtain ⟨readBack, silent⟩ := ofText_plainText writable
  refine ⟨reading.formula.plainText, Formula.text_eq_ok.mpr ⟨writable, rfl⟩, readBack, silent, ?_⟩
  intro other otherWritable
  have written : other.formula.text = .ok other.formula.plainText :=
    Formula.text_eq_ok.mpr ⟨otherWritable, rfl⟩
  -- Two readings have one text exactly when they have one formula.
  rw [written, Except.ok.injEq, plainText_inj otherWritable writable]
  obtain ⟨⟨terms, modifier⟩, _⟩ := other
  obtain ⟨⟨otherTerms, otherModifier⟩, _⟩ := reading
  simp

/-- A formula that starts with a minus and comes with an ignored chunk reads back. -/
theorem roundTrip_text_mixed :
    let mixed : Reading :=
      ⟨⟨[⟨.minus, 1, .fudge, by decide⟩, ⟨.plus, 2, .numeric 6 (by decide), by decide⟩], -3⟩, ["x"]⟩
    mixed.formula.Writable ∧
      ∃ text, mixed.formula.text = .ok text ∧ (ofText text).result = .ok ⟨mixed.formula, []⟩ ∧
        Notice.warnings (ofText text).notices = [] ∧
        ∀ other : Reading, other.formula.Writable →
          (other.formula.text = .ok text ↔
            other.formula.terms = mixed.formula.terms ∧
              other.formula.modifier = mixed.formula.modifier) :=
  have writable : Formula.Writable
      ⟨[⟨.minus, 1, .fudge, by decide⟩, ⟨.plus, 2, .numeric 6 (by decide), by decide⟩], -3⟩ := by
    decide +kernel
  ⟨writable, roundTrip_text _ writable⟩

end Reading

end DiceLab
