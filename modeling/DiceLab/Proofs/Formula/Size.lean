import DiceLab.Proofs.Formula.Reading
import DiceLab.Proofs.Range
import DiceLab.Shape
import Mathlib.Data.List.Induction

/-! The numbers that a text can stand for stay below the power of ten of the number of its digits,
together with the letters that take their place. -/

namespace DiceLab

/-- Numbers below two powers add up to one below the product of these. -/
theorem add_lt_tenTo {first second left right : Nat} (leftBelow : left < tenTo first)
    (rightBelow : right < tenTo second) : left + right < tenTo (first + second) := by
  rw [tenTo_add]
  -- Of two positive factors, the product is no less than the sum without one.
  obtain ⟨more, leftPower⟩ := Nat.exists_eq_add_of_lt leftBelow
  obtain ⟨others, rightPower⟩ := Nat.exists_eq_add_of_lt rightBelow
  rw [leftPower, rightPower, Nat.add_one_mul, Nat.mul_add_one]
  omega

namespace Text

/-- Whether a code point is a digit, or the letter that Fudge dice have in the place of digits. -/
def isFigure (point : CodePoint) : Bool :=
  Decimal.isDigit point || point == .char 'f' || point == .char 'F'

/-- How many digits a text has, and letters in their place. -/
def figures (text : Text) : Nat := text.countP isFigure

/-- There are no more figures than code points. -/
theorem figures_le_length (text : Text) : text.figures ≤ text.length := List.countP_le_length

/-- What is left of a text has no more figures. -/
theorem figures_le {part text : Text} (inside : part.Sublist text) :
    part.figures ≤ text.figures := inside.countP_le

/-- Two texts have their figures together. -/
@[simp] theorem figures_append (first second : Text) :
    (first ++ second).figures = first.figures + second.figures := List.countP_append

/-- A run of digits has nothing but figures. -/
theorem figures_of_digits {run : Text} (digits : Decimal.Digits run) :
    run.figures = run.length := by
  apply List.countP_eq_length.mpr
  intro point member
  simp [isFigure, digits point member]

end Text

/-- A digit of any script is worth less than ten. -/
theorem Text.valueOfDigit?_lt {point : CodePoint} {digit : Nat}
    (worth : valueOfDigit? point = some digit) : digit < 10 := by
  cases point with
  | surrogate offset => cases worth
  | char value =>
    -- The digit is one of the ten behind some zero.
    obtain ⟨start, -, found⟩ := List.exists_of_findSome?_eq_some worth
    split at found
    · rename_i between
      obtain rfl := Option.some.inj found
      omega
    · cases found

/-- The last digit is added behind all the others moved up by one place. -/
theorem Decimal.valueOf_concat (digits : Text) (point : CodePoint) :
    valueOf (digits ++ [point]) =
      valueOf digits * 10 + (Text.valueOfDigit? point).getD 0 := by
  simp only [valueOf, List.foldl_append, List.foldl_cons, List.foldl_nil]

/-- A run of digits stands for a number below the power of ten of its length. -/
theorem Decimal.valueOf_lt (digits : Text) : valueOf digits < tenTo digits.length := by
  -- The last digit was added last, so the run grows at its end.
  induction digits using List.reverseRecOn with
  | nil => decide
  | append_singleton digits point ih =>
    have last : (Text.valueOfDigit? point).getD 0 < 10 := by
      cases worth : Text.valueOfDigit? point with
      | none => decide
      | some digit => exact Text.valueOfDigit?_lt worth
    have power : tenTo (digits.length + 1) = tenTo digits.length * 10 := tenTo_add _ 1
    rw [valueOf_concat, List.length_append, List.length_singleton, power]
    omega

/-- A numeric face has as many values as sides. -/
@[simp] theorem Face.count_numeric (sides : Nat) (positive : 0 < sides) :
    (Face.numeric sides positive).count = sides := by
  simp only [count, high, low]
  -- A face with two sides shows 0 and 1, and any other one counts from one.
  split
  · rename_i two
    rw [two]
    rfl
  · omega

/-- A face has at least one value. -/
theorem Face.count_pos (face : Face) : 0 < face.count := by
  have ends := face.low_le_high
  unfold count
  omega

/-- No value of a face is farther from zero than the number of its values. -/
theorem Face.natAbs_le_count (face : Face) :
    face.low.natAbs ≤ face.count ∧ face.high.natAbs ≤ face.count := by
  cases face with
  | fudge => decide
  | numeric sides positive =>
    rw [count_numeric]
    simp only [low, high]
    -- Two sides show 0 and 1, and any other number of them counts from one.
    split
    · omega
    · omega

namespace Chunk

/-- The number of values that a part adds: those of all its dice, or its flat number. -/
def Part.size : Part → Nat
  | .nothing => 0
  | .term dice => dice.count * dice.face.count
  | .flat value => value.natAbs

/-- The number of dice that a count stands for is at most the power of ten of its length. -/
theorem countOf_le (count : Text) : countOf count ≤ tenTo count.length := by
  -- A count that is left out stands for one, which is the power of its length as well.
  unfold countOf
  split
  · exact tenTo_pos _
  · exact Nat.le_of_lt (Decimal.valueOf_lt count)

/-- Sides are spelled with figures only. -/
theorem SidesSpelled.figures_eq {sides : SidesText} {text : Text}
    (spelled : SidesSpelled sides text) : text.figures = text.length := by
  cases spelled with
  | small => decide +kernel
  | capital => decide +kernel
  | digits some digits => exact Text.figures_of_digits digits

/-- A die has the figures of its count and of its sides. -/
theorem DieSpelled.le_figures {sign : Sign} {count : Text} {sides : SidesText} {die : Text}
    (spelled : DieSpelled sign count sides die) :
    ∃ sidesText, SidesSpelled sides sidesText ∧
      count.length + sidesText.length ≤ die.figures := by
  obtain @⟨signText, sidesText, letter, signed, counted, lettered, sided⟩ := spelled
  have behind : sidesText.figures ≤ Text.figures (.char letter :: sidesText) :=
    Text.figures_le (List.sublist_cons_self _ _)
  refine ⟨sidesText, sided, ?_⟩
  -- The two runs stand apart in the text, so it has the figures of both.
  rw [← Text.figures_of_digits counted, ← sided.figures_eq]
  simp only [Text.figures_append]
  omega

/-- A number has the figures of its digits. -/
theorem NumberSpelled.le_figures {sign : Sign} {digits number : Text}
    (spelled : NumberSpelled sign digits number) : digits.length ≤ number.figures := by
  obtain @⟨signText, signed, nonempty, counted⟩ := spelled
  rw [Text.figures_append, Text.figures_of_digits counted]
  omega

/-- A face has fewer values than the power of ten of the length of its spelling. -/
theorem FaceSpelled.count_lt {sides : SidesText} {text : Text} {face : Face}
    (faced : FaceSpelled sides face) (spelled : SidesSpelled sides text) :
    face.count < tenTo text.length := by
  cases faced with
  -- A Fudge face has three values, and one letter leaves room for nine.
  | fudge =>
    cases spelled with
    | small => decide
    | capital => decide
  | numeric positive =>
    cases spelled with
    | digits nonempty digits =>
      rw [Face.count_numeric]
      exact Decimal.valueOf_lt _

/-- What a chunk contributes is smaller than the power of ten of its figures. -/
theorem Contributes.size_lt {chunk rest : Text} {part : Part}
    (contributes : Contributes chunk part rest) : part.size < tenTo chunk.figures := by
  cases contributes with
  | invalid starts invalid => exact tenTo_pos _
  | neither noDie noNumber => exact tenTo_pos _
  | number noDie starts =>
    obtain ⟨number, spelled, rfl, -⟩ := starts
    rename_i sign digits
    have figures := spelled.le_figures
    -- The sign makes no difference, and the digits are only a part of the chunk.
    have size : Part.size (.flat (sign.factor * Decimal.valueOf digits)) =
        Decimal.valueOf digits := by
      cases sign with
      | plus => simp [Part.size, Sign.factor]
      | minus => simp [Part.size, Sign.factor]
    rw [size]
    apply Nat.lt_of_lt_of_le (Decimal.valueOf_lt digits)
    apply tenTo_le
    rw [Text.figures_append]
    omega
  | die starts valid denotes =>
    rename_i sign count sides term
    obtain ⟨die, spelled, rfl, -⟩ := starts
    obtain ⟨sidesText, sided, figures⟩ := spelled.le_figures
    -- The number of dice and that of values are each bounded by their own digits.
    have dice := countOf_le count
    have values := denotes.faced.count_lt sided
    rw [Part.size, denotes.counted]
    apply Nat.lt_of_lt_of_le (Nat.mul_lt_mul_of_le_of_lt dice values (tenTo_pos _))
    rw [← tenTo_add]
    apply tenTo_le
    rw [Text.figures_append]
    omega

/-- Sides that are spelled with no more digits than a number may have are read. -/
theorem SidesSpelled.exists_readSides_eq_ok {sides : SidesText} {text : Text}
    (spelled : SidesSpelled sides text) (short : text.length ≤ Decimal.digitLimit) :
    ∃ face, readSides sides = .ok face := by
  cases spelled with
  | small => exact ⟨_, rfl⟩
  | capital => exact ⟨_, rfl⟩
  | digits some digits =>
    rw [readSides, Decimal.readDigits_eq_ok.mpr ⟨short, rfl⟩]
    exact ⟨_, rfl⟩

/-- A chunk with no more digits than a number may have is read. -/
theorem exists_read_eq_ok {chunk : Text} (short : chunk.figures ≤ Decimal.digitLimit) :
    ∃ part rest, read chunk = .ok (part, rest) := by
  have digitsRead (digits : Text) (inside : digits.length ≤ chunk.figures) :
      Decimal.readDigits digits = .ok (Decimal.valueOf digits) :=
    Decimal.readDigits_eq_ok.mpr ⟨by omega, rfl⟩
  -- Only runs of digits can be too long, and all of them are parts of the chunk.
  rw [read]
  cases led : lead chunk with
  | neither => exact ⟨_, _, rfl⟩
  | number sign digits rest =>
    obtain ⟨-, number, spelled, rfl, -⟩ := lead_eq_number.mp led
    have figures := spelled.le_figures
    have value := digitsRead digits (by rw [Text.figures_append]; omega)
    simp only [value]
    exact ⟨_, _, rfl⟩
  | die sign count sides rest =>
    obtain ⟨die, spelled, rfl, -⟩ := lead_eq_die.mp led
    obtain ⟨sidesText, sided, figures⟩ := spelled.le_figures
    rw [Text.figures_append] at short digitsRead
    have countRead : ∃ dice, readCount count = .ok dice := by
      unfold readCount
      split
      · exact ⟨1, rfl⟩
      · exact ⟨_, digitsRead count (by omega)⟩
    have sidesRead : ∃ face, readSides sides = .ok face :=
      sided.exists_readSides_eq_ok (by omega)
    obtain ⟨dice, countRead⟩ := countRead
    obtain ⟨face, sidesRead⟩ := sidesRead
    simp only [countRead, sidesRead, bind, Except.bind]
    cases termOf sign dice face with
    | some term => exact ⟨_, _, rfl⟩
    | none => exact ⟨_, _, rfl⟩

end Chunk

/-- The values of the dice of a term reach no farther from zero than they are many. -/
theorem Term.natAbs_range_le (term : Term) :
    term.range.1.natAbs ≤ term.count * term.face.count ∧
      term.range.2.natAbs ≤ term.count * term.face.count := by
  obtain ⟨low, high⟩ := term.face.natAbs_le_count
  have least := Nat.mul_le_mul_left term.count low
  have most := Nat.mul_le_mul_left term.count high
  unfold range
  -- Dice that are taken away swap the two ends, which does not change how far these reach.
  cases term.sign with
  | plus => simpa only [Int.natAbs_mul, Int.natAbs_natCast] using ⟨least, most⟩
  | minus => simpa only [Int.natAbs_neg, Int.natAbs_mul, Int.natAbs_natCast] using ⟨most, least⟩

namespace Formula

/-- The size of a formula: its flat number, and the number of values of all its dice. -/
def size (formula : Formula) : Nat := formula.modifier.natAbs + Shape.faceTotal formula

variable {formula : Formula}

/-- The dice of one term have no more values than those of all terms. -/
theorem count_mul_le_size {term : Term} (member : term ∈ formula.terms) :
    term.count * term.face.count ≤ formula.size := by
  have part : term.count * term.face.count ≤ Shape.faceTotal formula :=
    le_naturalTotal (List.mem_map_of_mem member)
  exact Nat.le_trans part (Nat.le_add_left _ _)

/-- No term has more dice, and no face more values, than the formula is large. -/
theorem le_size {term : Term} (member : term ∈ formula.terms) :
    term.count ≤ formula.size ∧ term.face.count ≤ formula.size := by
  have product := count_mul_le_size member
  -- Neither the dice nor the values of a face are none, so each is at most their product.
  exact ⟨Nat.le_trans (Nat.le_mul_of_pos_right _ term.face.count_pos) product,
    Nat.le_trans (Nat.le_mul_of_pos_left _ term.positive) product⟩

/-- There are no more dice than these have values. -/
theorem diceCount_le_faceTotal (formula : Formula) :
    formula.diceCount ≤ Shape.faceTotal formula := by
  unfold diceCount Shape.faceTotal
  -- Term by term, each die has at least one value.
  apply naturalTotal_le
  intro term _
  exact Nat.le_mul_of_pos_right _ term.face.count_pos

/-- The range of a formula stays within its size on both sides of zero. -/
theorem natAbs_bounds_le (formula : Formula) :
    formula.min.natAbs ≤ formula.size ∧ formula.max.natAbs ≤ formula.size := by
  -- The range of a term stays within the number of its dice times that of their values.
  have low : (wholeTotal (formula.terms.map fun term => term.range.1)).natAbs ≤
      Shape.faceTotal formula := by
    apply natAbs_wholeTotal_le
    exact fun term _ => term.natAbs_range_le.1
  have high : (wholeTotal (formula.terms.map fun term => term.range.2)).natAbs ≤
      Shape.faceTotal formula := by
    apply natAbs_wholeTotal_le
    exact fun term _ => term.natAbs_range_le.2
  unfold min max size
  omega

/-- A formula can be written when its size can. -/
theorem writable_of_size (short : formula.size < tenTo Decimal.digitLimit) : formula.Writable := by
  constructor
  · intro term member
    -- The size counts the dice and their values, so each number in the text is below it.
    obtain ⟨dice, values⟩ := le_size member
    refine ⟨Nat.lt_of_le_of_lt dice short, ?_⟩
    cases face : term.face with
    | fudge => trivial
    | numeric sides positive =>
      rw [face, Face.count_numeric] at values
      exact Nat.lt_of_le_of_lt values short
  · exact Nat.lt_of_le_of_lt (Nat.le_add_right _ _) short

end Formula

/-- A piece adds the term that was made of its chunk, and no other one. -/
theorem Piece.term?_eq_some {piece : Piece} {term : Term} :
    piece.term? = some term ↔ piece.part = .term term := by
  obtain ⟨chunk, part, rest⟩ := piece
  cases part with
  | term given => simp [term?]
  | nothing => simp [term?]
  | flat value => simp [term?]

namespace Reading

/-- A piece makes a formula no larger than it is itself. -/
theorem size_ofPieces_cons (piece : Piece) (rest : List Piece) :
    (ofPieces (piece :: rest)).formula.size ≤
      piece.part.size + (ofPieces rest).formula.size := by
  obtain ⟨chunk, part, behind⟩ := piece
  simp only [ofPieces, Formula.size, Shape.faceTotal, List.map_cons, wholeTotal_cons]
  -- It adds a term or a flat number or neither of them.
  cases part with
  | nothing =>
    rw [List.filterMap_cons_none rfl]
    simp [Piece.flat, Chunk.Part.size]
  | term dice =>
    rw [List.filterMap_cons_some (Piece.term?_eq_some.mpr rfl), List.map_cons, naturalTotal_cons]
    simp only [Piece.flat, Chunk.Part.size]
    omega
  | flat value =>
    rw [List.filterMap_cons_none rfl]
    simp only [Piece.flat, Chunk.Part.size]
    omega

/-- Pieces that are each smaller than the power of ten of their figures make a formula that is
smaller than that of their figures together. -/
theorem size_ofPieces_lt {pieces : List Piece}
    (small : ∀ piece ∈ pieces, piece.part.size < tenTo piece.chunk.figures) :
    (ofPieces pieces).formula.size < tenTo (Text.figures (pieces.map Piece.chunk).flatten) := by
  induction pieces with
  | nil => decide
  | cons piece rest ih =>
    rw [List.forall_mem_cons] at small
    have added := size_ofPieces_cons piece rest
    rw [List.map_cons, List.flatten_cons, Text.figures_append]
    -- Powers of ten multiply where digits stand behind each other, which leaves room for a sum.
    exact Nat.lt_of_le_of_lt added (add_lt_tenTo small.1 (ih small.2))

/-- The pieces of a text make a formula below the power of ten of its figures. -/
theorem size_lt_of_pieces {text : Text} {pieces : List Piece}
    (held : pieces.map Piece.chunk = Chunk.cut text.squeeze)
    (piecesRead : ∀ piece ∈ pieces, piece.IsRead) :
    (ofPieces pieces).formula.size < tenTo text.figures := by
  -- The chunks make up the text again, less its blanks.
  have small := size_ofPieces_lt fun piece member =>
    (Chunk.contributes_of_read (piecesRead piece member)).size_lt
  rw [held, (Chunk.isCut_cut text.squeeze).joined] at small
  exact Nat.lt_of_lt_of_le small (tenTo_le (Text.figures_le List.filter_sublist))

/-- A formula that is read from a text is smaller than the power of ten of the figures of the text. -/
theorem size_lt_of_ofText {text : Text} {reading : Reading}
    (ok : (ofText text).result = .ok reading) : reading.formula.size < tenTo text.figures := by
  obtain ⟨pieces, held, piecesRead, -, rfl⟩ := ofText_eq_ok.mp ok
  exact size_lt_of_pieces held piecesRead

/-- A text is read whatever it says, unless it has more figures than a number may have digits. -/
theorem exists_ofText_of_figures {text : Text} (short : text.figures ≤ Decimal.digitLimit) :
    ∃ reading, (ofText text).result = .ok reading := by
  have pieceRead (chunk : Text) (member : chunk ∈ Chunk.cut text.squeeze) :
      ∃ piece, (Piece.read chunk).result = .ok piece := by
    -- No chunk has more figures than the text that it is a part of.
    have part := List.sublist_flatten_of_mem member
    rw [(Chunk.isCut_cut text.squeeze).joined] at part
    have inside := Text.figures_le (part.trans List.filter_sublist)
    obtain ⟨part, rest, read⟩ := Chunk.exists_read_eq_ok (Nat.le_trans inside short)
    exact ⟨⟨chunk, part, rest⟩, Piece.read_eq_ok.mpr ⟨rfl, read⟩⟩
  obtain ⟨pieces, walked⟩ := exists_mapM_eq_ok (fun chunk => (Piece.read chunk).result) pieceRead
  rw [← Reported.mapM_result] at walked
  obtain ⟨held, piecesRead⟩ := Piece.mapM_read_eq_ok.mp walked
  -- What was read is written to the log, so it has to be short enough as well.
  have small := Nat.lt_of_lt_of_le (size_lt_of_pieces held piecesRead) (tenTo_le short)
  exact ⟨_, ofText_eq_ok.mpr ⟨pieces, held, piecesRead, Formula.writable_of_size small, rfl⟩⟩

/-- A text is read whatever it says, unless it is longer than a number may be. -/
theorem exists_ofText_eq_ok {text : Text} (short : text.length ≤ Decimal.digitLimit) :
    ∃ reading, (ofText text).result = .ok reading :=
  exists_ofText_of_figures (Nat.le_trans text.figures_le_length short)

end Reading

end DiceLab
