import DiceLab.Formula.Reading
import DiceLab.Proofs.Formula.Contribution

/-! Reading a text follows the grammar of chunks: every chunk is accounted for, as a part of the
formula or with a warning. -/

namespace DiceLab

namespace Piece

/-- A piece holds what its chunk is read as. -/
def IsRead (piece : Piece) : Prop := Chunk.read piece.chunk = .ok (piece.part, piece.rest)

/-- The chunk of a piece is read as that piece, with one warning unless all of it is understood. -/
theorem read_of_isRead {piece : Piece} (isRead : piece.IsRead) :
    read piece.chunk =
      ⟨if piece.isWhole then [] else [.warning piece.warning], .ok piece⟩ := by
  have lifted : (liftM (Chunk.read piece.chunk) : Reported (Chunk.Part × Text)).result =
      .ok (piece.part, piece.rest) := isRead
  rw [read, Reported.bind_of_ok _ lifted]
  -- The chunk itself has been read, so only the warning is left to decide.
  cases whole : piece.isWhole with
  | true =>
    simp only [whole]
    rfl
  | false =>
    simp only [whole]
    rfl

/-- A chunk is read as the piece that holds it with its part and its rest. -/
theorem read_eq_ok {chunk : Text} {piece : Piece} :
    (read chunk).result = .ok piece ↔ piece.chunk = chunk ∧ piece.IsRead := by
  constructor
  · intro ok
    have steps := ok
    simp only [read, Reported.bind_result, Reported.lift_result, bind_eq_ok] at steps
    obtain ⟨⟨part, rest⟩, chunkRead, -⟩ := steps
    -- The reader gives the piece made of what it read, whether it warns or not.
    have made : Piece.IsRead ⟨chunk, part, rest⟩ := chunkRead
    have given := congrArg Reported.result (read_of_isRead made)
    rw [ok] at given
    cases given
    exact ⟨rfl, made⟩
  · rintro ⟨rfl, isRead⟩
    rw [read_of_isRead isRead]

/-- Chunks are read as the pieces that hold them, each read on its own. -/
theorem mapM_read_eq_ok {chunks : List Text} {pieces : List Piece} :
    (chunks.mapM read).result = .ok pieces ↔
      pieces.map Piece.chunk = chunks ∧ ∀ piece ∈ pieces, piece.IsRead := by
  -- Notices play no part in the result, which leaves a plain walk over the chunks.
  rw [Reported.mapM_result]
  induction chunks generalizing pieces with
  | nil =>
    cases pieces with
    | nil => simp [pure, Except.pure]
    | cons piece pieces => simp [pure, Except.pure]
  | cons chunk chunks ih =>
    simp only [List.mapM_cons, bind_eq_ok, ih]
    constructor
    · rintro ⟨first, firstRead, others, ⟨held, othersRead⟩, made⟩
      cases made
      obtain ⟨firstHeld, firstRead⟩ := read_eq_ok.mp firstRead
      simp only [List.map_cons, firstHeld, held, List.mem_cons, forall_eq_or_imp]
      exact ⟨trivial, firstRead, othersRead⟩
    · -- The pieces hold the chunks one by one, so the first holds the first.
      rintro ⟨held, piecesRead⟩
      cases pieces with
      | nil => simp at held
      | cons first others =>
        simp only [List.map_cons, List.cons.injEq, List.mem_cons, forall_eq_or_imp]
          at held piecesRead
        exact ⟨first, read_eq_ok.mpr ⟨held.1, piecesRead.1⟩, others, ⟨held.2, piecesRead.2⟩, rfl⟩

/-- Reading chunks warns once for each piece that is not whole, in order. -/
theorem mapM_read_warnings {pieces : List Piece} (piecesRead : ∀ piece ∈ pieces, piece.IsRead) :
    Notice.warnings ((pieces.map Piece.chunk).mapM read).notices =
      (pieces.filter fun piece => !piece.isWhole).map warning := by
  rw [Reported.mapM_notices (mapM_read_eq_ok.mpr ⟨rfl, piecesRead⟩)]
  -- Each piece adds its own warning, or none, in front of those behind it.
  induction pieces with
  | nil => rfl
  | cons piece pieces ih =>
    simp only [List.mem_cons, forall_eq_or_imp] at piecesRead
    simp only [List.map_cons, List.flatMap_cons, Notice.warnings_append,
      read_of_isRead piecesRead.1, ih piecesRead.2]
    cases whole : piece.isWhole with
    | true => simp [whole, Notice.warnings]
    | false => simp [whole, Notice.warnings]

/-- A piece is whole exactly when its chunk is an item. -/
theorem isWhole_iff {piece : Piece} (nonempty : piece.chunk ≠ []) (isRead : piece.IsRead) :
    piece.isWhole = true ↔ Chunk.IsItem piece.chunk := by
  rw [isWhole, List.isEmpty_iff]
  exact (Chunk.contributes_of_read isRead).rest_eq_nil nonempty

end Piece

namespace Reading

/-- A text is read as what its chunks make, when that is short enough to be written. -/
theorem ofText_eq_ok {text : Text} {reading : Reading} :
    (ofText text).result = .ok reading ↔
      ∃ pieces : List Piece, pieces.map Piece.chunk = Chunk.cut text.squeeze ∧
        (∀ piece ∈ pieces, piece.IsRead) ∧ (ofPieces pieces).formula.Writable ∧
        reading = ofPieces pieces := by
  by_cases empty : text.squeeze = []
  · -- Without a code point left there is no piece, and the empty formula can be written.
    simp only [ofText, empty, List.isEmpty_nil, if_true, Reported.pure_result, Except.ok.injEq]
    constructor
    · rintro rfl
      exact ⟨[], rfl, by simp, ⟨by simp [ofPieces], Decimal.writable_zero⟩, rfl⟩
    · rintro ⟨pieces, held, -, -, rfl⟩
      simp only [Chunk.cut, List.foldr_nil, List.map_eq_nil_iff] at held
      subst held
      rfl
  · have nonempty : text.squeeze.isEmpty = false := by simpa using empty
    simp only [ofText, nonempty, Bool.false_eq_true, if_false, Reported.bind_result,
      Reported.lift_result, bind_eq_ok, Piece.mapM_read_eq_ok, Reported.note_result]
    constructor
    · rintro ⟨pieces, ⟨held, piecesRead⟩, shown, written, _, -, made⟩
      cases made
      exact ⟨pieces, held, piecesRead, (Formula.text_eq_ok.mp written).1, rfl⟩
    · rintro ⟨pieces, held, piecesRead, writable, rfl⟩
      exact ⟨pieces, ⟨held, piecesRead⟩, _, Formula.text_eq_ok.mpr ⟨writable, rfl⟩, (),
        trivial, rfl⟩

/-- Reading a text warns once for each of its pieces that is not whole, in order. -/
theorem ofText_warnings {text : Text} {pieces : List Piece}
    (held : pieces.map Piece.chunk = Chunk.cut text.squeeze)
    (piecesRead : ∀ piece ∈ pieces, piece.IsRead) (writable : (ofPieces pieces).formula.Writable) :
    Notice.warnings (ofText text).notices =
      (pieces.filter fun piece => !piece.isWhole).map Piece.warning := by
  by_cases empty : text.squeeze = []
  · -- A text of blanks has no pieces, and nothing is said about it.
    simp only [empty, Chunk.cut, List.foldr_nil, List.map_eq_nil_iff] at held
    subst held
    simp only [ofText, empty, List.isEmpty_nil, if_true]
    rfl
  · have nonempty : text.squeeze.isEmpty = false := by simpa using empty
    have walked := Piece.mapM_read_eq_ok.mpr ⟨rfl, piecesRead⟩
    have shown : (liftM (ofPieces pieces).formula.text : Reported Text).result =
        .ok (ofPieces pieces).formula.plainText := Formula.text_eq_ok.mpr ⟨writable, rfl⟩
    simp only [ofText, nonempty, Bool.false_eq_true, if_false]
    rw [← held, Reported.bind_of_ok _ walked, Reported.bind_of_ok _ shown,
      Notice.warnings_append, Piece.mapM_read_warnings piecesRead]
    -- The last notice is a log record, which is no warning.
    exact List.append_nil _

/--
How a text without blanks is accounted for by a reading of it and the warnings about it.

The pieces are the chunks of the text in their order, each with what it contributes.
-/
structure Account (text : Text) (reading : Reading) (warnings : List Text) (pieces : List Piece) :
    Prop where
  /-- The text is divided before every sign and nowhere else. -/
  cut : Chunk.IsCut text (pieces.map Piece.chunk)
  /-- Each chunk contributes what the grammar says. -/
  contributes : ∀ piece ∈ pieces, Chunk.Contributes piece.chunk piece.part piece.rest
  /-- The contributed dice are the terms, in the order of their chunks. -/
  terms : reading.formula.terms = pieces.filterMap Piece.term?
  /-- The contributed numbers add up to the modifier. -/
  modifier : reading.formula.modifier = wholeTotal (pieces.map Piece.flat)
  /-- The chunks that are no items are ignored, in their order. -/
  ignored : reading.ignored = (pieces.map Piece.chunk).filter fun chunk => ¬Chunk.IsItem chunk
  /-- Each of these chunks is warned about once, and nothing else is. -/
  warned : warnings = (pieces.filter fun piece => ¬Chunk.IsItem piece.chunk).map Piece.warning
  /-- Nothing is ignored exactly when the text is a sequence of items. -/
  complete : reading.isComplete = true ↔ Chunk.IsSequence text

/-- Pieces with the same chunks are the same when they hold what these contribute. -/
theorem pieces_unique {first second : List Piece}
    (held : first.map Piece.chunk = second.map Piece.chunk)
    (firstContributes : ∀ piece ∈ first, Chunk.Contributes piece.chunk piece.part piece.rest)
    (secondContributes : ∀ piece ∈ second, Chunk.Contributes piece.chunk piece.part piece.rest) :
    first = second := by
  induction first generalizing second with
  | nil =>
    rw [List.map_nil, eq_comm, List.map_eq_nil_iff] at held
    exact held.symm
  | cons piece rest ih =>
    cases second with
    | nil => simp at held
    | cons other others =>
      simp only [List.map_cons, List.cons.injEq] at held
      simp only [List.mem_cons, forall_eq_or_imp] at firstContributes secondContributes
      obtain ⟨chunk, part, behind⟩ := piece
      obtain ⟨otherChunk, otherPart, otherBehind⟩ := other
      -- The two chunks are one, and it contributes one thing.
      obtain ⟨rfl, heldRest⟩ := held
      obtain ⟨rfl, rfl⟩ := firstContributes.1.unique secondContributes.1
      rw [ih heldRest firstContributes.2 secondContributes.2]

/-- A text is accounted for in one way only, whatever was read and warned about. -/
theorem Account.unique {text : Text} {reading other : Reading} {warnings others : List Text}
    {first second : List Piece} (one : Account text reading warnings first)
    (two : Account text other others second) : first = second := by
  -- There is one division of the text, so both hold the same chunks.
  have held : first.map Piece.chunk = second.map Piece.chunk :=
    one.cut.eq_cut.trans two.cut.eq_cut.symm
  exact pieces_unique held one.contributes two.contributes

/-- Of pieces that were read, those that are not whole are those whose chunks are no items. -/
theorem filter_not_isWhole {pieces : List Piece} (piecesRead : ∀ piece ∈ pieces, piece.IsRead)
    (nonempty : ∀ piece ∈ pieces, piece.chunk ≠ []) :
    (pieces.filter fun piece => !piece.isWhole) =
      pieces.filter fun piece => ¬Chunk.IsItem piece.chunk := by
  -- Being whole is computed and being an item is not, but they agree on every piece.
  refine List.filter_congr fun piece member => ?_
  have whole := Piece.isWhole_iff (nonempty piece member) (piecesRead piece member)
  cases isWhole : piece.isWhole with
  | true => simp [whole.mp isWhole]
  | false =>
    have item : ¬Chunk.IsItem piece.chunk := fun item => by simp [whole.mpr item] at isWhole
    simp [item]

/--
Every text that is read is accounted for chunk by chunk, as the grammar says.

The grammar leaves no choice: there is one way to account for a text.
-/
theorem ofText_account {text : Text} {reading : Reading}
    (ok : (ofText text).result = .ok reading) :
    ∃! pieces, Account text.squeeze reading (Notice.warnings (ofText text).notices) pieces := by
  obtain ⟨pieces, held, piecesRead, writable, rfl⟩ := ofText_eq_ok.mp ok
  -- The pieces hold the chunks of the text, so what is known of chunks holds of them.
  have division := Chunk.isCut_cut text.squeeze
  rw [← held] at division
  have nonempty : ∀ piece ∈ pieces, piece.chunk ≠ [] := fun piece member =>
    (division.whole _ (List.mem_map_of_mem member)).1
  have filtered := filter_not_isWhole piecesRead nonempty
  have ignored : (ofPieces pieces).ignored =
      (pieces.map Piece.chunk).filter fun chunk => ¬Chunk.IsItem chunk := by
    simp only [ofPieces, filtered, List.filter_map]
    rfl
  -- Nothing is ignored exactly when every chunk is an item.
  have complete : (ofPieces pieces).isComplete = true ↔ Chunk.IsSequence text.squeeze := by
    rw [isComplete, List.isEmpty_iff, ignored, List.filter_eq_nil_iff, Chunk.isSequence_iff, ← held]
    simp
  refine existsUnique_of_exists_of_unique ⟨pieces, ?_⟩ fun _ _ one two => one.unique two
  exact
    { cut := division
      contributes := fun piece member => Chunk.contributes_of_read (piecesRead piece member)
      terms := rfl
      modifier := rfl
      ignored := ignored
      warned := by rw [ofText_warnings held piecesRead writable, filtered]
      complete := complete }

/-- A die with a letter behind it, a die without sides, a foreign digit and a number with a letter
behind it are accounted for. -/
theorem ofText_account_mixed :
    (ofText " 2D6x -0d8+٣-5y").result =
      .ok ⟨⟨[⟨.plus, 2, .numeric 6 (by decide), by decide⟩], -2⟩, ["2D6x", "-0d8", "-5y"]⟩ ∧
    ∃! pieces, Account (Text.squeeze " 2D6x -0d8+٣-5y")
      ⟨⟨[⟨.plus, 2, .numeric 6 (by decide), by decide⟩], -2⟩, ["2D6x", "-0d8", "-5y"]⟩
      (Notice.warnings (ofText " 2D6x -0d8+٣-5y").notices) pieces :=
  have read : (ofText " 2D6x -0d8+٣-5y").result =
      .ok ⟨⟨[⟨.plus, 2, .numeric 6 (by decide), by decide⟩], -2⟩, ["2D6x", "-0d8", "-5y"]⟩ := by
    decide +kernel
  ⟨read, ofText_account read⟩

end Reading

end DiceLab
