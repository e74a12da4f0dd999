import DiceLab.Proofs.Formula.Readable

/-! Which texts are refused: every text is divided into pieces, and it is not read when a numeral of
one of them is too long, or the sum of their flat numbers. -/

namespace DiceLab

namespace Chunk

variable {chunk : Text}

/-- Every chunk contributes something, be it nothing at all. -/
theorem exists_contributes (chunk : Text) : ∃ part rest, Contributes chunk part rest := by
  -- What the chunk leads with tells which rule it falls under, however long its numerals are.
  cases led : lead chunk with
  | neither =>
    obtain ⟨noDie, noNumber⟩ := lead_eq_neither.mp led
    exact ⟨_, _, .neither noDie noNumber⟩
  | number sign digits rest =>
    obtain ⟨noDie, starts⟩ := lead_eq_number.mp led
    exact ⟨_, _, .number noDie starts⟩
  | die sign count sides rest =>
    have starts := lead_eq_die.mp led
    by_cases valid : IsValid count sides
    · obtain ⟨some, face, faced⟩ := isValid_iff.mp valid
      exact ⟨.term ⟨sign, countOf count, face, some⟩, rest, .die starts valid ⟨rfl, rfl, faced⟩⟩
    · exact ⟨_, _, .invalid starts valid⟩

/-- Chunks are held by pieces with what they contribute. -/
theorem exists_pieces (chunks : List Text) :
    ∃ pieces : List Piece, pieces.map Piece.chunk = chunks ∧
      ∀ piece ∈ pieces, Contributes piece.chunk piece.part piece.rest := by
  induction chunks with
  | nil => exact ⟨[], rfl, by simp⟩
  | cons chunk rest ih =>
    obtain ⟨pieces, held, contribute⟩ := ih
    -- Every chunk contributes something, if only nothing at all.
    obtain ⟨part, behind, contributes⟩ := exists_contributes chunk
    refine ⟨⟨chunk, part, behind⟩ :: pieces, by rw [List.map_cons, held], ?_⟩
    exact List.forall_mem_cons.mpr ⟨contributes, contribute⟩

/-- A numeral of a chunk that is longer than a number may be. -/
def LongNumeral (chunk run : Text) : Prop := Numeral chunk run ∧ Decimal.digitLimit < run.length

/-- A chunk is short when it has no long numeral. -/
theorem short_iff : Short chunk ↔ ¬∃ run, LongNumeral chunk run := by
  simp only [Short, LongNumeral, not_exists, not_and, Nat.not_lt]

/-- A chunk that contributes a term starts with the valid die that the term stands for. -/
theorem Contributes.starts {term : Term} {rest : Text}
    (contributes : Contributes chunk (.term term) rest) :
    ∃ sign count sides, StartsWithDie chunk sign count sides rest ∧ IsValid count sides ∧
      Denotes sign count sides term := by
  cases contributes with
  | die starts valid denotes => exact ⟨_, _, _, starts, valid, denotes⟩

/-- A valid die stands for a term with dice, and with sides unless it is the Fudge die. -/
theorem Denotes.positive {sign : Sign} {count : Text} {sides : SidesText} {term : Term}
    (denotes : Denotes sign count sides term) (valid : IsValid count sides) :
    1 ≤ term.count ∧ ∀ number, term.face.sides? = some number → 1 ≤ number := by
  obtain ⟨some, -⟩ := isValid_iff.mp valid
  rw [denotes.counted]
  refine ⟨some, ?_⟩
  intro number sided
  -- Fudge dice have no number of sides, and the others carry the proof that theirs is positive.
  cases faced : term.face with
  | fudge => simp [faced, Face.sides?] at sided
  | numeric known positive =>
    simp only [faced, Face.sides?, Option.some.injEq] at sided
    exact sided ▸ positive

end Chunk

namespace Reading

/-- The pieces of a text: its chunks, each with what it contributes, whether it can be read or not. -/
structure HasPieces (text : Text) (pieces : List Piece) : Prop where
  cut : Chunk.IsCut text.squeeze (pieces.map Piece.chunk)
  contributes : ∀ piece ∈ pieces, Chunk.Contributes piece.chunk piece.part piece.rest

/-- Pieces are refused for a numeral with more digits than a number may have, or when the sum of
their flat numbers has more. -/
def Refused (pieces : List Piece) : Prop :=
  (∃ piece ∈ pieces, ∃ run, Chunk.LongNumeral piece.chunk run) ∨
    Decimal.digitLimit < (Decimal.naturalText (wholeTotal (pieces.map Piece.flat)).natAbs).length

variable {text : Text} {pieces : List Piece}

/-- Every text has pieces. -/
theorem exists_hasPieces (text : Text) : ∃ pieces, HasPieces text pieces := by
  obtain ⟨pieces, held, contributes⟩ := Chunk.exists_pieces (Chunk.cut text.squeeze)
  refine ⟨pieces, ?_, contributes⟩
  rw [held]
  exact Chunk.isCut_cut text.squeeze

/-- A text is read as its pieces when none of them has a long numeral. -/
theorem isReadAs_iff_hasPieces :
    IsReadAs text pieces ↔
      HasPieces text pieces ∧ ¬∃ piece ∈ pieces, ∃ run, Chunk.LongNumeral piece.chunk run := by
  constructor
  · intro readAs
    -- Reading fails on long numerals only.
    refine ⟨⟨readAs.cut, readAs.contributes⟩, ?_⟩
    rintro ⟨piece, member, long⟩
    exact Chunk.short_iff.mp (readAs.short piece member) long
  · rintro ⟨hasPieces, short⟩
    refine ⟨hasPieces.cut, hasPieces.contributes, ?_⟩
    intro piece member
    exact Chunk.short_iff.mpr fun long => short ⟨piece, member, long⟩

namespace HasPieces

variable (hasPieces : HasPieces text pieces)

include hasPieces

/-- A text has its pieces only. -/
theorem unique {others : List Piece} (also : HasPieces text others) : others = pieces :=
  pieces_unique (also.cut.eq_cut.trans hasPieces.cut.eq_cut.symm) also.contributes
    hasPieces.contributes

/-- A text is read when its pieces are not refused. -/
theorem exists_ofText_iff : (∃ reading, (ofText text).result = .ok reading) ↔ ¬Refused pieces := by
  have written : Decimal.Writable (wholeTotal (pieces.map Piece.flat)) ↔
      ¬Decimal.digitLimit <
        (Decimal.naturalText (wholeTotal (pieces.map Piece.flat)).natAbs).length := by
    rw [← Decimal.writable_natAbs, Decimal.writable_iff_length, Nat.not_lt]
  rw [Reading.exists_ofText_iff, Refused, not_or, ← written]
  -- What a text is read as are its pieces, of which there is one list.
  constructor
  · rintro ⟨others, readAs, writable⟩
    obtain ⟨also, short⟩ := isReadAs_iff_hasPieces.mp readAs
    obtain rfl := hasPieces.unique also
    exact ⟨short, writable⟩
  · rintro ⟨short, writable⟩
    exact ⟨pieces, isReadAs_iff_hasPieces.mpr ⟨hasPieces, short⟩, writable⟩

/-- A text that is not read fails with the length of a long numeral, or, where there is none, because
the sum is long. -/
theorem ofText_eq_error {failure : Failure} (failed : (ofText text).result = .error failure) :
    (∃ piece ∈ pieces, ∃ run, Chunk.LongNumeral piece.chunk run ∧
        failure = .tooManyDigits run.length) ∨
      ¬(∃ piece ∈ pieces, ∃ run, Chunk.LongNumeral piece.chunk run) ∧
        failure = .tooLongToWrite := by
  rcases Reading.ofText_eq_error failed with
    ⟨chunk, inside, run, numeral, long, told⟩ | ⟨told, others, readAs, -⟩
  · -- The chunk that could not be read is that of a piece.
    left
    rw [← hasPieces.cut.eq_cut] at inside
    obtain ⟨piece, member, rfl⟩ := List.mem_map.mp inside
    exact ⟨piece, member, run, ⟨numeral, long⟩, told⟩
  · right
    obtain ⟨also, short⟩ := isReadAs_iff_hasPieces.mp readAs
    rw [hasPieces.unique also] at short
    exact ⟨short, told⟩

/-- The terms that are read are those of the pieces. -/
theorem terms_eq {reading : Reading} (ok : (ofText text).result = .ok reading) :
    reading.formula.terms = pieces.filterMap Piece.term? := by
  obtain ⟨others, held, piecesRead, -, rfl⟩ := ofText_eq_ok.mp ok
  obtain ⟨also, -⟩ := isReadAs_iff_hasPieces.mp (isReadAs_iff.mpr ⟨held, piecesRead⟩)
  rw [← hasPieces.unique also]
  rfl

/-- Each term that is read stands for a valid die that one of the pieces starts with. -/
theorem exists_denotes {reading : Reading} (ok : (ofText text).result = .ok reading) {term : Term}
    (member : term ∈ reading.formula.terms) :
    ∃ piece ∈ pieces, ∃ sign count sides,
      Chunk.StartsWithDie piece.chunk sign count sides piece.rest ∧
        Chunk.IsValid count sides ∧ Chunk.Denotes sign count sides term := by
  rw [hasPieces.terms_eq ok] at member
  obtain ⟨piece, inside, adds⟩ := List.mem_filterMap.mp member
  have contributes := hasPieces.contributes _ inside
  -- Only a piece with a term adds one, and it contributes a term only where it starts with a die.
  rw [Piece.term?_eq_some.mp adds] at contributes
  exact ⟨_, inside, contributes.starts⟩

end HasPieces

/--
Every text has pieces, and it fails to be read exactly when these are refused: one of their numerals
has more digits than a number may have, or the sum of their flat numbers has.

The numerals of a chunk that starts with a die are its count and its sides, and that of another chunk
is the number it starts with; zeros in front count as digits. A failure tells the length of a numeral
or, where none is long, that the sum cannot be written. In every other case the text is read, and
its terms have at least one die with at least one side, each from a die that is spelled in the text.
-/
theorem ofText_refused (text : Text) :
    ∃ pieces, HasPieces text pieces ∧
      ((∃ failure, (ofText text).result = .error failure) ↔ Refused pieces) ∧
      (∀ failure, (ofText text).result = .error failure →
        (∃ piece ∈ pieces, ∃ run, Chunk.LongNumeral piece.chunk run ∧
            failure = .tooManyDigits run.length) ∨
          ¬(∃ piece ∈ pieces, ∃ run, Chunk.LongNumeral piece.chunk run) ∧
            failure = .tooLongToWrite) ∧
      (¬Refused pieces → ∃ reading, (ofText text).result = .ok reading ∧
        ∀ term ∈ reading.formula.terms,
          (1 ≤ term.count ∧ ∀ number, term.face.sides? = some number → 1 ≤ number) ∧
            ∃ piece ∈ pieces, ∃ sign count sides,
              Chunk.StartsWithDie piece.chunk sign count sides piece.rest ∧
                Chunk.IsValid count sides ∧ Chunk.Denotes sign count sides term) := by
  obtain ⟨pieces, hasPieces⟩ := exists_hasPieces text
  refine ⟨pieces, hasPieces, ?_, fun _ failed => hasPieces.ofText_eq_error failed, ?_⟩
  · -- A text fails when it is not read.
    rw [← not_iff_not, ← hasPieces.exists_ofText_iff]
    cases (ofText text).result with
    | error failure => simp
    | ok reading => simp
  · intro accepted
    obtain ⟨reading, ok⟩ := hasPieces.exists_ofText_iff.mpr accepted
    refine ⟨reading, ok, fun term member => ?_⟩
    have spelled := hasPieces.exists_denotes ok member
    have positive : 1 ≤ term.count ∧ ∀ number, term.face.sides? = some number → 1 ≤ number := by
      obtain ⟨_, _, _, _, _, -, valid, denotes⟩ := spelled
      exact denotes.positive valid
    exact ⟨positive, spelled⟩

end Reading

end DiceLab
