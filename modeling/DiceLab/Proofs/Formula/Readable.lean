import DiceLab.Proofs.Formula.Size

/-! Which texts are read: only a run of digits, or a sum of flat numbers, can be too long. -/

namespace DiceLab

/-- Only a run that is too long is not read, and the failure tells its length. -/
theorem Decimal.readDigits_eq_error {digits : Text} {failure : Failure} :
    readDigits digits = .error failure ↔
      digitLimit < digits.length ∧ failure = .tooManyDigits digits.length := by
  rw [readDigits]
  -- The length of the run is all that is checked.
  split
  · rename_i fits
    simp [Nat.not_lt.mpr fits]
  · rename_i long
    simp [Nat.lt_of_not_le long, eq_comm]

namespace Chunk

/-- The runs of digits that a chunk is read through. -/
inductive Numeral (chunk : Text) : Text → Prop where
  /-- The number of dice, which may be left out. -/
  | count {sign : Sign} {count : Text} {sides : SidesText} {rest : Text}
      (starts : StartsWithDie chunk sign count sides rest) : Numeral chunk count
  | sides {sign : Sign} {count run rest : Text}
      (starts : StartsWithDie chunk sign count (.digits run) rest) : Numeral chunk run
  | number {sign : Sign} {digits rest : Text} (noDie : ¬HasDie chunk)
      (starts : StartsWithNumber chunk sign digits rest) : Numeral chunk digits

/-- A chunk none of whose numerals is too long. -/
def Short (chunk : Text) : Prop := ∀ run, Numeral chunk run → run.length ≤ Decimal.digitLimit

variable {chunk : Text}

/-- The numerals of a chunk that leads with a die are its two runs of digits. -/
theorem numeral_of_die {sign : Sign} {count : Text} {sides : SidesText} {rest run : Text}
    (led : lead chunk = .die sign count sides rest) :
    Numeral chunk run ↔ run = count ∨ sides = .digits run := by
  have starts := lead_eq_die.mp led
  constructor
  · intro numeral
    -- A chunk starts with one die only.
    cases numeral with
    | count other => exact .inl (other.unique starts).2.1
    | sides other => exact .inr (starts.unique other).2.2.1
    | number noDie _ => exact absurd ⟨_, _, _, _, starts⟩ noDie
  · rintro (rfl | rfl)
    · exact .count starts
    · exact .sides starts

/-- The one numeral of a chunk that leads with a flat number is that number. -/
theorem numeral_of_number {sign : Sign} {digits rest run : Text}
    (led : lead chunk = .number sign digits rest) : Numeral chunk run ↔ run = digits := by
  obtain ⟨noDie, starts⟩ := lead_eq_number.mp led
  constructor
  · intro numeral
    cases numeral with
    -- Where no die leads, the only run is the one that was read as the number.
    | count other => exact absurd ⟨_, _, _, _, other⟩ noDie
    | sides other => exact absurd ⟨_, _, _, _, other⟩ noDie
    | number _ other => exact (StartsWithNumber.unique noDie other starts).2.1
  · rintro rfl
    exact .number noDie starts

/-- A number of dice that is not read is a run of digits that is too long. -/
theorem readCount_eq_error {count : Text} {failure : Failure}
    (failed : readCount count = .error failure) :
    Decimal.digitLimit < count.length ∧ failure = .tooManyDigits count.length := by
  unfold readCount at failed
  split at failed
  · -- A number of dice that is left out is one, and never too long.
    cases failed
  · exact Decimal.readDigits_eq_error.mp failed

/-- Sides that are not read are a run of digits that is too long. -/
theorem readSides_eq_error {sides : SidesText} {failure : Failure}
    (failed : readSides sides = .error failure) :
    ∃ run, sides = .digits run ∧ Decimal.digitLimit < run.length ∧
      failure = .tooManyDigits run.length := by
  cases sides with
  | fudge => cases failed
  | digits run =>
    -- After the digits are read, comparing them with zero does not fail.
    rw [readSides, bind_pure_eq_error, Decimal.readDigits_eq_error] at failed
    exact ⟨run, rfl, failed⟩

/-- Reading a chunk fails with the length of one of its numerals that is too long. -/
theorem read_eq_error {failure : Failure} (failed : read chunk = .error failure) :
    ∃ run, Numeral chunk run ∧ Decimal.digitLimit < run.length ∧
      failure = .tooManyDigits run.length := by
  rw [read] at failed
  cases led : lead chunk with
  | neither =>
    rw [led] at failed
    cases failed
  | number sign digits rest =>
    simp only [led, bind_pure_eq_error, Decimal.readDigits_eq_error] at failed
    exact ⟨digits, (numeral_of_number led).mpr rfl, failed⟩
  | die sign count sides rest =>
    simp only [led, bind_eq_error] at failed
    rcases failed with long | ⟨dice, -, long | ⟨face, -, made⟩⟩
    · exact ⟨count, (numeral_of_die led).mpr (.inl rfl), readCount_eq_error long⟩
    · obtain ⟨run, digits, long⟩ := readSides_eq_error long
      exact ⟨run, (numeral_of_die led).mpr (.inr digits), long⟩
    · -- Whether there is a term or none, something is given.
      split at made
      · cases made
      · cases made

/-- A chunk that is read has no numeral that is too long. -/
theorem short_of_read {part : Part} {rest : Text} (ok : read chunk = .ok (part, rest)) :
    Short chunk := by
  intro run numeral
  rw [read] at ok
  cases led : lead chunk with
  | neither =>
    -- Without a die and without a number there is no numeral.
    obtain ⟨noDie, noNumber⟩ := lead_eq_neither.mp led
    cases numeral with
    | count starts => exact absurd ⟨_, _, _, _, starts⟩ noDie
    | sides starts => exact absurd ⟨_, _, _, _, starts⟩ noDie
    | number _ starts => exact absurd ⟨_, _, _, starts⟩ noNumber
  | number sign digits rest =>
    simp only [led, bind_eq_ok] at ok
    obtain ⟨value, digitsRead, -⟩ := ok
    rw [(numeral_of_number led).mp numeral]
    exact (Decimal.readDigits_eq_ok.mp digitsRead).1
  | die sign count sides rest =>
    simp only [led, bind_eq_ok] at ok
    obtain ⟨dice, countRead, face, sidesRead, -⟩ := ok
    rcases (numeral_of_die led).mp numeral with rfl | rfl
    · -- A count that is left out is not too long either.
      unfold readCount at countRead
      split at countRead
      · rename_i empty
        rw [List.isEmpty_iff.mp empty]
        exact Nat.zero_le _
      · exact (Decimal.readDigits_eq_ok.mp countRead).1
    · rw [readSides, bind_eq_ok] at sidesRead
      obtain ⟨value, runRead, -⟩ := sidesRead
      exact (Decimal.readDigits_eq_ok.mp runRead).1

/-- A chunk is read as what it contributes exactly when none of its numerals is too long. -/
theorem read_eq_ok {part : Part} {rest : Text} :
    read chunk = .ok (part, rest) ↔ Contributes chunk part rest ∧ Short chunk := by
  constructor
  · intro ok
    exact ⟨contributes_of_read ok, short_of_read ok⟩
  · intro ⟨contributes, short⟩
    cases ok : read chunk with
    | error failure =>
      obtain ⟨run, numeral, long, -⟩ := read_eq_error ok
      exact absurd (short run numeral) (Nat.not_le.mpr long)
    | ok given =>
      -- A chunk contributes one thing only, so nothing else is read.
      obtain ⟨rfl, rfl⟩ := contributes.unique (contributes_of_read ok)
      rfl

/-- The numbers of a term that is read can be written. -/
theorem Contributes.writable {term : Term} {rest : Text}
    (contributes : Contributes chunk (.term term) rest) (short : Short chunk) : term.Writable := by
  have belowLimit {run : Text} (numeral : Numeral chunk run) :
      Decimal.valueOf run < tenTo Decimal.digitLimit :=
    Nat.lt_of_lt_of_le (Decimal.valueOf_lt run) (tenTo_le (short run numeral))
  cases contributes with
  | die starts valid denotes =>
    rename_i sign count sides
    constructor
    · rw [denotes.counted]
      unfold countOf
      split
      · have one : 1 < tenTo 1 := by decide
        exact Nat.lt_of_lt_of_le one (tenTo_le (by decide))
      · exact belowLimit (.count starts)
    · -- The Fudge die has no number to be written.
      obtain ⟨_, _, face, _⟩ := term
      cases denotes.faced with
      | fudge => trivial
      | numeric positive => exact belowLimit (.sides starts)

end Chunk

/-- A piece is read exactly when it is what its chunk contributes and no numeral is too long. -/
theorem Piece.isRead_iff {piece : Piece} :
    piece.IsRead ↔
      Chunk.Contributes piece.chunk piece.part piece.rest ∧ Chunk.Short piece.chunk :=
  Chunk.read_eq_ok

namespace Reading

/-- Pieces that are read make a formula that can be written exactly when the sum of their flat
numbers can. -/
theorem writable_ofPieces {pieces : List Piece} (piecesRead : ∀ piece ∈ pieces, piece.IsRead) :
    (ofPieces pieces).formula.Writable ↔
      Decimal.Writable (wholeTotal (pieces.map Piece.flat)) := by
  constructor
  · intro writable
    exact writable.2
  · intro flat
    refine ⟨?_, flat⟩
    intro term member
    -- Each term comes from one piece, and its numbers are numerals of that piece.
    obtain ⟨piece, inside, adds⟩ := List.mem_filterMap.mp member
    obtain ⟨contributes, short⟩ := Piece.isRead_iff.mp (piecesRead _ inside)
    rw [Piece.term?_eq_some.mp adds] at contributes
    exact contributes.writable short

/-- The pieces that a text is read as: its chunks, each with what it contributes. -/
structure IsReadAs (text : Text) (pieces : List Piece) : Prop where
  cut : Chunk.IsCut text.squeeze (pieces.map Piece.chunk)
  contributes : ∀ piece ∈ pieces, Chunk.Contributes piece.chunk piece.part piece.rest
  short : ∀ piece ∈ pieces, Chunk.Short piece.chunk

variable {text : Text} {pieces : List Piece}

/-- Pieces are those that a text is read as when its chunks are read as them one by one. -/
theorem isReadAs_iff :
    IsReadAs text pieces ↔
      pieces.map Piece.chunk = Chunk.cut text.squeeze ∧ ∀ piece ∈ pieces, piece.IsRead := by
  constructor
  · intro ⟨cut, contributes, short⟩
    -- There is one way to cut a text, so its pieces hold the chunks that were cut.
    refine ⟨cut.eq_cut, ?_⟩
    intro piece member
    exact Piece.isRead_iff.mpr ⟨contributes piece member, short piece member⟩
  · intro ⟨held, piecesRead⟩
    have each (piece : Piece) (member : piece ∈ pieces) :=
      Piece.isRead_iff.mp (piecesRead piece member)
    refine ⟨?_, fun piece member => (each piece member).1, fun piece member => (each piece member).2⟩
    rw [held]
    exact Chunk.isCut_cut text.squeeze

/-- A text is read when its chunks are and the sum of the flat numbers is not too long. -/
theorem exists_ofText_iff :
    (∃ reading, (ofText text).result = .ok reading) ↔
      ∃ pieces, IsReadAs text pieces ∧ Decimal.Writable (wholeTotal (pieces.map Piece.flat)) := by
  constructor
  · intro ⟨reading, ok⟩
    obtain ⟨pieces, held, piecesRead, writable, -⟩ := ofText_eq_ok.mp ok
    exact ⟨pieces, isReadAs_iff.mpr ⟨held, piecesRead⟩, writable.2⟩
  · intro ⟨pieces, readAs, flat⟩
    obtain ⟨held, piecesRead⟩ := isReadAs_iff.mp readAs
    -- The pieces are short, so only the sum of the flat parts can be too long.
    have writable := (writable_ofPieces piecesRead).mpr flat
    exact ⟨_, ofText_eq_ok.mpr ⟨pieces, held, piecesRead, writable, rfl⟩⟩

/-- A text fails at a chunk with a numeral that is too long, or else at the sum of its numbers. -/
theorem ofText_eq_error {failure : Failure} (failed : (ofText text).result = .error failure) :
    (∃ chunk ∈ Chunk.cut text.squeeze, ∃ run, Chunk.Numeral chunk run ∧
      Decimal.digitLimit < run.length ∧ failure = .tooManyDigits run.length) ∨
    failure = .tooLongToWrite ∧ ∃ pieces, IsReadAs text pieces ∧
      ¬Decimal.Writable (wholeTotal (pieces.map Piece.flat)) := by
  by_cases empty : text.squeeze = []
  · simp [ofText, empty] at failed
  · have nonempty : text.squeeze.isEmpty = false := by simpa using empty
    simp only [ofText, nonempty, Bool.false_eq_true, if_false, Reported.bind_result,
      Reported.lift_result, bind_eq_error] at failed
    rcases failed with walk | ⟨pieces, walk, written | ⟨shown, -, logged | ⟨_, -, given⟩⟩⟩
    · left
      rw [Reported.mapM_result] at walk
      obtain ⟨chunk, inside, pieceFailed⟩ := exists_of_mapM_eq_error walk
      refine ⟨chunk, inside, Chunk.read_eq_error ?_⟩
      -- Behind the reading of the chunk there is only a warning, which never fails.
      simp only [Piece.read, Reported.bind_result, Reported.lift_result, bind_eq_error]
        at pieceFailed
      rcases pieceFailed with chunkFailed | ⟨_, -, warned⟩
      · exact chunkFailed
      · split at warned
        · cases warned
        · cases warned
    · right
      obtain ⟨held, piecesRead⟩ := Piece.mapM_read_eq_ok.mp walk
      unfold Formula.text at written
      split at written
      · cases written
      · rename_i long
        rw [writable_ofPieces piecesRead] at long
        exact ⟨(Except.error.inj written).symm, pieces,
          isReadAs_iff.mpr ⟨held, piecesRead⟩, long⟩
    · cases logged
    · cases given

/-- There is one way to read a text. -/
theorem IsReadAs.unique {others : List Piece} (one : IsReadAs text pieces)
    (two : IsReadAs text others) : pieces = others :=
  pieces_unique (one.cut.eq_cut.trans two.cut.eq_cut.symm) one.contributes two.contributes

/-- No chunk of a text that is read has a numeral that is too long. -/
theorem IsReadAs.short_of_mem_cut (readAs : IsReadAs text pieces) {chunk : Text}
    (inside : chunk ∈ Chunk.cut text.squeeze) : Chunk.Short chunk := by
  rw [← readAs.cut.eq_cut] at inside
  obtain ⟨piece, member, rfl⟩ := List.mem_map.mp inside
  exact readAs.short piece member

/-- A text with a sum that is too long fails when that sum is to be written. -/
theorem IsReadAs.ofText_eq_tooLongToWrite (readAs : IsReadAs text pieces)
    (long : ¬Decimal.Writable (wholeTotal (pieces.map Piece.flat))) :
    (ofText text).result = .error .tooLongToWrite := by
  cases outcome : (ofText text).result with
  | ok reading =>
    obtain ⟨others, alsoReadAs, writable⟩ := exists_ofText_iff.mp ⟨reading, outcome⟩
    rw [readAs.unique alsoReadAs] at long
    exact absurd writable long
  | error failure =>
    -- No chunk can be what the text fails at.
    rcases Reading.ofText_eq_error outcome with ⟨chunk, inside, run, numeral, tooLong, -⟩ | sum
    · exact absurd (readAs.short_of_mem_cut inside run numeral) (Nat.not_le.mpr tooLong)
    · rw [sum.1]

/--
A text is read exactly when none of its numerals is too long and neither is the sum of its flat
numbers.

Whatever else it says, it is read, and so is every text that is not longer than a number may be. A
failure tells which of the two causes it has.
-/
theorem ofText_readable (text : Text) :
    ((∃ reading, (ofText text).result = .ok reading) ↔
      ∃ pieces, IsReadAs text pieces ∧ Decimal.Writable (wholeTotal (pieces.map Piece.flat))) ∧
    (text.length ≤ Decimal.digitLimit → ∃ reading, (ofText text).result = .ok reading) ∧
    ((ofText text).result = .error .tooLongToWrite ↔
      ∃ pieces, IsReadAs text pieces ∧ ¬Decimal.Writable (wholeTotal (pieces.map Piece.flat))) ∧
    ∀ failure, (ofText text).result = .error failure → failure ≠ .tooLongToWrite →
      ∃ chunk ∈ Chunk.cut text.squeeze, ∃ run, Chunk.Numeral chunk run ∧
        Decimal.digitLimit < run.length ∧ failure = .tooManyDigits run.length := by
  refine ⟨exists_ofText_iff, exists_ofText_eq_ok, ⟨?_, ?_⟩, ?_⟩
  · intro failed
    rcases ofText_eq_error failed with ⟨_, _, _, _, _, other⟩ | ⟨-, sum⟩
    · cases other
    · exact sum
  · intro ⟨pieces, readAs, long⟩
    exact readAs.ofText_eq_tooLongToWrite long
  · intro failure failed other
    exact (ofText_eq_error failed).resolve_right fun sum => other sum.1

/-- A text of words, dice and a foreign digit is not too long, so there is one way to read it. -/
theorem ofText_readable_mixed :
    let text : Text := " 2D6x -0d8+٣-5y"
    text.length ≤ Decimal.digitLimit ∧
      ∃ pieces, IsReadAs text pieces ∧ Decimal.Writable (wholeTotal (pieces.map Piece.flat)) := by
  intro text
  have short : text.length ≤ Decimal.digitLimit := by decide
  have readable := ofText_readable text
  exact ⟨short, readable.1.mp (readable.2.1 short)⟩

end Reading

section

variable {sign : Sign} {digits chunk : Text}

/-- The digits of a number with nothing behind it are its one numeral. -/
theorem Chunk.NumberSpelled.numeral_iff (spelled : NumberSpelled sign digits chunk) {run : Text} :
    Numeral chunk run ↔ run = digits := by
  have starts : StartsWithNumber chunk sign digits [] :=
    ⟨chunk, spelled, (List.append_nil chunk).symm, Decimal.ends_nil⟩
  exact numeral_of_number (lead_eq_number.mpr ⟨spelled.noDie, starts⟩)

/-- The same digit as often as is asked for is a number. -/
theorem Chunk.numberSpelled_replicate {count : Nat} {point : CodePoint} (some : count ≠ 0)
    (digit : Decimal.isDigit point = true) :
    NumberSpelled .plus (List.replicate count point) (List.replicate count point) := by
  apply NumberSpelled.intro .absent
  · simpa [List.replicate_eq_nil_iff] using some
  · intro other member
    rw [List.eq_of_mem_replicate member]
    exact digit

/-- A run of nines stands for one less than the power of ten of its length. -/
theorem Decimal.valueOf_nines (count : Nat) :
    valueOf (List.replicate count '9') + 1 = tenTo count := by
  induction count with
  | zero => rfl
  | succ count ih =>
    have nine : (Text.valueOfDigit? '9').getD 0 = 9 := by decide
    have power : tenTo (count + 1) = tenTo count * 10 := tenTo_add count 1
    -- The last nine is put behind the number that the others make.
    rw [List.replicate_succ', valueOf_concat, nine, power]
    omega

namespace Reading

variable (spelled : Chunk.NumberSpelled sign digits chunk) (squeezed : chunk.squeeze = chunk)

include spelled squeezed

/-- A number is cut no further. -/
theorem cut_number : Chunk.cut chunk.squeeze = [chunk] := by
  rw [squeezed]
  exact Chunk.cut_chunk (Chunk.IsItem.isChunk (.inr ⟨_, _, spelled⟩))

/-- A number that is not too long is read as itself. -/
theorem isReadAs_number (short : digits.length ≤ Decimal.digitLimit) :
    IsReadAs chunk [⟨chunk, .flat (sign.factor * Decimal.valueOf digits), []⟩] := by
  apply isReadAs_iff.mpr
  refine ⟨(cut_number spelled squeezed).symm, ?_⟩
  simp only [List.forall_mem_cons, List.not_mem_nil, false_imp_iff, implies_true, and_true,
    Piece.isRead_iff]
  -- The whole chunk is the number, and its run is the only numeral.
  constructor
  · exact .number spelled.noDie ⟨chunk, spelled, (List.append_nil chunk).symm, Decimal.ends_nil⟩
  · intro run numeral
    rw [spelled.numeral_iff.mp numeral]
    exact short

/-- A number that is too long is not read. -/
theorem ofText_of_longNumber (long : Decimal.digitLimit < digits.length) :
    (ofText chunk).result = .error (.tooManyDigits digits.length) := by
  have cut := cut_number spelled squeezed
  have unread (pieces : List Piece) : ¬IsReadAs chunk pieces := by
    intro readAs
    have short : Chunk.Short chunk := readAs.short_of_mem_cut (by simp [cut])
    exact absurd (short digits (spelled.numeral_iff.mpr rfl)) (Nat.not_le.mpr long)
  cases outcome : (ofText chunk).result with
  | ok reading =>
    obtain ⟨pieces, readAs, -⟩ := exists_ofText_iff.mp ⟨reading, outcome⟩
    exact absurd readAs (unread pieces)
  | error failure =>
    rcases ofText_eq_error outcome with ⟨other, inside, run, numeral, -, told⟩ | ⟨-, _, readAs, -⟩
    · -- The number is the only chunk, and its digits are the only numeral.
      rw [cut, List.mem_singleton] at inside
      subst inside
      rw [told, spelled.numeral_iff.mp numeral]
    · exact absurd readAs (unread _)

omit spelled squeezed in
/-- Two texts are read one by one when the second opens a chunk. -/
theorem IsReadAs.append {text other : Text} {pieces others : List Piece}
    (one : IsReadAs text pieces) (two : IsReadAs other others)
    (opens : Chunk.Opens other.squeeze) : IsReadAs (text ++ other) (pieces ++ others) := by
  obtain ⟨held, piecesRead⟩ := isReadAs_iff.mp one
  obtain ⟨othersHeld, othersRead⟩ := isReadAs_iff.mp two
  -- Blanks are dropped from each text alone, and the sign that opens the other one starts a new
  -- chunk.
  have squeezed : (text ++ other).squeeze = text.squeeze ++ other.squeeze := List.filter_append ..
  apply isReadAs_iff.mpr
  constructor
  · rw [squeezed, Chunk.cut_append _ opens, List.map_append, held, othersHeld]
  · exact List.forall_mem_append.mpr ⟨piecesRead, othersRead⟩

end Reading

end

/-- A run of 4301 zeros is not read although it stands for zero, and neither are two numbers that are
each read alone but come to 4301 digits together. -/
theorem Reading.ofText_longNumbers :
    let zeros : Text := List.replicate 4301 '0'
    let nines : Text := List.replicate 4300 '9'
    let one : Text := "+1"
    (ofText zeros).result = .error (.tooManyDigits 4301) ∧
      (∃ reading, (ofText nines).result = .ok reading) ∧
      (∃ reading, (ofText one).result = .ok reading) ∧
      (ofText (nines ++ one)).result = .error .tooLongToWrite := by
  intro zeros nines one
  have zerosSpelled : Chunk.NumberSpelled .plus zeros zeros :=
    Chunk.numberSpelled_replicate (by decide) (by decide)
  have ninesSpelled : Chunk.NumberSpelled .plus nines nines :=
    Chunk.numberSpelled_replicate (by decide) (by decide)
  have oneSpelled : Chunk.NumberSpelled .plus ['1'] one :=
    .intro .plus (by decide) (Decimal.digits_naturalText 1)
  have zerosLength : zeros.length = 4301 := List.length_replicate
  have ninesLength : nines.length = 4300 := List.length_replicate
  have zerosLong : Decimal.digitLimit < zeros.length := by
    rw [zerosLength]
    decide
  have ninesShort : nines.length ≤ Decimal.digitLimit := by
    rw [ninesLength]
    decide
  refine ⟨?_, exists_ofText_eq_ok ninesShort, exists_ofText_eq_ok (by decide), ?_⟩
  · have squeezed : zeros.squeeze = zeros := List.filter_replicate_of_pos (by decide)
    rw [ofText_of_longNumber zerosSpelled squeezed zerosLong, zerosLength]
  · have squeezed : nines.squeeze = nines := List.filter_replicate_of_pos (by decide)
    have opens : Chunk.Opens one.squeeze := by
      intro point first
      cases first
      decide
    have readAs := (isReadAs_number ninesSpelled squeezed ninesShort).append
      (isReadAs_number oneSpelled (by decide) (by decide)) opens
    apply readAs.ofText_eq_tooLongToWrite
    -- The nines are one below the limit, which the one behind them reaches.
    have reached : Decimal.valueOf nines + 1 = tenTo Decimal.digitLimit :=
      Decimal.valueOf_nines Decimal.digitLimit
    have last : Decimal.valueOf ['1'] = 1 := by decide
    simp only [List.cons_append, List.nil_append, List.map_cons, List.map_nil, Piece.flat,
      wholeTotal_cons, wholeTotal_nil, Sign.factor, last, Decimal.Writable, ← reached]
    omega

end DiceLab
