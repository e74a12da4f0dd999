import DiceLab.Proofs.Formula.Readable

/-! Reading two texts that are put together: where the second opens a chunk, neither changes what the
other one is read as. -/

namespace DiceLab

namespace Reading

/-- The formula and the ignored chunks of one reading, followed by those of another. -/
def append (first second : Reading) : Reading where
  formula := {
    terms := first.formula.terms ++ second.formula.terms
    modifier := first.formula.modifier + second.formula.modifier }
  ignored := first.ignored ++ second.ignored

/-- What pieces are made into is made of each of two lists of them. -/
theorem ofPieces_append (first second : List Piece) :
    ofPieces (first ++ second) = (ofPieces first).append (ofPieces second) := by
  simp only [ofPieces, append, List.filterMap_append, List.map_append, wholeTotal_append,
    List.filter_append]

variable {text other : Text}

/-- A text is read as some pieces, which its reading is made of and its warnings are about. -/
theorem exists_isReadAs {reading : Reading} (ok : (ofText text).result = .ok reading) :
    ∃ pieces, IsReadAs text pieces ∧ reading = ofPieces pieces ∧
      Notice.warnings (ofText text).notices =
        (pieces.filter fun piece => !piece.isWhole).map Piece.warning := by
  obtain ⟨pieces, held, piecesRead, writable, made⟩ := ofText_eq_ok.mp ok
  exact ⟨pieces, isReadAs_iff.mpr ⟨held, piecesRead⟩, made,
    ofText_warnings held piecesRead writable⟩

/--
Two texts are read together as they are read alone, when the second one opens a chunk.

The one thing that can be too long for the two together is the sum of their flat numbers.
-/
theorem ofText_append (opens : Chunk.Opens other.squeeze) {first second : Reading}
    (readFirst : (ofText text).result = .ok first)
    (readSecond : (ofText other).result = .ok second) :
    ((∃ both, (ofText (text ++ other)).result = .ok both) ↔
        Decimal.Writable (first.formula.modifier + second.formula.modifier)) ∧
      ∀ both, (ofText (text ++ other)).result = .ok both →
        both.formula.terms = first.formula.terms ++ second.formula.terms ∧
        both.formula.modifier = first.formula.modifier + second.formula.modifier ∧
        both.ignored = first.ignored ++ second.ignored ∧
        Notice.warnings (ofText (text ++ other)).notices =
          Notice.warnings (ofText text).notices ++ Notice.warnings (ofText other).notices := by
  obtain ⟨pieces, readAs, rfl, warned⟩ := exists_isReadAs readFirst
  obtain ⟨others, otherReadAs, rfl, otherWarned⟩ := exists_isReadAs readSecond
  have together := readAs.append otherReadAs opens
  constructor
  · have total : wholeTotal ((pieces ++ others).map Piece.flat) =
        (ofPieces pieces).formula.modifier + (ofPieces others).formula.modifier := by
      rw [List.map_append, wholeTotal_append]
      rfl
    rw [exists_ofText_iff, ← total]
    constructor
    · rintro ⟨read, readTogether, writable⟩
      rwa [readTogether.unique together] at writable
    · intro writable
      exact ⟨_, together, writable⟩
  · intro both readBoth
    obtain ⟨read, readTogether, rfl, bothWarned⟩ := exists_isReadAs readBoth
    -- There is one way to read the two together, and it has been found above.
    obtain rfl := readTogether.unique together
    rw [ofPieces_append, bothWarned, warned, otherWarned, List.filter_append, List.map_append]
    exact ⟨rfl, rfl, rfl, rfl⟩

/-- A text that ends in a sign is read with one that starts with blanks before its sign. -/
theorem ofText_append_signs :
    let text : Text := "2D6x -"
    let other : Text := " \x0b+٣ y-0d4"
    let terms : List Term := [⟨.plus, 2, .numeric 6 (by decide), by decide⟩]
    Chunk.Opens other.squeeze ∧
      (ofText text).result = .ok ⟨⟨terms, 0⟩, ["2D6x", "-"]⟩ ∧
      (ofText other).result = .ok ⟨⟨[], 3⟩, ["+٣y", "-0d4"]⟩ ∧
      (ofText (text ++ other)).result = .ok ⟨⟨terms, 3⟩, ["2D6x", "-", "+٣y", "-0d4"]⟩ := by
  intro text other terms
  have opens : Chunk.Opens other.squeeze := by
    have squeezed : other.squeeze = "+٣y-0d4" := by decide
    rw [squeezed]
    intro point first
    cases first
    rfl
  have readFirst : (ofText text).result = .ok ⟨⟨terms, 0⟩, ["2D6x", "-"]⟩ := by decide +kernel
  have readSecond : (ofText other).result = .ok ⟨⟨[], 3⟩, ["+٣y", "-0d4"]⟩ := by decide +kernel
  refine ⟨opens, readFirst, readSecond, ?_⟩
  obtain ⟨read, same⟩ := ofText_append opens readFirst readSecond
  obtain ⟨⟨⟨bothTerms, modifier⟩, ignored⟩, ok⟩ := read.mpr (by decide +kernel)
  obtain ⟨rfl, rfl, rfl, -⟩ := same _ ok
  exact ok

end Reading

end DiceLab
