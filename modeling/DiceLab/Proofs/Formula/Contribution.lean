import DiceLab.Proofs.Formula.Grammar
import DiceLab.Proofs.Report

/-! What a chunk contributes to a formula, by what it starts with. -/

namespace DiceLab.Chunk

/-- The number of dice that a count stands for; without digits it is one. -/
def countOf (count : Text) : Nat := if count = [] then 1 else Decimal.valueOf count

/-- A die has at least one of everything that is counted: dice, and sides where they are. -/
def IsValid (count : Text) : SidesText → Prop
  | .fudge => 0 < countOf count
  | .digits run => 0 < countOf count ∧ 0 < Decimal.valueOf run

instance (count : Text) (sides : SidesText) : Decidable (IsValid count sides) := by
  cases sides <;> unfold IsValid <;> infer_instance

/-- Sides stand for the Fudge die, or for the numeric die with as many sides as they say. -/
inductive FaceSpelled : SidesText → Face → Prop where
  | fudge : FaceSpelled .fudge .fudge
  | numeric {run : Text} (positive : 0 < Decimal.valueOf run) :
      FaceSpelled (.digits run) (.numeric (Decimal.valueOf run) positive)

/-- The spelling of a die stands for a term. -/
structure Denotes (sign : Sign) (count : Text) (sides : SidesText) (term : Term) : Prop where
  signed : term.sign = sign
  counted : term.count = countOf count
  faced : FaceSpelled sides term.face

/-- What a chunk contributes, and the text behind that; a chunk that contributes nothing is left
whole. -/
inductive Contributes (chunk : Text) : Part → Text → Prop where
  /-- A valid die at the start is one term, whatever follows it. -/
  | die {sign : Sign} {count : Text} {sides : SidesText} {rest : Text} {term : Term}
      (starts : StartsWithDie chunk sign count sides rest) (valid : IsValid count sides)
      (denotes : Denotes sign count sides term) : Contributes chunk (.term term) rest
  /-- A die without dice or without sides is not even read as a number. -/
  | invalid {sign : Sign} {count : Text} {sides : SidesText} {rest : Text}
      (starts : StartsWithDie chunk sign count sides rest) (invalid : ¬IsValid count sides) :
      Contributes chunk .nothing chunk
  | number {sign : Sign} {digits rest : Text} (noDie : ¬HasDie chunk)
      (starts : StartsWithNumber chunk sign digits rest) :
      Contributes chunk (.flat (sign.factor * Decimal.valueOf digits)) rest
  | neither (noDie : ¬HasDie chunk) (noNumber : ¬HasNumber chunk) : Contributes chunk .nothing chunk

/-- A chunk is one valid die or one whole number from its start to its end. -/
def IsItem (chunk : Text) : Prop :=
  (∃ sign count sides, DieSpelled sign count sides chunk ∧ IsValid count sides) ∨
    ∃ sign digits, NumberSpelled sign digits chunk

/-- A chunk leads with an item and nothing behind it. -/
def IsItemLead : Lead → Prop
  | .die _ count sides rest => rest = [] ∧ IsValid count sides
  | .number _ _ rest => rest = []
  | .neither => False

instance (lead : Lead) : Decidable (IsItemLead lead) := by
  cases lead <;> unfold IsItemLead <;> infer_instance

/-- A number behind nothing but its sign does not start with a die. -/
theorem NumberSpelled.noDie {sign : Sign} {digits chunk : Text}
    (spelled : NumberSpelled sign digits chunk) : ¬HasDie chunk := by
  obtain ⟨signed, nonempty, counted⟩ := spelled
  rintro ⟨_, _, _, _, starts⟩
  -- Sign and digits take up the chunk, so no letter is left for a die.
  have led := lead_eq_die.mpr starts
  have taken := takeDigits_append counted Decimal.ends_nil
  rw [List.append_nil] at taken
  have signless : Unsigned (_ ++ []) := unsigned_digits nonempty counted
  rw [List.append_nil] at signless
  simp only [lead, takeSign_append signed signless, taken] at led
  obtain ⟨-, -, _, _, _, _, behind, _⟩ := leadOf_eq_die.mp led
  simp at behind

/-- Whether a chunk is an item is told by what it leads with. -/
theorem isItem_iff_lead {chunk : Text} : IsItem chunk ↔ IsItemLead (lead chunk) := by
  constructor
  · -- A chunk that is spelled as an item leads with it, and nothing is behind.
    rintro (⟨sign, count, sides, spelled, valid⟩ | ⟨sign, digits, spelled⟩)
    · have led := lead_eq_die.mpr ⟨chunk, spelled, (List.append_nil chunk).symm,
        .inr Decimal.ends_nil⟩
      rw [led]
      exact ⟨rfl, valid⟩
    · have led := lead_eq_number.mpr ⟨spelled.noDie, chunk, spelled,
        (List.append_nil chunk).symm, Decimal.ends_nil⟩
      rw [led]
      exact rfl
  · -- With nothing behind it, what the chunk leads with is the whole chunk.
    intro item
    cases led : lead chunk with
    | neither =>
      rw [led] at item
      exact item.elim
    | die sign count sides rest =>
      rw [led] at item
      obtain ⟨rfl, valid⟩ := item
      obtain ⟨die, spelled, rfl, -⟩ := lead_eq_die.mp led
      exact .inl ⟨sign, count, sides, by simpa using spelled, valid⟩
    | number sign digits rest =>
      rw [led] at item
      obtain rfl : rest = [] := item
      obtain ⟨-, number, spelled, rfl, -⟩ := lead_eq_number.mp led
      exact .inr ⟨sign, digits, by simpa using spelled⟩

instance (chunk : Text) : Decidable (IsItem chunk) := decidable_of_iff _ isItem_iff_lead.symm

/-- A count that is read is the number of dice it stands for. -/
theorem readCount_eq_ok {count : Text} {value : Nat} (read : readCount count = .ok value) :
    value = countOf count := by
  -- Only a count that is left out is not read from its digits.
  simp only [readCount, List.isEmpty_iff] at read
  rw [countOf]
  split at read
  · rename_i empty
    simp only [Except.ok.injEq] at read
    rw [if_pos empty, read]
  · rename_i nonempty
    rw [if_neg nonempty]
    exact (Decimal.readDigits_eq_ok.mp read).2

/-- Sides that are read name the face they are spelled for, and none when there are no sides. -/
theorem readSides_eq_ok {sides : SidesText} {face : Option Face}
    (read : readSides sides = .ok face) (named : Face) :
    face = some named ↔ FaceSpelled sides named := by
  cases sides with
  | fudge =>
    simp only [readSides, Except.ok.injEq] at read
    subst read
    constructor
    · rintro ⟨rfl⟩
      exact .fudge
    · rintro ⟨⟩
      rfl
  | digits run =>
    obtain ⟨value, readRun, found⟩ := bind_eq_ok.mp read
    obtain rfl := (Decimal.readDigits_eq_ok.mp readRun).2
    obtain rfl : Face.ofSides? (Decimal.valueOf run : Int) = face := by
      simpa [pure, Except.pure] using found
    -- There is a face exactly when there are sides, and it has as many of them.
    simp only [Face.ofSides?, Int.toNat_natCast]
    constructor
    · intro made
      split at made
      · rename_i positive
        cases made
        exact .numeric positive
      · cases made
    · intro spelled
      cases spelled with
      | numeric positive => exact dif_pos positive

/-- A die has a face to be spelled exactly when it is not numeric or has sides. -/
theorem isValid_iff {count : Text} {sides : SidesText} :
    IsValid count sides ↔ 0 < countOf count ∧ ∃ face, FaceSpelled sides face := by
  cases sides with
  | fudge => exact ⟨fun positive => ⟨positive, _, .fudge⟩, And.left⟩
  | digits run =>
    refine ⟨fun ⟨counted, positive⟩ => ⟨counted, _, .numeric positive⟩, ?_⟩
    -- Sides that spell a face are not zero, because a face has none without sides.
    rintro ⟨counted, _, spelled⟩
    cases spelled with
    | numeric positive => exact ⟨counted, positive⟩

/-- There is a term exactly when there are dice and they have a face, and it is made of these. -/
theorem termOf_eq_some {sign : Sign} {count : Nat} {face : Option Face} {term : Term} :
    termOf sign count face = some term ↔
      ∃ named, face = some named ∧ ∃ positive, term = ⟨sign, count, named, positive⟩ := by
  cases face with
  | none => simp [termOf]
  | some named =>
    by_cases positive : 0 < count
    · simp [termOf, positive, eq_comm]
    · simp [termOf, positive]

/-- What is read from a chunk is what the grammar says it contributes. -/
theorem contributes_of_read {chunk rest : Text} {part : Part}
    (read : Chunk.read chunk = .ok (part, rest)) : Contributes chunk part rest := by
  simp only [Chunk.read] at read
  -- What the chunk leads with decides which rule of the grammar it falls under.
  cases led : lead chunk with
  | neither =>
    simp only [led, Except.ok.injEq, Prod.mk.injEq] at read
    obtain ⟨rfl, rfl⟩ := read
    obtain ⟨noDie, noNumber⟩ := lead_eq_neither.mp led
    exact .neither noDie noNumber
  | number sign digits behind =>
    simp only [led] at read
    obtain ⟨value, readDigits, made⟩ := bind_eq_ok.mp read
    obtain rfl := (Decimal.readDigits_eq_ok.mp readDigits).2
    cases made
    obtain ⟨noDie, starts⟩ := lead_eq_number.mp led
    exact .number noDie starts
  | die sign count sides behind =>
    simp only [led] at read
    have starts := lead_eq_die.mp led
    obtain ⟨dice, counted, read⟩ := bind_eq_ok.mp read
    obtain ⟨face, sided, made⟩ := bind_eq_ok.mp read
    obtain rfl := readCount_eq_ok counted
    -- A die contributes exactly when there are dice and they have a face.
    cases found : termOf sign (countOf count) face with
    | some term =>
      rw [found] at made
      cases made
      obtain ⟨named, rfl, positive, rfl⟩ := termOf_eq_some.mp found
      have spelled := (readSides_eq_ok sided named).mp rfl
      exact .die starts (isValid_iff.mpr ⟨positive, named, spelled⟩) ⟨rfl, rfl, spelled⟩
    | none =>
      rw [found] at made
      cases made
      refine .invalid starts fun valid => ?_
      obtain ⟨positive, named, spelled⟩ := isValid_iff.mp valid
      obtain rfl := (readSides_eq_ok sided named).mpr spelled
      have built : termOf sign (countOf count) (some named) =
          some ⟨sign, countOf count, named, positive⟩ :=
        termOf_eq_some.mpr ⟨named, rfl, positive, rfl⟩
      rw [found] at built
      cases built

/-- The spelling of a die stands for one term. -/
theorem Denotes.unique {sign : Sign} {count : Text} {sides : SidesText} {first second : Term}
    (one : Denotes sign count sides first) (other : Denotes sign count sides second) :
    first = second := by
  obtain ⟨firstSign, firstCount, firstFace, _⟩ := first
  obtain ⟨secondSign, secondCount, secondFace, _⟩ := second
  obtain ⟨rfl, rfl, faced⟩ := one
  obtain ⟨rfl, rfl, otherFaced⟩ := other
  -- Sides are of one kind, and each kind has one face.
  cases faced with
  | fudge =>
    cases otherFaced
    rfl
  | numeric positive =>
    cases otherFaced
    rfl

/-- A chunk contributes one thing only. -/
theorem Contributes.unique {chunk rest otherRest : Text} {part other : Part}
    (one : Contributes chunk part rest) (two : Contributes chunk other otherRest) :
    part = other ∧ rest = otherRest := by
  -- What a chunk starts with is told by either side, and it starts with one die or number only.
  cases one with
  | die starts valid denotes =>
    cases two with
    | die otherStarts _ otherDenotes =>
      obtain ⟨rfl, rfl, rfl, rfl⟩ := starts.unique otherStarts
      exact ⟨congrArg Part.term (denotes.unique otherDenotes), rfl⟩
    | invalid otherStarts invalid =>
      obtain ⟨-, rfl, rfl, -⟩ := starts.unique otherStarts
      exact absurd valid invalid
    | number noDie _ => exact absurd ⟨_, _, _, _, starts⟩ noDie
    | neither noDie _ => exact absurd ⟨_, _, _, _, starts⟩ noDie
  | invalid starts invalid =>
    cases two with
    | die otherStarts valid _ =>
      obtain ⟨-, rfl, rfl, -⟩ := starts.unique otherStarts
      exact absurd valid invalid
    | invalid _ _ => exact ⟨rfl, rfl⟩
    | number noDie _ => exact absurd ⟨_, _, _, _, starts⟩ noDie
    | neither noDie _ => exact ⟨rfl, rfl⟩
  | number noDie starts =>
    cases two with
    | die otherStarts _ _ => exact absurd ⟨_, _, _, _, otherStarts⟩ noDie
    | invalid otherStarts _ => exact absurd ⟨_, _, _, _, otherStarts⟩ noDie
    | number _ otherStarts =>
      obtain ⟨rfl, rfl, rfl⟩ := StartsWithNumber.unique noDie starts otherStarts
      exact ⟨rfl, rfl⟩
    | neither _ noNumber => exact absurd ⟨_, _, _, starts⟩ noNumber
  | neither noDie noNumber =>
    cases two with
    | die otherStarts _ _ => exact absurd ⟨_, _, _, _, otherStarts⟩ noDie
    | invalid _ _ => exact ⟨rfl, rfl⟩
    | number _ otherStarts => exact absurd ⟨_, _, _, otherStarts⟩ noNumber
    | neither _ _ => exact ⟨rfl, rfl⟩

/-- Nothing is left behind what a chunk contributes exactly when the chunk is an item. -/
theorem Contributes.rest_eq_nil {chunk rest : Text} {part : Part} (nonempty : chunk ≠ [])
    (contributes : Contributes chunk part rest) : rest = [] ↔ IsItem chunk := by
  -- A chunk that contributes nothing stays whole behind it, and no chunk is empty.
  rw [isItem_iff_lead]
  cases contributes with
  | die starts valid _ => simp [lead_eq_die.mpr starts, IsItemLead, valid]
  | invalid starts invalid => simp [lead_eq_die.mpr starts, IsItemLead, invalid, nonempty]
  | number noDie starts => simp [lead_eq_number.mpr ⟨noDie, starts⟩, IsItemLead]
  | neither noDie noNumber =>
    simp [lead_eq_neither.mpr ⟨noDie, noNumber⟩, IsItemLead, nonempty]

/-- A sign in front of code points that are none is one chunk with them. -/
theorem isChunk_of_signed {sign : Sign} {signText body : Text} (signed : SignSpelled sign signText)
    (nonempty : body ≠ []) (signless : ∀ point ∈ body, isSign point = false) :
    IsChunk (signText ++ body) := by
  -- A sign only starts a chunk, so the body behind it must hold none.
  cases signed with
  | absent => exact ⟨nonempty, fun point member => signless point (List.mem_of_mem_tail member)⟩
  | plus => exact ⟨by simp, signless⟩
  | minus => exact ⟨by simp, signless⟩

/-- No sign stands among the sides of a die. -/
theorem SidesSpelled.signless {sides : SidesText} {text : Text}
    (spelled : SidesSpelled sides text) : ∀ point ∈ text, isSign point = false := by
  cases spelled with
  | digits _ digits => exact fun point member => isSign_of_isDigit (digits point member)
  | small => decide
  | capital => decide

/-- An item is one chunk. -/
theorem IsItem.isChunk {chunk : Text} (item : IsItem chunk) : IsChunk chunk := by
  rcases item with
    ⟨_, _, _, ⟨signed, counted, lettered, sided⟩, -⟩ | ⟨_, _, signed, nonempty, counted⟩
  · -- Behind the sign there are digits, a letter and sides, none of which is a sign.
    refine isChunk_of_signed signed (by simp) fun point member => ?_
    simp only [List.mem_append, List.mem_cons] at member
    rcases member with digit | rfl | side
    · exact isSign_of_isDigit (counted point digit)
    · rcases lettered with rfl | rfl
      · decide
      · decide
    · exact sided.signless point side
  · exact isChunk_of_signed signed nonempty fun point member =>
      isSign_of_isDigit (counted point member)

/-- A text is a sequence of items, of which each but the first starts with a sign. -/
def IsSequence (text : Text) : Prop :=
  -- Without the signs between them, two numbers would be one.
  ∃ items : List Text, items.flatten = text ∧ (∀ item ∈ items, IsItem item) ∧
    ∀ item ∈ items.tail, Opens item

/-- A text is a sequence of items exactly when all its chunks are items. -/
theorem isSequence_iff {text : Text} : IsSequence text ↔ ∀ chunk ∈ cut text, IsItem chunk := by
  constructor
  · rintro ⟨items, joined, whole, opened⟩
    -- Items are chunks, so they are the chunks of the text that they make up.
    have division : IsCut text items :=
      ⟨joined, fun item member => (whole item member).isChunk, opened⟩
    rwa [← division.eq_cut]
  · -- The chunks themselves are such a sequence.
    intro whole
    exact ⟨cut text, (isCut_cut text).joined, whole, (isCut_cut text).opened⟩

end DiceLab.Chunk
