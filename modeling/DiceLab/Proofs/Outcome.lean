import DiceLab.Proofs.Face.Resolution
import DiceLab.Proofs.Formula.RoundTrip
import DiceLab.Proofs.Roll

/-! The breakdown of a roll tells its throws, one by one, and its modifier. -/

namespace DiceLab

/-- The text in front of the first mark, and all from the mark on, are told by the whole text. -/
theorem Text.eq_of_append_eq {mark : CodePoint} {front other rest behind : Text}
    (absent : mark ∉ front) (otherAbsent : mark ∉ other)
    (marked : ∀ point, rest.head? = some point → point = mark)
    (otherMarked : ∀ point, behind.head? = some point → point = mark)
    (same : front ++ rest = other ++ behind) : front = other ∧ rest = behind := by
  -- Each front is what the whole text has before its first mark.
  have taken : ∀ {front rest : Text}, mark ∉ front →
      (∀ point, rest.head? = some point → point = mark) →
        (front ++ rest).takeWhile (· != mark) = front := by
    intro front rest absent marked
    have none : rest.takeWhile (· != mark) = [] := by
      cases rest with
      | nil => rfl
      | cons point rest =>
        obtain rfl := marked point rfl
        simp
    rw [List.takeWhile_append_of_pos, none, List.append_nil]
    rintro point member
    exact bne_iff_ne.mpr fun here => absent (here ▸ member)
  have fronts : front = other := by
    rw [← taken absent marked, same, taken otherAbsent otherMarked]
  subst fronts
  exact ⟨rfl, List.append_cancel_left same⟩

namespace Decimal

/-- Natural numbers are told by their texts. -/
theorem naturalText_injective : Function.Injective naturalText :=
  Function.LeftInverse.injective valueOf_naturalText

/-- Nothing but digits stands in a natural number. -/
theorem notMem_naturalText {point : CodePoint} (other : isDigit point = false) (value : Nat) :
    point ∉ naturalText value := by
  intro member
  rw [digits_naturalText value point member] at other
  cases other

/-- What stands between numbers in a breakdown is no part of a natural number. -/
theorem mark_notMem_naturalText {mark : Char} (known : mark ∈ ['-', ' ', 'd']) (value : Nat) :
    CodePoint.char mark ∉ naturalText value := by
  have others : ∀ mark ∈ ['-', ' ', 'd'], isDigit (.char mark) = false := by
    simp only [List.forall_mem_cons]
    exact ⟨by decide +kernel, by decide +kernel, by decide +kernel, by simp⟩
  exact notMem_naturalText (others mark known) value

/-- Whole numbers are told by their texts. -/
theorem wholeText_injective : Function.Injective wholeText := by
  have unsigned := @mark_notMem_naturalText '-' (by decide)
  intro first second same
  simp only [wholeText] at same
  -- A minus sign tells on which side of zero both of them are.
  split at same
  · split at same
    · have sizes := naturalText_injective (List.cons.inj same).2
      omega
    · exact absurd (same ▸ List.mem_cons_self) (unsigned second.natAbs)
  · split at same
    · exact absurd (same ▸ List.mem_cons_self) (unsigned first.natAbs)
    · have sizes := naturalText_injective same
      omega

end Decimal

namespace Throw

/-- A throw is shown as one die of its face, with its value in brackets. -/
theorem shown_eq (thrown : Throw) :
    thrown.shown = .char '1' :: (thrown.die.face.tagText ++
      .char '(' :: (Decimal.wholeText thrown.value ++ [.char ')'])) := by
  simp [shown, Text.ofString]

/-- The part of a throw in a breakdown. -/
def part (thrown : Throw) : Sign × Text := (thrown.die.sign, thrown.shown)

/-- Throws are told by their parts. -/
theorem part_injective : Function.Injective part := by
  rintro ⟨⟨sign, face⟩, value⟩ ⟨⟨otherSign, otherFace⟩, otherValue⟩ same
  rw [part, part, Prod.mk.injEq, shown_eq, shown_eq, List.cons.injEq] at same
  obtain ⟨rfl, -, shown⟩ := same
  -- No bracket stands in a face, so the first one parts the face from the value.
  have unbracketed (face : Face) : CodePoint.char '(' ∉ face.tagText := by
    rw [Face.tagText, List.mem_cons, not_or]
    exact ⟨by decide, fun member => absurd (face.sidesText_plain _ member) (by decide)⟩
  obtain ⟨tags, values⟩ := Text.eq_of_append_eq (unbracketed _) (unbracketed _)
    (by simp) (by simp) shown
  rw [List.cons.injEq, List.append_cancel_right_eq] at values
  obtain rfl := Face.tagText_injective tags
  obtain rfl := Decimal.wholeText_injective values.2
  rfl

/-- A throw shows the letter of a die. -/
theorem letter_mem_shown (thrown : Throw) : CodePoint.char 'd' ∈ thrown.shown := by
  simp [shown_eq, Face.tagText]

end Throw

namespace Outcome

/-- A part of a breakdown has no space in it and no sign of its own in front. -/
structure IsPart (text : Text) : Prop where
  spaceless : CodePoint.char ' ' ∉ text
  unsigned : ∃ point rest, text = point :: rest ∧ point ≠ .char '-'

/-- A natural number is a part. -/
theorem isPart_naturalText (value : Nat) : IsPart (Decimal.naturalText value) where
  spaceless := Decimal.mark_notMem_naturalText (by decide) value
  unsigned := by
    obtain ⟨point, rest, written⟩ := List.exists_cons_of_ne_nil (Decimal.naturalText_ne_nil value)
    refine ⟨point, rest, written, ?_⟩
    rintro rfl
    -- A sign in front would be one of its characters, and these are all digits.
    have absent := @Decimal.mark_notMem_naturalText '-' (by decide) value
    exact absent (written ▸ List.mem_cons_self)

/-- A throw is a part. -/
theorem isPart_shown (thrown : Throw) : IsPart thrown.shown where
  spaceless := by
    -- Neither the sides nor the value is written with a space.
    have sides : CodePoint.char ' ' ∉ thrown.die.face.sidesText := fun member =>
      absurd (thrown.die.face.sidesText_plain _ member) (by decide)
    have value : CodePoint.char ' ' ∉ Decimal.wholeText thrown.value := fun member => by
      rw [Decimal.wholeText_eq] at member
      exact absurd (Decimal.signedText_plain true thrown.value _ member) (by decide)
    simp [Throw.shown_eq, Face.tagText, sides, value]
  unsigned := ⟨_, _, thrown.shown_eq, by decide⟩

/-- The part of a modifier, which is left out when it is zero. -/
def modifierParts (modifier : Int) : List (Sign × Text) :=
  if modifier = 0 then [] else [(Sign.ofWhole modifier, Decimal.naturalText modifier.natAbs)]

/-- The parts are those of the throws, and that of the modifier behind them. -/
theorem parts_eq (outcome : Outcome) :
    outcome.parts = outcome.throws.map Throw.part ++ modifierParts outcome.modifier := rfl

/-- The parts of a modifier do not start with a throw. -/
theorem modifierParts_ne_cons (modifier : Int) (thrown : Throw) (rest : List (Sign × Text)) :
    modifierParts modifier ≠ thrown.part :: rest := by
  intro same
  have letter := thrown.letter_mem_shown
  rw [modifierParts] at same
  split at same
  · cases same
  · -- A throw shows the letter of a die, and a number has none.
    rw [List.cons.injEq, Throw.part, Prod.mk.injEq] at same
    rw [← same.1.2] at letter
    exact absurd letter (Decimal.mark_notMem_naturalText (by decide) _)

/-- Modifiers are told by their parts. -/
theorem modifierParts_injective : Function.Injective modifierParts := by
  intro first second same
  simp only [modifierParts] at same
  split at same
  · split at same
    · omega
    · cases same
  · split at same
    · cases same
    · -- The sign and the size make up the number.
      simp only [List.cons.injEq, Prod.mk.injEq, and_true] at same
      rw [← Sign.factor_ofWhole first, ← Sign.factor_ofWhole second, same.1,
        Decimal.naturalText_injective same.2]

/-- Throws and a modifier are told by their parts. -/
theorem eq_of_parts {throws others : List Throw} {modifier other : Int}
    (same : throws.map Throw.part ++ modifierParts modifier =
      others.map Throw.part ++ modifierParts other) :
    throws = others ∧ modifier = other := by
  -- Throws are taken off in front of both, until one side has none left.
  induction throws generalizing others with
  | nil =>
    cases others with
    | nil => exact ⟨rfl, modifierParts_injective same⟩
    | cons thrown others => exact absurd same (modifierParts_ne_cons _ _ _)
  | cons thrown throws ih =>
    cases others with
    | nil => exact absurd same.symm (modifierParts_ne_cons _ _ _)
    | cons otherThrown others =>
      rw [List.map_cons, List.map_cons, List.cons_append, List.cons_append, List.cons.injEq] at same
      obtain ⟨rfl, rfl⟩ := ih same.2
      exact ⟨by rw [Throw.part_injective same.1], rfl⟩

/-- The parts of a breakdown are parts. -/
theorem isPart_of_mem {outcome : Outcome} {part : Sign × Text} (member : part ∈ outcome.parts) :
    IsPart part.2 := by
  rw [parts_eq, List.mem_append] at member
  rcases member with thrown | flat
  · obtain ⟨die, -, rfl⟩ := List.mem_map.mp thrown
    exact isPart_shown die
  · -- A modifier of zero has no part.
    rw [modifierParts] at flat
    split at flat
    · cases flat
    · rw [List.mem_singleton.mp flat]
      exact isPart_naturalText _

/-- Further parts start with a space. -/
theorem head?_flatMap_joined (parts : List (Sign × Text)) :
    ∀ point, (parts.flatMap joined).head? = some point → point = .char ' ' := by
  intro point first
  cases parts with
  | nil => cases first
  | cons part rest =>
    -- Either sign is written between spaces.
    obtain ⟨_ | _, text⟩ := part
    · exact (Option.some.inj first).symm
    · exact (Option.some.inj first).symm

/-- A part ends where the next one is joined to it. -/
theorem IsPart.eq_of_append {text other : Text} (part : IsPart text) (otherPart : IsPart other)
    {parts others : List (Sign × Text)}
    (same : text ++ parts.flatMap joined = other ++ others.flatMap joined) :
    text = other ∧ parts.flatMap joined = others.flatMap joined :=
  -- The next part is joined with a space, and there is none inside a part.
  Text.eq_of_append_eq part.spaceless otherPart.spaceless (head?_flatMap_joined parts)
    (head?_flatMap_joined others) same

/-- Further parts are told by how they are joined. -/
theorem eq_of_flatMap_joined {parts others : List (Sign × Text)}
    (each : ∀ part ∈ parts, IsPart part.2) (otherEach : ∀ part ∈ others, IsPart part.2)
    (same : parts.flatMap joined = others.flatMap joined) : parts = others := by
  -- Parts are split off in front of both, one at a time.
  induction parts generalizing others with
  | nil =>
    cases others with
    | nil => rfl
    | cons other others =>
      obtain ⟨_ | _, text⟩ := other
      · cases same
      · cases same
  | cons part parts ih =>
    cases others with
    | nil =>
      obtain ⟨_ | _, text⟩ := part
      · cases same
      · cases same
    | cons other others =>
      rw [List.forall_mem_cons] at each otherEach
      obtain ⟨sign, text⟩ := part
      obtain ⟨otherSign, otherText⟩ := other
      -- The sign stands between two spaces, and the part goes on to the next one.
      have inside : sign = otherSign ∧
          text ++ parts.flatMap joined = otherText ++ others.flatMap joined := by
        cases sign with
        | plus =>
          cases otherSign with
          | plus => exact ⟨rfl, by simpa [joined, Text.ofString] using same⟩
          | minus => simp [joined, Text.ofString] at same
        | minus =>
          cases otherSign with
          | plus => simp [joined, Text.ofString] at same
          | minus => exact ⟨rfl, by simpa [joined, Text.ofString] using same⟩
      obtain ⟨rfl, texts⟩ := inside
      obtain ⟨rfl, behind⟩ := each.1.eq_of_append otherEach.1 texts
      rw [ih each.2 otherEach.2 behind]

/-- A breakdown is its first part, a plus being left out, and the further parts joined to it. -/
theorem breakdown_of_parts {outcome : Outcome} {part : Sign × Text} {rest : List (Sign × Text)}
    (parts : outcome.parts = part :: rest) :
    outcome.breakdown = part.1.written true ++ (part.2 ++ rest.flatMap joined) := by
  obtain ⟨_ | _, text⟩ := part
  · simp [breakdown, parts, Sign.written]
  · simp [breakdown, parts, Sign.written, Text.ofString]

/-- The breakdown of a modifier alone is that number, be it zero or not. -/
theorem breakdown_of_modifier {outcome : Outcome} (none : outcome.throws = []) :
    outcome.breakdown = Decimal.wholeText outcome.modifier := by
  have parts : outcome.parts = modifierParts outcome.modifier := by
    rw [parts_eq, none, List.map_nil, List.nil_append]
  -- Zero has no part of its own and is shown in place of nothing.
  by_cases zero : outcome.modifier = 0
  · rw [modifierParts, if_pos zero] at parts
    rw [breakdown, parts]
  · rw [modifierParts, if_neg zero] at parts
    rw [breakdown_of_parts parts, Decimal.wholeText_eq, List.flatMap_nil, List.append_nil,
      Decimal.signedText]

/-- Where something was thrown, a breakdown shows the letter of a die. -/
theorem letter_mem_breakdown {outcome : Outcome} (some : outcome.throws ≠ []) :
    CodePoint.char 'd' ∈ outcome.breakdown := by
  obtain ⟨thrown, rest, throws⟩ := List.exists_cons_of_ne_nil some
  have parts := parts_eq outcome
  rw [throws, List.map_cons, List.cons_append] at parts
  rw [breakdown_of_parts parts]
  -- The first throw already has the letter in its tag.
  exact List.mem_append_right _ (List.mem_append_left _ thrown.letter_mem_shown)

/-- No whole number shows the letter of a die. -/
theorem letter_notMem_wholeText (value : Int) : CodePoint.char 'd' ∉ Decimal.wholeText value := by
  have digits := @Decimal.mark_notMem_naturalText 'd' (by decide) value.natAbs
  rw [Decimal.wholeText]
  split
  · simp [digits]
  · exact digits

/-- Parts are told by the breakdown that starts with them. -/
theorem eq_of_written {part other : Sign × Text} {parts others : List (Sign × Text)}
    (each : ∀ piece ∈ part :: parts, IsPart piece.2)
    (otherEach : ∀ piece ∈ other :: others, IsPart piece.2)
    (same : part.1.written true ++ (part.2 ++ parts.flatMap joined) =
      other.1.written true ++ (other.2 ++ others.flatMap joined)) :
    part :: parts = other :: others := by
  rw [List.forall_mem_cons] at each otherEach
  obtain ⟨sign, text⟩ := part
  obtain ⟨otherSign, otherText⟩ := other
  obtain ⟨first, rest, firstText, firstUnsigned⟩ := each.1.unsigned
  obtain ⟨otherFirst, otherRest, otherFirstText, otherUnsigned⟩ := otherEach.1.unsigned
  -- Only a minus sign stands in front of a part, and no part starts with one of its own.
  have inside : sign = otherSign ∧
      text ++ parts.flatMap joined = otherText ++ others.flatMap joined := by
    cases sign with
    | plus =>
      cases otherSign with
      | plus => exact ⟨rfl, same⟩
      | minus =>
        dsimp only at firstText
        rw [firstText] at same
        exact absurd (List.cons.inj same).1 firstUnsigned
    | minus =>
      cases otherSign with
      | plus =>
        dsimp only at otherFirstText
        rw [otherFirstText] at same
        exact absurd (List.cons.inj same).1.symm otherUnsigned
      | minus => exact ⟨rfl, (List.cons.inj same).2⟩
  obtain ⟨rfl, texts⟩ := inside
  obtain ⟨rfl, behind⟩ := each.1.eq_of_append otherEach.1 texts
  rw [eq_of_flatMap_joined each.2 otherEach.2 behind]

variable {first second : Outcome}

/-- Throws and modifiers are told by breakdowns. -/
theorem eq_of_breakdown (same : first.breakdown = second.breakdown) :
    first.throws = second.throws ∧ first.modifier = second.modifier := by
  by_cases none : first.throws = []
  · by_cases otherNone : second.throws = []
    · rw [breakdown_of_modifier none, breakdown_of_modifier otherNone] at same
      exact ⟨none.trans otherNone.symm, Decimal.wholeText_injective same⟩
    · -- Only one of the two breakdowns would have a die in it.
      have letter := letter_mem_breakdown otherNone
      rw [← same, breakdown_of_modifier none] at letter
      exact absurd letter (letter_notMem_wholeText _)
  · by_cases otherNone : second.throws = []
    · have letter := letter_mem_breakdown none
      rw [same, breakdown_of_modifier otherNone] at letter
      exact absurd letter (letter_notMem_wholeText _)
    · -- Both have a first part, so their parts can be told apart from the start.
      obtain ⟨part, parts, known⟩ : ∃ part parts, first.parts = part :: parts :=
        List.exists_cons_of_ne_nil (by simp [parts_eq, none])
      obtain ⟨other, others, otherKnown⟩ : ∃ part parts, second.parts = part :: parts :=
        List.exists_cons_of_ne_nil (by simp [parts_eq, otherNone])
      rw [breakdown_of_parts known, breakdown_of_parts otherKnown] at same
      have parts := eq_of_written (known ▸ fun _ => isPart_of_mem)
        (otherKnown ▸ fun _ => isPart_of_mem) same
      exact eq_of_parts (known.trans (parts.trans otherKnown.symm))

/-- An outcome is that of some roll of a formula. -/
def IsRolled (outcome : Outcome) : Prop :=
  ∃ (σ : Type) (draw : Face → σ → Int × σ) (formula : Formula) (state : σ),
    (formula.roll draw state).1 = outcome

/-- The total of a roll is that of its throws and its modifier. -/
theorem IsRolled.total (rolled : first.IsRolled) :
    first.total = first.modifier + wholeTotal (first.throws.map Throw.signed) := by
  obtain ⟨σ, draw, formula, state, rfl⟩ := rolled
  rw [Formula.roll_eq]

/-- Rolls with the same throws and the same modifier are the same. -/
theorem IsRolled.eq (rolled : first.IsRolled) (otherRolled : second.IsRolled)
    (throws : first.throws = second.throws) (modifier : first.modifier = second.modifier) :
    first = second := by
  -- The total is made of the other two fields.
  have total : first.total = second.total := by
    rw [rolled.total, otherRolled.total, throws, modifier]
  obtain ⟨_, _, _⟩ := first
  obtain ⟨_, _, _⟩ := second
  obtain ⟨rfl, rfl, rfl⟩ : _ ∧ _ ∧ _ := ⟨total, throws, modifier⟩
  rfl

/--
The breakdown of an outcome tells all of its throws, in their order, and its modifier.

The total has no place in it, and follows from the others when the outcome is that of a roll.
-/
theorem describe_eq_iff (short : first.Writable) (otherShort : second.Writable) :
    (∃ text, first.describe = .ok text) ∧
      (first.describe = second.describe ↔
        first.throws = second.throws ∧ first.modifier = second.modifier) ∧
      (first.IsRolled → second.IsRolled →
        (first.describe = second.describe ↔ first = second)) := by
  have described : first.describe = .ok first.breakdown := if_pos short
  have otherDescribed : second.describe = .ok second.breakdown := if_pos otherShort
  have tells : first.describe = second.describe ↔
      first.throws = second.throws ∧ first.modifier = second.modifier := by
    rw [described, otherDescribed, Except.ok.injEq]
    constructor
    · exact eq_of_breakdown
    · rintro ⟨throws, modifier⟩
      simp only [breakdown, parts, throws, modifier]
  refine ⟨⟨_, described⟩, tells, fun rolled otherRolled => ?_⟩
  rw [tells]
  constructor
  · rintro ⟨throws, modifier⟩
    exact rolled.eq otherRolled throws modifier
  · rintro rfl
    exact ⟨rfl, rfl⟩

/-- Two rolls of one formula that come to the same total have breakdowns of their own. -/
theorem describe_eq_iff_totals :
    let formula : Formula :=
      ⟨[⟨.plus, 1, .numeric 6 (by decide), by decide⟩,
        ⟨.minus, 1, .numeric 4 (by decide), by decide⟩], 3⟩
    let first := (formula.roll Dice.draw (Dice.ofScript #[3, 1])).1
    let second := (formula.roll Dice.draw (Dice.ofScript #[4, 2])).1
    (first.Writable ∧ second.Writable ∧ first.IsRolled ∧ second.IsRolled) ∧
      first.describe = .ok "1d6(4) - 1d4(2) + 3" ∧ second.describe = .ok "1d6(5) - 1d4(3) + 3" ∧
      first.total = second.total ∧ first.describe ≠ second.describe := by
  intro formula first second
  have short : first.Writable ∧ second.Writable := by decide +kernel
  obtain ⟨-, tells, -⟩ := describe_eq_iff short.1 short.2
  refine ⟨⟨short.1, short.2, ⟨_, _, _, _, rfl⟩, ⟨_, _, _, _, rfl⟩⟩, by decide +kernel,
    by decide +kernel, rfl, fun same => ?_⟩
  exact absurd (tells.mp same).1 (by decide)

end Outcome

end DiceLab
