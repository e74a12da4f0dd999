import DiceLab.Proofs.Batch
import DiceLab.Proofs.Range

/-! A roll makes one draw for each die in the order of the formula, and its throws show what was
drawn. -/

namespace DiceLab

variable {σ : Type}

/-- A draw: the bounds that were asked for, and the value that was given. -/
structure Draw where
  low : Int
  high : Int
  value : Int
deriving DecidableEq

/-- The draw that a throw shows. -/
def Throw.draw (thrown : Throw) : Draw :=
  ⟨thrown.die.face.low, thrown.die.face.high, thrown.value⟩

/-- The same source with a record of its draws, the latest last. -/
def Source.recorded (source : Source σ) : Source (σ × List Draw) := fun low high (state, made) =>
  let (value, next) := source low high state
  (value, next, made ++ [⟨low, high, value⟩])

/-- Keeping a record changes no throw, and records the draw of each throw in order. -/
theorem throwEach_recorded (source : Source σ) (dice : List Die) (state : σ) (made : List Draw) :
    throwEach source.recorded.draw dice (state, made) =
      ((throwEach source.draw dice state).1, (throwEach source.draw dice state).2,
        made ++ (throwEach source.draw dice state).1.map Throw.draw) := by
  -- Each die draws as before and adds one entry at the end of the record.
  induction dice generalizing state made with
  | nil => simp [throwEach]
  | cons die rest ih => simp [throwEach, Source.draw, Source.recorded, ih, Throw.draw]

/-- Keeping a record changes no roll either. -/
theorem Formula.roll_recorded (source : Source σ) (formula : Formula) (state : σ)
    (made : List Draw) :
    formula.roll source.recorded.draw (state, made) =
      ((formula.roll source.draw state).1, (formula.roll source.draw state).2,
        made ++ (formula.roll source.draw state).1.throws.map Throw.draw) := by
  simp only [roll_eq, throwEach_recorded]

/-- Throws of all dice of a term. -/
structure Term.Throws (term : Term) (throws : List Throw) : Prop where
  count : throws.length = term.count
  face : ∀ thrown ∈ throws, thrown.die.face = term.face
  sign : ∀ thrown ∈ throws, thrown.die.sign = term.sign
  within : ∀ thrown ∈ throws, thrown.Within

/-- Throws of the dice of a term, one by one, are throws of the term. -/
theorem Term.throws_of_dice {term : Term} {throws : List Throw}
    (same : throws.map Throw.die = term.dice) (within : ∀ thrown ∈ throws, thrown.Within) :
    term.Throws throws := by
  obtain ⟨count, alike⟩ := List.eq_replicate_iff.mp same
  -- The dice of a term are all alike, so each throw is of that die.
  have die : ∀ thrown ∈ throws, thrown.die = ⟨term.sign, term.face⟩ := fun thrown member =>
    alike thrown.die (List.mem_map_of_mem member)
  exact
    { count := by rwa [List.length_map] at count
      face := fun thrown member => by rw [die thrown member]
      sign := fun thrown member => by rw [die thrown member]
      within := within }

/-- Throws of the dice of several terms fall into the throws of each term, in order. -/
theorem exists_throws_of_terms {terms : List Term} {throws : List Throw}
    (same : throws.map Throw.die = terms.flatMap Term.dice)
    (within : ∀ thrown ∈ throws, thrown.Within) :
    ∃ groups : List (List Throw), throws = groups.flatten ∧
      List.Forall₂ Term.Throws terms groups := by
  induction terms generalizing throws with
  | nil =>
    obtain rfl := List.map_eq_nil_iff.mp same
    exact ⟨[], rfl, .nil⟩
  | cons term rest ih =>
    -- The throws of the first term come first, and the others are those of the rest.
    obtain ⟨first, others, rfl, firstSame, othersSame⟩ := List.map_eq_append_iff.mp same
    rw [List.forall_mem_append] at within
    obtain ⟨groups, rfl, each⟩ := ih othersSame within.2
    exact ⟨first :: groups, rfl, .cons (Term.throws_of_dice firstSame within.1) each⟩

/-- What a complete roll of a formula shows of the draws that were made for it. -/
structure RollComplete (formula : Formula) (outcome : Outcome) (made : List Draw) : Prop where
  /-- The throws are those of the terms, in their order. -/
  terms : ∃ groups : List (List Throw), outcome.throws = groups.flatten ∧
    List.Forall₂ Term.Throws formula.terms groups
  /-- Each throw shows its own draw, between the bounds of its die. -/
  draws : made = outcome.throws.map Throw.draw
  /-- There are as many draws as dice. -/
  count : made.length = formula.diceCount
  /-- The modifier is that of the formula. -/
  modifier : outcome.modifier = formula.modifier
  /-- The total is the modifier with the signed values of all throws. -/
  total : outcome.total = outcome.modifier + wholeTotal (outcome.throws.map Throw.signed)

/-- Whatever a bounded source draws, a roll is complete, and makes no other draws. -/
theorem roll_complete {source : Source σ} (bounded : source.Bounded) (formula : Formula)
    (state : σ) :
    ∃ made, formula.roll source.recorded.draw (state, []) =
        ((formula.roll source.draw state).1, (formula.roll source.draw state).2, made) ∧
      RollComplete formula (formula.roll source.draw state).1 made := by
  refine ⟨_, formula.roll_recorded source state [], ?_⟩
  rw [Formula.roll_eq]
  have dice := throwEach_dice source.draw formula.dice state
  exact
    { terms := exists_throws_of_terms dice (throwEach_within bounded formula.dice state)
      draws := rfl
      count := by
        -- There is a throw for each die, and the dice are as many as the counts say.
        rw [List.nil_append, List.length_map, ← List.length_map Throw.die, dice,
          Formula.length_dice]
      modifier := rfl
      total := rfl }

/-- Two dice, less a coin and a Fudge die, take four draws, in this order. -/
theorem roll_complete_mixed :
    let mixed : Formula :=
      ⟨[⟨.plus, 2, .numeric 6 (by decide), by decide⟩,
        ⟨.minus, 1, .numeric 2 (by decide), by decide⟩, ⟨.minus, 1, .fudge, by decide⟩], 3⟩
    let six : Die := ⟨.plus, .numeric 6 (by decide)⟩
    let outcome : Outcome :=
      ⟨7, [⟨six, 4⟩, ⟨six, 2⟩, ⟨⟨.minus, .numeric 2 (by decide)⟩, 1⟩, ⟨⟨.minus, .fudge⟩, 1⟩], 3⟩
    let made : List Draw := [⟨1, 6, 4⟩, ⟨1, 6, 2⟩, ⟨0, 1, 1⟩, ⟨-1, 1, 1⟩]
    Source.dice.Bounded ∧ (mixed.rollOnce (Dice.ofScript #[3, 1, 5, 2])).1.result = .ok outcome ∧
      RollComplete mixed outcome made := by
  intro mixed six outcome made
  refine ⟨Source.dice_bounded, rfl, ?_⟩
  obtain ⟨draws, recorded, complete⟩ :=
    roll_complete Source.dice_bounded mixed (Dice.ofScript #[3, 1, 5, 2])
  obtain rfl : draws = made := (congrArg (fun rolled => rolled.2.2) recorded).symm
  exact complete

end DiceLab
