import DiceLab.Distribution
import DiceLab.Proofs.Coercion
import DiceLab.Proofs.Roll
import DiceLab.Proofs.Tally

/-! A batch tallies the totals of single rolls made one after another from the same state. -/

namespace DiceLab

variable {σ : Type}

namespace Formula

/-- Rolls a formula a number of times, one roll after another. -/
def rollMany (draw : Face → σ → Int × σ) (formula : Formula) : Nat → σ → List Outcome × σ
  | 0, state => ([], state)
  | more + 1, state =>
    let (outcome, next) := roll draw formula state
    let (others, last) := rollMany draw formula more next
    (outcome :: others, last)

/-- The bounds of all draws of a number of rolls: those of the dice in order, again and again. -/
def bounds (formula : Formula) (rolls : Nat) : List (Int × Int) :=
  (List.replicate rolls (formula.dice.map Die.bounds)).flatten

/-- A number of rolls has so many outcomes. -/
theorem length_rollMany (draw : Face → σ → Int × σ) (formula : Formula) (rolls : Nat) (state : σ) :
    (rollMany draw formula rolls state).1.length = rolls := by
  induction rolls generalizing state with
  | zero => rfl
  | succ rolls ih => simp [rollMany, ih]

/-- The dice are as many as the counts of the terms say. -/
theorem length_dice (formula : Formula) : formula.dice.length = formula.diceCount := by
  obtain ⟨terms, modifier⟩ := formula
  induction terms with
  | nil => rfl
  | cons term rest ih =>
    simp only [dice, diceCount, List.flatMap_cons, List.length_append, List.map_cons] at ih ⊢
    -- A term has as many dice as it counts.
    rw [ih]
    simp [Term.dice, naturalTotal]

/-- As many draws are made as there are dice in all rolls. -/
theorem length_bounds (formula : Formula) (rolls : Nat) :
    (formula.bounds rolls).length = rolls * formula.diceCount := by
  simp [bounds, length_dice]

/-- Rolling for totals alone leads through the states of whole rolls; the totals come out in
reverse. -/
theorem rollTotals_eq (draw : Face → σ → Int × σ) (formula : Formula) (rolls : Nat)
    (totals : List Int) (state : σ) :
    rollTotals draw formula.modifier formula.dice rolls totals state =
      (((rollMany draw formula rolls state).1.map Outcome.total).reverse ++ totals,
        (rollMany draw formula rolls state).2) := by
  -- Each roll puts its total before those of the rolls so far and hands on its state.
  induction rolls generalizing totals state with
  | zero => rfl
  | succ rolls ih => simp [rollTotals, rollMany, rollTotal_eq, roll_eq, ih]

/-- The histogram of a number of rolls is the tally of their totals. -/
theorem rollHistogram_eq (draw : Face → σ → Int × σ) (formula : Formula) (rolls : Nat) (state : σ) :
    rollHistogram draw formula rolls state =
      (Histogram.tally ((rollMany draw formula rolls state).1.map Outcome.total).reverse,
        (rollMany draw formula rolls state).2) := by
  rw [rollHistogram]
  split
  · -- Without a roll there is no total to count.
    rename_i none
    subst none
    simp [rollMany, Histogram.tally]
  · simp [rollTotals_eq]

/-- Rolls leave a tally of their totals. -/
theorem rollHistogram_isTally (draw : Face → σ → Int × σ) (formula : Formula) (rolls : Nat)
    (state : σ) :
    Histogram.IsTally ((rollMany draw formula rolls state).1.map Outcome.total)
      (rollHistogram draw formula rolls state).1 := by
  -- The totals come out in reverse, which a tally does not tell.
  rw [rollHistogram_eq]
  exact (Histogram.tally_isTally _).of_perm (List.reverse_perm _)

/-- Keeping a log changes no roll, and logs the bounds of every draw in order. -/
theorem rollMany_logged (source : Source σ) (formula : Formula) (rolls : Nat) (state : σ)
    (log : List (Int × Int)) :
    rollMany source.logged.draw formula rolls (state, log) =
      ((rollMany source.draw formula rolls state).1,
        (rollMany source.draw formula rolls state).2, log ++ formula.bounds rolls) := by
  -- Each roll adds the bounds of its dice to the log that the rolls before it left.
  induction rolls generalizing state log with
  | zero => simp [rollMany, bounds]
  | succ rolls ih =>
    simp [rollMany, roll_eq, throwEach_logged, ih, bounds, List.replicate_succ]

/-- Keeping a log changes no histogram either. -/
theorem rollHistogram_logged (source : Source σ) (formula : Formula) (rolls : Nat) (state : σ)
    (log : List (Int × Int)) :
    rollHistogram source.logged.draw formula rolls (state, log) =
      ((rollHistogram source.draw formula rolls state).1,
        (rollHistogram source.draw formula rolls state).2, log ++ formula.bounds rolls) := by
  simp [rollHistogram_eq, rollMany_logged]

end Formula

/-- The number of rolls made when some number of them is asked for. -/
def rollsFor (trials : Int) : Nat := (min (max 0 trials) mostTrials).toNat

/-- Every number of rolls can be written. -/
theorem writable_of_le_mostTrials {value : Int} (above : 0 ≤ value) (below : value ≤ mostTrials) :
    Decimal.Writable value :=
  Decimal.writable_zero.between (by decide +kernel) above below

/-- The number of entries of a histogram can be written. -/
theorem writable_length_rollHistogram (draw : Face → σ → Int × σ) (formula : Formula)
    (trials : Int) (state : σ) :
    Decimal.Writable (formula.rollHistogram draw (rollsFor trials) state).1.length := by
  -- There are no more entries than rolls.
  have few := (formula.rollHistogram_isTally draw (rollsFor trials) state).length_le
  rw [List.length_map, Formula.length_rollMany] at few
  have order : 0 ≤ mostTrials := by decide
  have bound : (rollsFor trials : Int) ≤ mostTrials := by
    rw [rollsFor]
    omega
  exact writable_of_le_mostTrials (by omega) (by omega)

/-- A batch succeeds when its numbers can be written, and ends as its rolls do. -/
theorem batchFrom_ends {draw : Face → σ → Int × σ} {reading : Reading} {trials : Int}
    {state last : σ} {counts : List (Int × Nat)} :
    (batchFrom draw (.reading reading) (.whole trials)).Ends state counts last ↔
      reading.formula.Writable ∧ Decimal.Writable trials ∧
        Formula.rollHistogram draw reading.formula (rollsFor trials) state = (counts, last) := by
  have order : 0 ≤ mostTrials := by decide
  simp only [batchFrom, Session.bind_ends, Session.lift_ends, Session.lift_result_ends,
    Session.ofState_ends, Session.pure_ends,
    ensureWhole_eq_ok Decimal.writable_zero (writable_of_le_mostTrials order (Int.le_refl _)) order]
  constructor
  · -- Every step succeeded, among them those that write the formula and the number asked for.
    rintro ⟨_, _, ⟨⟨trialsWritable, rfl⟩, rfl⟩, _, _, ⟨readBack, rfl⟩, _, _, rolled, _, _,
      ⟨written, rfl⟩, _, _, ⟨_, rfl⟩, _, _, ⟨_, rfl⟩, rfl, rfl⟩
    obtain rfl := Except.ok.inj readBack
    exact ⟨(Formula.text_eq_ok.mp written).1, trialsWritable, rolled⟩
  · rintro ⟨writable, trialsWritable, rolled⟩
    have clamped : Decimal.Writable (min (max 0 trials) mostTrials) :=
      writable_of_le_mostTrials (by omega) (by omega)
    have entries := writable_length_rollHistogram draw reading.formula trials state
    rw [rolled] at entries
    -- Every value that the log record shows is a text or has been seen to be short.
    refine ⟨_, _, ⟨⟨trialsWritable, rfl⟩, rfl⟩, reading, _, ⟨rfl, rfl⟩, counts, _, rolled,
      _, _, ⟨Formula.text_eq_ok.mpr ⟨writable, rfl⟩, rfl⟩, _, _,
      ⟨Decimal.write_eq_ok.mpr ⟨clamped, rfl⟩, rfl⟩, (), _, ⟨Reported.log_result ?_, rfl⟩, rfl, rfl⟩
    simp [Value.quoted, Decimal.write_eq_ok, clamped, entries]

/--
How a batch agrees with as many single rolls, made one after another from the same state.

A logged source keeps the bounds of its draws, so equal logs stand for equal draws in one order.
-/
structure BatchAgrees (source : Source σ) (reading : Reading) (trials : Int) (state : σ)
    (counts : List (Int × Nat)) : Prop where
  /-- The counts are the tally of the totals of the rolls. -/
  tally : Histogram.IsTally
    ((reading.formula.rollMany source.draw (rollsFor trials) state).1.map Outcome.total) counts
  /-- The source is left as the rolls leave it. -/
  last : (batchFrom source.draw (.reading reading) (.whole trials) state).2 =
    (reading.formula.rollMany source.draw (rollsFor trials) state).2
  /-- The batch draws for the dice of each roll, in their order. -/
  batchDraws : (batchFrom source.logged.draw (.reading reading) (.whole trials) (state, [])).2 =
    ((reading.formula.rollMany source.draw (rollsFor trials) state).2,
      reading.formula.bounds (rollsFor trials))
  /-- The rolls make the same draws. -/
  rollDraws : (reading.formula.rollMany source.logged.draw (rollsFor trials) (state, [])).2 =
    ((reading.formula.rollMany source.draw (rollsFor trials) state).2,
      reading.formula.bounds (rollsFor trials))
  /-- The draws are as many as there are dice in all rolls. -/
  draws : (reading.formula.bounds (rollsFor trials)).length =
    rollsFor trials * reading.formula.diceCount
  /-- The totals of the entries ascend. -/
  ascending : (Histogram.keys counts).Pairwise (· < ·)
  /-- Every entry counts one roll at least. -/
  positive : ∀ entry ∈ counts, 1 ≤ entry.2
  /-- Every roll is counted. -/
  total : naturalTotal (counts.map Prod.snd) = rollsFor trials

/-- A batch that succeeds agrees with single rolls, whatever the source and its state. -/
theorem batch_agrees (source : Source σ) (reading : Reading) (trials : Int) (state : σ)
    {counts : List (Int × Nat)}
    (ok : (batchFrom source.draw (.reading reading) (.whole trials) state).1.result = .ok counts) :
    BatchAgrees source reading trials state counts := by
  -- Success leaves the histogram of the rolls, which was tied to single rolls above.
  obtain ⟨writable, trialsWritable, rolled⟩ := batchFrom_ends.mp ⟨ok, rfl⟩
  have tally := reading.formula.rollHistogram_isTally source.draw (rollsFor trials) state
  have histogram := reading.formula.rollHistogram_eq source.draw (rollsFor trials) state
  have last := congrArg Prod.snd (rolled.symm.trans histogram)
  rw [rolled] at tally
  -- With a log the batch succeeds as well, since that hangs on the numbers alone.
  have logged := batchFrom_ends.mpr ⟨writable, trialsWritable,
    reading.formula.rollHistogram_logged source (rollsFor trials) state []⟩
  refine
    { tally := tally
      last := last
      batchDraws := ?_
      rollDraws := ?_
      draws := reading.formula.length_bounds (rollsFor trials)
      ascending := tally.ascending
      positive := tally.positive
      total := ?_ }
  · rw [logged.2, histogram, List.nil_append]
  · rw [Formula.rollMany_logged, List.nil_append]
  · rw [tally.total, List.length_map, Formula.length_rollMany]

/-- A batch with dice is one of a source. -/
theorem batch_eq : batch = batchFrom Source.dice.draw := rfl

/-- Five rolls of two dice, less a coin and a Fudge die, are tallied under three totals. -/
theorem batch_agrees_mixed :
    let mixed : Reading :=
      ⟨⟨[⟨.plus, 2, .numeric 6 (by decide), by decide⟩,
        ⟨.minus, 1, .numeric 2 (by decide), by decide⟩, ⟨.minus, 1, .fudge, by decide⟩], 3⟩, []⟩
    let dice := Dice.ofScript #[3, 1, 0, 4, 5]
    (batch (.reading mixed) (.whole 5) dice).1.result = .ok [(5, 1), (9, 2), (13, 2)] ∧
      BatchAgrees Source.dice mixed 5 dice [(5, 1), (9, 2), (13, 2)] := by
  intro mixed dice
  have rolled : mixed.formula.rollHistogram Source.dice.draw (rollsFor 5) dice =
      ([(5, 1), (9, 2), (13, 2)], ⟨.script #[3, 1, 0, 4, 5], 20⟩) := by
    -- The sort does not unfold by itself, so the entries are recognized as the tally they are.
    have ascending : (Histogram.keys [(5, 1), (9, 2), (13, 2)]).Pairwise (· < ·) := by decide
    rw [Formula.rollHistogram_eq, Histogram.tally_eq ascending (by decide) (by decide)]
    rfl
  have writable : mixed.formula.Writable ∧ Decimal.Writable 5 := by decide +kernel
  have ok := (batchFrom_ends.mpr ⟨writable.1, writable.2, rolled⟩).1
  rw [batch_eq]
  exact ⟨ok, batch_agrees Source.dice mixed 5 dice ok⟩

end DiceLab
