import DiceLab.Outcome
import DiceLab.Proofs.Source
import DiceLab.Proofs.Total

/-! Rolling makes one draw for each die, in order, whether or not the throws are kept. -/

namespace DiceLab

variable {σ : Type}

/-- Throws dice one by one in the order they are laid out. -/
def throwEach (draw : Face → σ → Int × σ) : List Die → σ → List Throw × σ
  | [], state => ([], state)
  | die :: rest, state =>
    let (value, next) := draw die.face state
    let (thrown, last) := throwEach draw rest next
    (⟨die, value⟩ :: thrown, last)

/-- The bounds that a die is drawn between. -/
def Die.bounds (die : Die) : Int × Int := (die.face.low, die.face.high)

namespace Formula

/-- Throws are gathered from the latest to the first. -/
theorem throwAll_eq (draw : Face → σ → Int × σ) (dice : List Die) (state : σ) :
    throwAll draw dice state =
      ((throwEach draw dice state).1.reverse, (throwEach draw dice state).2) := by
  -- The throws gathered so far stay behind the ones to come.
  have general : ∀ (dice : List Die) (thrown : List Throw) (state : σ),
      dice.foldl (fun (thrown, state) die =>
        let (value, next) := draw die.face state
        ((⟨die, value⟩ : Throw) :: thrown, next)) (thrown, state) =
      ((throwEach draw dice state).1.reverse ++ thrown, (throwEach draw dice state).2) := by
    intro dice
    induction dice with
    | nil => intro thrown state; rfl
    | cons die rest ih =>
      intro thrown state
      rw [List.foldl_cons, ih]
      simp [throwEach]
  simpa [throwAll] using general dice [] state

/-- A roll keeps its throws in order, and totals them with the modifier. -/
theorem roll_eq (draw : Face → σ → Int × σ) (formula : Formula) (state : σ) :
    roll draw formula state =
      (⟨formula.modifier + wholeTotal ((throwEach draw formula.dice state).1.map Throw.signed),
        (throwEach draw formula.dice state).1, formula.modifier⟩,
        (throwEach draw formula.dice state).2) := by
  simp [roll, throwAll_eq]

/-- Rolling for the total alone makes the same draws, and adds up what they give. -/
theorem rollTotal_eq (draw : Face → σ → Int × σ) (modifier : Int) (dice : List Die) (state : σ) :
    rollTotal draw modifier dice state =
      (modifier + wholeTotal ((throwEach draw dice state).1.map Throw.signed),
        (throwEach draw dice state).2) := by
  -- The modifier takes up the throws one by one, so it stays quantified over.
  unfold rollTotal
  induction dice generalizing modifier state with
  | nil => simp [throwEach]
  | cons die rest ih =>
    rw [List.foldl_cons, ih]
    simp only [throwEach, List.map_cons, wholeTotal_cons, Throw.signed, Prod.mk.injEq, and_true]
    omega

end Formula

/-- Every die is thrown once, in order. -/
theorem throwEach_dice (draw : Face → σ → Int × σ) (dice : List Die) (state : σ) :
    (throwEach draw dice state).1.map Throw.die = dice := by
  -- The state changes from die to die, so it stays quantified over.
  induction dice generalizing state with
  | nil => rfl
  | cons die rest ih => simp [throwEach, ih]

/-- Keeping a log changes no throw, and logs the bounds of each die in order. -/
theorem throwEach_logged (source : Source σ) (dice : List Die) (state : σ)
    (log : List (Int × Int)) :
    throwEach source.logged.draw dice (state, log) =
      ((throwEach source.draw dice state).1,
        (throwEach source.draw dice state).2, log ++ dice.map Die.bounds) := by
  -- Each die draws as before and adds one entry at the end of the log.
  induction dice generalizing state log with
  | nil => simp [throwEach]
  | cons die rest ih => simp [throwEach, Source.draw, Source.logged, ih, Die.bounds]

end DiceLab
