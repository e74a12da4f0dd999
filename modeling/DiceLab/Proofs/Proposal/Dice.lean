import DiceLab.Proofs.Proposal
import DiceLab.Proofs.Range

/-! Which dice a proposal rolls: a few of the offered faces, a numeric one first, and only the binary
die is ever taken away. -/

namespace DiceLab

/-- The binary die shows 0 or 1. -/
theorem Face.ends_of_isBinary {face : Face} (binary : face.isBinary = true) :
    face.low = 0 ∧ face.high = 1 := by
  cases face with
  | fudge => simp [isBinary] at binary
  | numeric sides positive =>
    simp only [isBinary, beq_iff_eq] at binary
    simp [low, high, binary]

/-- The smallest total of a formula is not above the largest. -/
theorem Formula.min_le_max (formula : Formula) : formula.min ≤ formula.max := by
  have order := total_least_le_most formula.dice
  rw [min_eq, max_eq]
  omega

namespace Formula

variable (formula : Formula) (term : Term)

/-- A term behind the others moves the smallest total by its own. -/
theorem min_append : ({ formula with terms := formula.terms ++ [term] } : Formula).min =
    formula.min + term.range.1 := by
  simp only [min, List.map_append, wholeTotal_append, List.map_cons, List.map_nil, wholeTotal_cons,
    wholeTotal_nil]
  omega

/-- A term behind the others moves the largest total by its own. -/
theorem max_append : ({ formula with terms := formula.terms ++ [term] } : Formula).max =
    formula.max + term.range.2 := by
  simp only [max, List.map_append, wholeTotal_append, List.map_cons, List.map_nil, wholeTotal_cons,
    wholeTotal_nil]
  omega

/-- A term behind the others adds its dice. -/
theorem diceCount_append : ({ formula with terms := formula.terms ++ [term] } : Formula).diceCount =
    formula.diceCount + term.count := by
  simp only [diceCount, List.map_append, naturalTotal_append, List.map_cons, List.map_nil,
    naturalTotal_cons, naturalTotal_nil]
  omega

end Formula

namespace Proposal

variable {target : Target} {faces : List Face} {formula old : Formula}

/-- Numeric faces are the offered ones that are neither of the two small dice. -/
theorem mem_numeric {face : Face} :
    face ∈ numeric faces ↔ face ∈ faces ∧ face.isFudge = false ∧ face.isBinary = false := by
  simp [numeric]

/-- What every proposal keeps to when some faces are offered. -/
structure KeepsTo (faces : List Face) (formula : Formula) : Prop where
  /-- No other face is used. -/
  offered : ∀ term ∈ formula.terms, term.face ∈ faces
  /-- The first dice are added, and they are numeric and not binary. -/
  leads : ∃ first rest, formula.terms = first :: rest ∧ first.sign = .plus ∧
    first.face.isFudge = false ∧ first.face.isBinary = false
  /-- Dice that are taken away are binary. -/
  taken : ∀ term ∈ formula.terms, term.sign = .minus → term.face.isBinary = true
  /-- There is a die. -/
  least : 1 ≤ formula.diceCount
  /-- There are no more dice than in a full group with the widest extension. -/
  most : formula.diceCount ≤ mostDice + largestGap

/-- A formula of added numeric dice, no more of them than in a full group. -/
structure IsGroup (faces : List Face) (formula : Formula) : Prop where
  nonempty : formula.terms ≠ []
  added : ∀ term ∈ formula.terms, term.sign = .plus ∧ term.face ∈ numeric faces
  most : formula.diceCount ≤ mostDice

/-- A group keeps to the faces, with room for an extension. -/
theorem IsGroup.keepsTo (group : IsGroup faces formula) : KeepsTo faces formula := by
  obtain ⟨first, rest, terms⟩ := List.exists_cons_of_ne_nil group.nonempty
  have member : first ∈ formula.terms := by simp [terms]
  have lead := mem_numeric.mp (group.added first member).2
  refine
    { offered := fun term inside => (mem_numeric.mp (group.added term inside).2).1
      leads := ⟨first, rest, terms, (group.added first member).1, lead.2⟩
      taken := ?_
      least := ?_
      most := ?_ }
  · -- Nothing is taken away in a group.
    intro term inside minus
    rw [(group.added term inside).1] at minus
    cases minus
  · have dice : first.count ≤ formula.diceCount := le_naturalTotal (List.mem_map_of_mem member)
    have positive := first.positive
    omega
  · have most := group.most
    have room : (0 : Int) ≤ largestGap := by decide
    omega

/-- An extension of a group by an offered small die keeps to the faces. -/
theorem KeepsTo.of_extended {sign : Sign} {face : Face} {gap : Int} (group : IsGroup faces old)
    (offered : face ∈ faces) (coin : sign = .minus → face.isBinary = true)
    (inside : formula ∈ extended old sign face gap) : KeepsTo faces formula := by
  obtain ⟨term, rfl, rfl, count, narrow, rfl⟩ := mem_extended.mp inside
  have keeps := group.keepsTo
  obtain ⟨first, rest, terms, lead⟩ := keeps.leads
  -- The new term stands last, so the lead is that of the group.
  refine
    { offered := ?_
      leads := ⟨first, rest ++ [term], by simp [terms], lead⟩
      taken := ?_
      least := ?_
      most := ?_ }
  · intro other among
    rcases List.mem_append.mp among with before | last
    · exact keeps.offered other before
    · rwa [List.mem_singleton.mp last]
  · intro other among minus
    rcases List.mem_append.mp among with before | last
    · exact keeps.taken other before minus
    · rw [List.mem_singleton.mp last] at minus ⊢
      exact coin minus
  · have least := keeps.least
    rw [Formula.diceCount_append]
    omega
  · have most := group.most
    rw [Formula.diceCount_append]
    omega

/-- A face is counted with the one behind it, or stands before it as a term of its own. -/
theorem oneEach_cons (face : Face) (rest : List Face) : oneEach (face :: rest) =
    match oneEach rest with
    | term :: others =>
      if term.face = face then ⟨.plus, term.count + 1, face, Nat.succ_pos _⟩ :: others
      else ⟨.plus, 1, face, Nat.one_pos⟩ :: term :: others
    | [] => [⟨.plus, 1, face, Nat.one_pos⟩] := rfl

/-- One die of each face is added, and there are as many dice as faces. -/
theorem oneEach_spec (faces : List Face) :
    (∀ term ∈ oneEach faces, term.sign = .plus ∧ term.face ∈ faces) ∧
      naturalTotal ((oneEach faces).map Term.count) = faces.length := by
  induction faces with
  | nil => exact ⟨by simp [oneEach], rfl⟩
  | cons face rest ih =>
    obtain ⟨added, total⟩ := ih
    rw [oneEach_cons]
    cases built : oneEach rest with
    | nil =>
      rw [built] at total
      simpa [eq_comm] using total
    | cons term others =>
      -- The face is counted with the first term behind it or stands before it; the others stay.
      rw [built] at added total
      simp only [List.forall_mem_cons, List.map_cons, naturalTotal_cons] at added total
      dsimp only
      have later (other : Term) (among : other ∈ others) :
          other.sign = .plus ∧ other.face ∈ face :: rest :=
        ⟨(added.2 other among).1, List.mem_cons_of_mem _ (added.2 other among).2⟩
      split
      · refine ⟨List.forall_mem_cons.mpr ⟨⟨rfl, List.mem_cons_self⟩, later⟩, ?_⟩
        simp only [List.map_cons, naturalTotal_cons, List.length_cons]
        omega
      · have behind : term.sign = .plus ∧ term.face ∈ face :: rest :=
          ⟨added.1.1, List.mem_cons_of_mem _ added.1.2⟩
        refine ⟨List.forall_mem_cons.mpr ⟨⟨rfl, List.mem_cons_self⟩,
          List.forall_mem_cons.mpr ⟨behind, later⟩⟩, ?_⟩
        simp only [List.map_cons, naturalTotal_cons, List.length_cons]
        omega

/-- The two faces of a pair are among those that pairs are made of. -/
theorem mem_of_mem_pairs {α : Type} {items : List α} {pair : α × α} (member : pair ∈ pairs items) :
    pair.1 ∈ items ∧ pair.2 ∈ items := by
  induction items with
  | nil => cases member
  | cons first rest ih =>
    -- A pair has the first item in front, or both of its items stand behind that.
    rcases List.mem_append.mp member with front | behind
    · obtain ⟨second, among, rfl⟩ := List.mem_map.mp front
      exact ⟨List.mem_cons_self, among⟩
    · obtain ⟨left, right⟩ := ih behind
      exact ⟨List.mem_cons_of_mem _ left, List.mem_cons_of_mem _ right⟩

/-- Few numeric faces make a group when they are centred. -/
theorem isGroup_of_centered {average : Binary64} {dice : List Face} (nonempty : dice ≠ [])
    (few : dice.length ≤ mostDice) (offered : ∀ face ∈ dice, face ∈ numeric faces)
    (made : centered average dice = .ok formula) : IsGroup faces formula := by
  obtain ⟨added, total⟩ := oneEach_spec dice
  have terms := terms_of_centered made
  refine { nonempty := ?_, added := ?_, most := ?_ }
  · obtain ⟨first, rest, rfl⟩ := List.exists_cons_of_ne_nil nonempty
    rw [terms]
    exact oneEach_ne_nil first rest
  · intro term member
    rw [terms] at member
    exact ⟨(added term member).1, offered _ (added term member).2⟩
  · -- There is one die for each face, however they are gathered into terms.
    rwa [Formula.diceCount, terms, total]

/-- Dice as wide as a target are a group of one face. -/
theorem isGroup_of_spanning {face : Face} (offered : face ∈ numeric faces)
    (made : spanning target face = .ok (some formula)) : IsGroup faces formula := by
  obtain ⟨-, whole, positive, -, -, rfl⟩ := exists_of_spanning made
  refine { nonempty := by simp, added := by simpa using offered, most := ?_ }
  -- However wide the target is, the number of dice is held within its bounds.
  have bound : (1 : Int) ≤ mostDice := by decide
  simp only [Formula.diceCount, List.map_cons, List.map_nil, naturalTotal_cons, naturalTotal_nil]
  omega

/-- Whatever is proposed of numeric faces alone is a group. -/
theorem Plain.isGroup (plain : Plain target faces formula) : IsGroup faces formula := by
  cases plain with
  -- One or two dice are fewer than a full group has.
  | single _ offered made =>
    refine isGroup_of_centered (List.cons_ne_nil _ _) ?_ (by simpa using offered) made
    show ((1 : Nat) : Int) ≤ mostDice
    decide
  | double _ offered made =>
    refine isGroup_of_centered (List.cons_ne_nil _ _) ?_ (by simpa using mem_of_mem_pairs offered)
      made
    show ((2 : Nat) : Int) ≤ mostDice
    decide
  | span offered made => exact isGroup_of_spanning offered made

/-- The range of a formula ends where the target does, on one side at least. -/
def Touches (target : Target) (formula : Formula) : Prop :=
  formula.min = target.min ∨ formula.max = target.max

/-- What the binary die makes of a group reaches an end of the target. -/
theorem withBinary_spec {face : Face} {more : List Formula} (group : IsGroup faces old)
    (offered : face ∈ faces) (coin : face.isBinary = true)
    (made : withBinary target face old = .ok more) (inside : formula ∈ more) :
    KeepsTo faces formula ∧ Touches target formula := by
  obtain ⟨stats, known, inside⟩ := exists_extended_of_withBinary made inside
  obtain ⟨least, most⟩ := Formula.bounds_of_stats known
  obtain ⟨low, high⟩ := Face.ends_of_isBinary coin
  rcases inside with raised | lowered
  · -- Added dice close the gap above and leave the smallest total alone.
    refine ⟨.of_extended group offered (by simp) raised, .inr ?_⟩
    obtain ⟨⟨_, count, _, _⟩, rfl, rfl, gap, -, rfl⟩ := mem_extended.mp raised
    rw [Formula.max_append, Term.range, high]
    dsimp only at gap ⊢
    omega
  · -- Dice that are taken away close the gap below.
    refine ⟨.of_extended group offered (fun _ => coin) lowered, .inl ?_⟩
    obtain ⟨⟨_, count, _, _⟩, rfl, rfl, gap, -, rfl⟩ := mem_extended.mp lowered
    rw [Formula.min_append, Term.range, high]
    dsimp only at gap ⊢
    omega

/-- What Fudge dice extend does not reach an end of the target, so it was not extended before. -/
theorem not_touches_of_withFudge {face : Face} {more : List Formula}
    (made : withFudge target face old = .ok more) (inside : formula ∈ more) :
    ¬Touches target old := by
  obtain ⟨stats, known, widened⟩ := exists_extended_of_withFudge made inside
  obtain ⟨least, most⟩ := Formula.bounds_of_stats known
  -- There is a term behind it, so the smaller of the two gaps was not zero.
  obtain ⟨term, -, -, gap, -, -⟩ := mem_extended.mp widened
  have positive := term.positive
  unfold Touches
  omega

/--
Every proposal keeps to the offered faces.

A formula is extended once at most: the binary die closes a gap on one side completely, and Fudge
dice need a gap on both sides.
-/
theorem Proposed.keepsTo (proposed : Proposed target faces formula) : KeepsTo faces formula := by
  -- The binary die comes first: what it made touches the target, all else is still a group.
  have raised {formula : Formula} (grown : Grown (faces.find? Face.isBinary) (withBinary target)
      (Plain target faces) formula) :
      IsGroup faces formula ∨ KeepsTo faces formula ∧ Touches target formula := by
    cases grown with
    | kept plain => exact .inl plain.isGroup
    | extended found plain made inside =>
      exact .inr (withBinary_spec plain.isGroup (List.mem_of_find?_eq_some found)
        (List.find?_some found) made inside)
  cases proposed with
  | kept grown =>
    rcases raised grown with group | ⟨keeps, -⟩
    · exact group.keepsTo
    · exact keeps
  | extended found grown made inside =>
    have apart := not_touches_of_withFudge made inside
    -- What touches the target is left alone, so only a group can have been extended.
    have group := (raised grown).resolve_right fun touching => apart touching.2
    obtain ⟨stats, -, widened⟩ := exists_extended_of_withFudge made inside
    exact .of_extended group (List.mem_of_find?_eq_some found) (by simp) widened

/-- A numeric face is proposed at least as a die of its own. -/
theorem exists_proposed_of_numeric {face : Face} {proposals : List Formula}
    (offered : face ∈ numeric faces) (ok : all target faces = .ok proposals) :
    ∃ formula ∈ proposals, Proposed target faces formula := by
  have steps := ok
  unfold all at steps
  obtain ⟨average, middle, steps⟩ := bind_eq_ok.mp steps
  obtain ⟨singles, made, -⟩ := bind_eq_ok.mp steps
  -- The walk over the numeric faces has made a single die of this one.
  obtain ⟨formula, -, single⟩ := exists_of_mem_left (mapM_eq_ok.mp made) offered
  have proposed : Proposed target faces formula := .kept (.kept (.single middle offered single))
  exact ⟨formula, (mem_all ok).mpr proposed, proposed⟩

end Proposal

end DiceLab
