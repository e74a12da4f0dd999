import DiceLab.Proposal
import DiceLab.Proofs.Report

/-! Every proposal is built from faces that were offered, and more faces only add proposals. -/

namespace DiceLab

namespace Face

/-- There is one face that shows 0 and 1. -/
theorem isBinary_unique {first second : Face} (binary : first.isBinary = true)
    (other : second.isBinary = true) : first = second := by
  cases first with
  | fudge => simp [isBinary] at binary
  | numeric sides positive =>
    cases second with
    | fudge => simp [isBinary] at other
    | numeric others otherPositive =>
      -- Being binary fixes the number of sides, and a numeric face has nothing else.
      simp only [isBinary, beq_iff_eq] at binary other
      subst binary other
      rfl

/-- There is one Fudge face. -/
theorem isFudge_unique {first second : Face} (fudge : first.isFudge = true)
    (other : second.isFudge = true) : first = second := by
  cases first with
  | numeric sides positive => simp [isFudge] at fudge
  | fudge =>
    cases second with
    | numeric sides positive => simp [isFudge] at other
    | fudge => rfl

end Face

/-- An item told by a property is found wherever it stands among others. -/
theorem find?_of_subset {α : Type} {property : α → Bool}
    (unique : ∀ {first second}, property first = true → property second = true → first = second)
    {few many : List α} (inside : few ⊆ many) {item : α} (found : few.find? property = some item) :
    many.find? property = some item := by
  have holds := List.find?_some found
  have member := inside (List.mem_of_find?_eq_some found)
  -- Something is found among the others, and it can be nothing else.
  cases other : many.find? property with
  | none => exact absurd holds (List.find?_eq_none.mp other item member)
  | some another => rw [unique (List.find?_some other) holds]

namespace Proposal

variable {target : Target} {faces : List Face} {formula : Formula}

/-- The faces of which dice are proposed on their own, without the two that only extend others. -/
def numeric (faces : List Face) : List Face :=
  faces.filter fun face => !face.isFudge && !face.isBinary

/-- What is proposed of numeric faces alone. -/
inductive Plain (target : Target) (faces : List Face) (formula : Formula) : Prop where
  /-- One die, centred on the target. -/
  | single {average : Binary64} {face : Face}
    (middle : wholeQuotient (target.min + target.max) 2 = .ok average)
    (offered : face ∈ numeric faces) (made : centered average [face] = .ok formula)
  /-- Two dice, centred on the target. -/
  | double {average : Binary64} {first second : Face}
    (middle : wholeQuotient (target.min + target.max) 2 = .ok average)
    (offered : (first, second) ∈ pairs (numeric faces))
    (made : centered average [first, second] = .ok formula)
  /-- A group of dice as wide as the target. -/
  | span {face : Face} (offered : face ∈ numeric faces)
    (made : spanning target face = .ok (some formula))

/-- What was proposed before, and what a small die makes of it when such a die was offered. -/
inductive Grown (face : Option Face) (extend : Face → Formula → Except Failure (List Formula))
    (base : Formula → Prop) (formula : Formula) : Prop where
  /-- A proposal that is kept as it is. -/
  | kept (proposed : base formula)
  /-- An extension of a proposal. -/
  | extended {die : Face} {old : Formula} {more : List Formula} (offered : face = some die)
    (proposed : base old) (made : extend die old = .ok more) (inside : formula ∈ more)

/-- What is proposed for a target: the binary die extends the plain proposals, and Fudge dice extend
all of these. -/
def Proposed (target : Target) (faces : List Face) : Formula → Prop :=
  Grown (faces.find? Face.isFudge) (withFudge target)
    (Grown (faces.find? Face.isBinary) (withBinary target) (Plain target faces))

/-- Extending keeps every proposal and adds what the die makes of each. -/
theorem mem_extendAll {face : Option Face}
    {extend : Face → Formula → Except Failure (List Formula)} {proposals grown : List Formula}
    (ok : extendAll face extend proposals = .ok grown) :
    formula ∈ grown ↔ Grown face extend (· ∈ proposals) formula := by
  unfold extendAll at ok
  cases face with
  | none =>
    -- Without a die nothing is added.
    obtain rfl := Except.ok.inj ok
    constructor
    · exact .kept
    · rintro (proposed | ⟨offered, _, _, _⟩)
      · exact proposed
      · cases offered
  | some die =>
    obtain ⟨added, walked, made⟩ := bind_eq_ok.mp ok
    obtain rfl := Except.ok.inj made
    simp only [List.mem_append, List.mem_flatten]
    constructor
    · rintro (proposed | ⟨more, among, inside⟩)
      · exact .kept proposed
      · obtain ⟨old, proposed, extension⟩ := (mem_mapM_eq_ok walked).mp among
        exact .extended rfl proposed extension inside
    · rintro (proposed | ⟨offered, proposed, extension, inside⟩)
      · exact .inl proposed
      · obtain rfl := Option.some.inj offered
        exact .inr ⟨_, (mem_mapM_eq_ok walked).mpr ⟨_, proposed, extension⟩, inside⟩

/-- The plain proposals are the singles, the doubles and the spans that are made of numeric faces. -/
theorem mem_plain {average : Binary64} {singles doubles : List Formula}
    {spans : List (Option Formula)}
    (middle : wholeQuotient (target.min + target.max) 2 = .ok average)
    (singlesMade : ((numeric faces).mapM fun face => centered average [face]) = .ok singles)
    (doublesMade : ((pairs (numeric faces)).mapM fun pair => centered average [pair.1, pair.2]) =
      .ok doubles)
    (spansMade : (numeric faces).mapM (spanning target) = .ok spans) :
    formula ∈ singles ++ doubles ++ spans.filterMap id ↔ Plain target faces formula := by
  simp only [List.mem_append, List.mem_filterMap, id_eq, mem_mapM_eq_ok singlesMade,
    mem_mapM_eq_ok doublesMade, exists_eq_right, mem_mapM_eq_ok spansMade]
  constructor
  · rintro ((⟨face, offered, made⟩ | ⟨pair, offered, made⟩) | ⟨face, offered, made⟩)
    · -- Whatever was collected was made of a numeric face, or of a pair of them.
      exact .single middle offered made
    · exact .double middle offered made
    · exact .span offered made
  · rintro (⟨centre, offered, made⟩ | ⟨centre, offered, made⟩ | ⟨offered, made⟩)
    · -- The target has one middle, so both averages are the same value.
      rw [middle, Except.ok.injEq] at centre
      subst centre
      exact .inl (.inl ⟨_, offered, made⟩)
    · rw [middle, Except.ok.injEq] at centre
      subst centre
      exact .inl (.inr ⟨_, offered, made⟩)
    · exact .inr ⟨_, offered, made⟩

/-- A search proposes exactly what the faces make. -/
theorem mem_all {proposals : List Formula} (ok : all target faces = .ok proposals) :
    formula ∈ proposals ↔ Proposed target faces formula := by
  unfold all at ok
  obtain ⟨average, middle, ok⟩ := bind_eq_ok.mp ok
  obtain ⟨singles, singlesMade, ok⟩ := bind_eq_ok.mp ok
  obtain ⟨doubles, doublesMade, ok⟩ := bind_eq_ok.mp ok
  obtain ⟨spans, spansMade, ok⟩ := bind_eq_ok.mp ok
  obtain ⟨raised, raisedMade, ok⟩ := bind_eq_ok.mp ok
  -- Each of the two extensions grows what was proposed before it.
  have plainSet : (· ∈ singles ++ doubles ++ spans.filterMap id) = Plain target faces :=
    funext fun formula => propext (mem_plain middle singlesMade doublesMade spansMade)
  have raisedSet : (· ∈ raised) =
      Grown (faces.find? Face.isBinary) (withBinary target) (Plain target faces) := by
    funext formula
    rw [← plainSet]
    exact propext (mem_extendAll raisedMade)
  rw [mem_extendAll ok, raisedSet]
  rfl

/-- Growing from more proposals, by no other die, gives more of them. -/
theorem Grown.imp {face other : Option Face}
    {extend : Face → Formula → Except Failure (List Formula)} {base otherBase : Formula → Prop}
    (offered : ∀ die, face = some die → other = some die)
    (proposed : ∀ formula, base formula → otherBase formula)
    (grown : Grown face extend base formula) : Grown other extend otherBase formula := by
  cases grown with
  | kept holds => exact .kept (proposed _ holds)
  | extended die holds made inside => exact .extended (offered _ die) (proposed _ holds) made inside

/-- A pair stays a pair when items are added between and around its two. -/
theorem mem_pairs_of_sublist {α : Type} {few many : List α} (part : few.Sublist many)
    {pair : α × α} (member : pair ∈ pairs few) : pair ∈ pairs many := by
  induction part with
  | slnil => exact member
  | cons item _ ih => exact List.mem_append_right _ (ih member)
  | cons_cons item rest ih =>
    -- The first item of a pair is the one in front, or both stand behind it.
    rcases List.mem_append.mp member with front | behind
    · obtain ⟨second, among, rfl⟩ := List.mem_map.mp front
      exact List.mem_append_left _ (List.mem_map_of_mem ((rest.cons_cons item).subset among))
    · exact List.mem_append_right _ (ih behind)

variable {moreFaces : List Face}

/-- Whatever some faces make on their own is made when others are added. -/
theorem Plain.of_sublist (part : faces.Sublist moreFaces) (plain : Plain target faces formula) :
    Plain target moreFaces formula := by
  -- Which faces are numeric is told by each face alone, so the added ones only stand between.
  have kept : (numeric faces).Sublist (numeric moreFaces) := part.filter _
  cases plain with
  | single middle offered made => exact .single middle (kept.subset offered) made
  | double middle offered made => exact .double middle (mem_pairs_of_sublist kept offered) made
  | span offered made => exact .span (kept.subset offered) made

/-- Whatever is proposed of some faces is proposed when others are added. -/
theorem Proposed.of_sublist (part : faces.Sublist moreFaces)
    (proposed : Proposed target faces formula) : Proposed target moreFaces formula := by
  -- The two dice that extend proposals are the same ones wherever they are offered.
  have binary (die : Face) (found : faces.find? Face.isBinary = some die) :
      moreFaces.find? Face.isBinary = some die :=
    find?_of_subset Face.isBinary_unique part.subset found
  have fudge (die : Face) (found : faces.find? Face.isFudge = some die) :
      moreFaces.find? Face.isFudge = some die :=
    find?_of_subset Face.isFudge_unique part.subset found
  exact proposed.imp fudge fun _ raised => raised.imp binary fun _ => Plain.of_sublist part

/-- Whatever has grown has grown from something. -/
theorem Grown.exists_base {face : Option Face}
    {extend : Face → Formula → Except Failure (List Formula)} {base : Formula → Prop}
    (grown : Grown face extend base formula) : ∃ old, base old := by
  cases grown with
  | kept holds => exact ⟨formula, holds⟩
  | extended _ holds _ _ => exact ⟨_, holds⟩

/-- Without faces nothing is proposed. -/
theorem Proposed.faces_ne_nil (proposed : Proposed target faces formula) : faces ≠ [] := by
  rintro rfl
  obtain ⟨raised, grown⟩ := proposed.exists_base
  obtain ⟨plain, made⟩ := grown.exists_base
  -- A plain proposal has a face, or a pair of faces, that was offered.
  cases made with
  | single _ offered _ => cases offered
  | double _ offered _ => cases offered
  | span offered _ => cases offered

/-- At least one die is written for at least one face. -/
theorem oneEach_ne_nil (first : Face) (rest : List Face) : oneEach (first :: rest) ≠ [] := by
  unfold oneEach
  rw [List.foldr_cons]
  split
  · split <;> simp
  · simp

/-- A centred formula has one die of each of its faces. -/
theorem terms_of_centered {average : Binary64} (made : centered average faces = .ok formula) :
    formula.terms = oneEach faces := by
  obtain ⟨mean, -, made⟩ := bind_eq_ok.mp made
  obtain ⟨modifier, -, made⟩ := bind_eq_ok.mp made
  rw [← Except.ok.inj made]

/-- Extending puts as many dice behind a formula as the gap is wide, unless it is too wide. -/
theorem mem_extended {old : Formula} {sign : Sign} {face : Face} {gap : Int} :
    formula ∈ extended old sign face gap ↔
      ∃ term : Term, term.sign = sign ∧ term.face = face ∧ term.count = gap ∧ gap ≤ largestGap ∧
        formula = { old with terms := old.terms ++ [term] } := by
  unfold extended
  constructor
  · intro inside
    split at inside
    · -- A gap that is positive and not too wide is a number of dice.
      rename_i positive
      split at inside
      · rename_i narrow
        have count : (gap.toNat : Int) = gap := by omega
        exact ⟨⟨sign, gap.toNat, face, positive⟩, rfl, rfl, count, narrow, List.mem_singleton.mp inside⟩
      · cases inside
    · cases inside
  · rintro ⟨⟨_, count, _, positive⟩, rfl, rfl, rfl, narrow, rfl⟩
    rw [dif_pos (by simpa using positive), if_pos narrow]
    simp

/-- A group as wide as the target has the rounded ratio of the two widths as its number of dice, held
within its bounds, and begins where the target does. -/
theorem exists_of_spanning {face : Face} (made : spanning target face = .ok (some formula)) :
    ∃ ratio whole, ∃ positive : 0 < (max 1 (min mostDice whole)).toNat,
      wholeQuotient (target.max - target.min) (face.high - face.low) = .ok ratio ∧
      (Number.real ratio).roundHalfUp = .ok whole ∧
      formula = ⟨[⟨.plus, (max 1 (min mostDice whole)).toNat, face, positive⟩],
        target.min - (max 1 (min mostDice whole)).toNat * face.low⟩ := by
  unfold spanning at made
  split at made
  · -- A face with a single value spans nothing.
    cases made
  · obtain ⟨ratio, widths, made⟩ := bind_eq_ok.mp made
    obtain ⟨whole, rounded, made⟩ := bind_eq_ok.mp made
    dsimp only at made
    split at made
    · rename_i positive
      exact ⟨ratio, whole, positive, widths, rounded, (Option.some.inj (Except.ok.inj made)).symm⟩
    · cases made

/-- The binary die is added to close the gap above, or taken away to close the gap below. -/
theorem exists_extended_of_withBinary {face : Face} {old : Formula} {more : List Formula}
    (made : withBinary target face old = .ok more) (inside : formula ∈ more) :
    ∃ stats, old.stats = .ok stats ∧
      (formula ∈ extended old .plus face (target.max - stats.max) ∨
        formula ∈ extended old .minus face (stats.min - target.min)) := by
  obtain ⟨stats, known, made⟩ := bind_eq_ok.mp made
  obtain rfl := Except.ok.inj made
  exact ⟨stats, known, List.mem_append.mp inside⟩

/-- Fudge dice are added to close the smaller of the two gaps. -/
theorem exists_extended_of_withFudge {face : Face} {old : Formula} {more : List Formula}
    (made : withFudge target face old = .ok more) (inside : formula ∈ more) :
    ∃ stats, old.stats = .ok stats ∧
      formula ∈ extended old .plus face (min (stats.min - target.min) (target.max - stats.max)) := by
  obtain ⟨stats, known, made⟩ := bind_eq_ok.mp made
  obtain rfl := Except.ok.inj made
  exact ⟨stats, known, inside⟩

/-- What is kept by every extension holds after growing when it held before. -/
theorem Grown.of_base {face : Option Face}
    {extend : Face → Formula → Except Failure (List Formula)} {base motive : Formula → Prop}
    (start : ∀ {formula}, base formula → motive formula)
    (keeps : ∀ {die old more formula}, extend die old = .ok more → formula ∈ more → motive old →
      motive formula)
    (grown : Grown face extend base formula) : motive formula := by
  cases grown with
  | kept holds => exact start holds
  | extended _ holds made inside => exact keeps made inside (start holds)

/--
What holds of the plain proposals, and stays true when a term is put behind a formula, holds of every
proposal.

Both extensions only ever put one term behind a formula.
-/
theorem Proposed.induction {motive : Formula → Prop}
    (plain : ∀ {formula}, Plain target faces formula → motive formula)
    (behind : ∀ {old : Formula} {term : Term}, motive old →
      motive { old with terms := old.terms ++ [term] })
    (proposed : Proposed target faces formula) : motive formula := by
  refine Grown.of_base (Grown.of_base plain ?_) ?_ proposed
  · intro die old more formula made inside holds
    obtain ⟨stats, -, raised | lowered⟩ := exists_extended_of_withBinary made inside
    · obtain ⟨term, -, -, -, -, rfl⟩ := mem_extended.mp raised
      exact behind holds
    · obtain ⟨term, -, -, -, -, rfl⟩ := mem_extended.mp lowered
      exact behind holds
  · intro die old more formula made inside holds
    obtain ⟨stats, -, widened⟩ := exists_extended_of_withFudge made inside
    obtain ⟨term, -, -, -, -, rfl⟩ := mem_extended.mp widened
    exact behind holds

/-- No plain proposal is without dice. -/
theorem Plain.terms_ne_nil (plain : Plain target faces formula) : formula.terms ≠ [] := by
  cases plain with
  | single _ _ made =>
    rw [terms_of_centered made]
    exact oneEach_ne_nil _ _
  | double _ _ made =>
    rw [terms_of_centered made]
    exact oneEach_ne_nil _ _
  | span _ made =>
    obtain ⟨-, -, -, -, -, rfl⟩ := exists_of_spanning made
    exact List.cons_ne_nil _ _

/-- No proposal is without dice. -/
theorem Proposed.terms_ne_nil (proposed : Proposed target faces formula) : formula.terms ≠ [] :=
  proposed.induction Plain.terms_ne_nil fun _ => List.concat_ne_nil _ _

end Proposal

end DiceLab
