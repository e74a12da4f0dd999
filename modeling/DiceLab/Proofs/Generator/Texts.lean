import DiceLab.Proofs.Candidate.Scorable
import DiceLab.Proofs.Generator.AllOrNothing
import DiceLab.Proofs.Generator.Faces

/-! What comes of the texts that an outside generator hands over: only too large a number among them
makes a failure, and texts that say nothing come to the number zero. -/

namespace DiceLab

/-- There is something to read in a text that is not empty. -/
theorem Draft.isSome_ofText {text : Text} : (ofText text).isSome = true ↔ text ≠ [] := by
  simp [ofText, isSome, Value.isSome]

/-- A formula without dice and without a number is the empty one. -/
theorem Formula.eq_empty {formula : Formula} (noTerms : formula.terms = [])
    (zero : formula.modifier = 0) : formula = {} := by
  obtain ⟨terms, modifier⟩ := formula
  obtain rfl : terms = [] := noTerms
  obtain rfl : modifier = 0 := zero
  rfl

namespace Generator

variable {σ : Type} {ask : Request → σ → Answer × σ} {state : σ} {target : Target}
  {available : List FaceTag} {limit : Value} {faces : List Face} {texts : List Text}
  {found : List Candidate}

/-- The texts in which there is something to read, as drafts. -/
def filled (texts : List Text) : List Draft := (texts.filter (· ≠ [])).map .ofText

/-- A text that is not empty is handed over to be read. -/
theorem mem_filled {draft : Draft} :
    draft ∈ filled texts ↔ ∃ text ∈ texts, text ≠ [] ∧ draft = .ofText text := by
  simp only [filled, List.mem_map, List.mem_filter, decide_eq_true_eq]
  constructor
  · rintro ⟨text, ⟨member, nonempty⟩, rfl⟩
    -- Empty texts are dropped, and every other one becomes a draft.
    exact ⟨text, member, nonempty, rfl⟩
  · rintro ⟨text, member, nonempty, rfl⟩
    exact ⟨text, ⟨member, nonempty⟩, rfl⟩

section

variable (resolved : (FaceTag.resolve available).result = .ok faces)
  (writable : ∀ face ∈ faces, face.Writable)
  (answered : (ask (.of target faces) state).1 = .drafts (texts.map .ofText))

include resolved writable answered

/-- Texts that are all empty leave what a search finds. -/
theorem suggestFrom_of_empty (empty : ∀ text ∈ texts, text = []) :
    (suggestFrom target available limit (some ask) state).1.result =
      (search target available limit).result := by
  rw [(suggestFrom_eq resolved writable).1, answered]
  -- The answer ends without a failure, and in none of its drafts there is something to read.
  apply followUp_of_nothing
  · simp
  · intro draft member
    rw [Answer.handed_drafts, List.mem_map] at member
    obtain ⟨text, inside, rfl⟩ := member
    rw [empty text inside]
    rfl

/-- Of any other texts those that are not empty are ranked. -/
theorem suggestFrom_of_filled (given : ∃ text ∈ texts, text ≠ []) :
    (suggestFrom target available limit (some ask) state).1.result =
      (Candidate.rank (filled texts) target.ordered limit).result := by
  obtain ⟨text, member, nonempty⟩ := given
  have readable : ∃ draft ∈ (texts.map Draft.ofText), draft.isSome = true :=
    ⟨_, List.mem_map_of_mem member, Draft.isSome_ofText.mpr nonempty⟩
  -- Empty texts may be left out before or after the others are made drafts.
  have usable : (texts.map Draft.ofText).filter Draft.isSome = filled texts := by
    rw [List.filter_map, filled]
    congr 1
    apply List.filter_congr
    intro text _
    simp [← Draft.isSome_ofText]
  rw [(suggestFrom_eq resolved writable).1, answered,
    followUp_of_some (by simp) (by simpa using readable), Answer.handed_drafts, usable]
  rfl

/-- Texts of which some are not empty give candidates exactly when the limit can be brought into
range and each of them is read as a formula that can be scored. -/
theorem exists_suggestFrom_of_filled (given : ∃ text ∈ texts, text ≠ []) :
    (∃ kept, (suggestFrom target available limit (some ask) state).1.result = .ok kept) ↔
      (∃ used, Candidate.allowed limit = .ok used) ∧ ∀ text ∈ texts, text ≠ [] →
        ∃ reading, (Reading.ofText text).result = .ok reading ∧
          reading.formula.Scorable target.ordered := by
  -- A ranking needs nothing but its limit and a score for each draft.
  rw [suggestFrom_of_filled resolved writable answered given, Candidate.exists_rank_eq_ok]
  apply and_congr_right
  intro _
  constructor
  · intro each text member nonempty
    exact Candidate.exists_ofText_eq_ok.mp (each _ (mem_filled.mpr ⟨text, member, nonempty, rfl⟩))
  · intro each draft member
    obtain ⟨text, inside, nonempty, rfl⟩ := mem_filled.mp member
    exact Candidate.exists_ofText_eq_ok.mpr (each text inside nonempty)

end

/-- The range from 1 to 6 is found as a six-sided die, and behind it as a pair of them. -/
theorem exists_search_die {limit : Value} {used : Int}
    (held : Candidate.allowed limit = .ok used) :
    ∃ die pair : Candidate, die.text = "1d6" ∧ pair.text = "2d6-3" ∧
      (search ⟨1, 6⟩ [.value (.text "d6")] limit).result = .ok ([die, pair].take used.toNat) := by
  let face : Face := .numeric 6 (by decide)
  let die : Candidate :=
    ⟨"1d6", ⟨1, 6, .ofDecimal false 35 (-1)⟩, .ofInt 100, .perfect, .zero false, .flat⟩
  let pair : Candidate :=
    ⟨"2d6-3", ⟨-1, 9, .ofInt 4⟩, .zero false, .wider, .ofDecimal false 5 (-1), .somewhatBell⟩
  -- The die is proposed alone, as a pair, and in a group as wide as the target.
  let one : Formula := ⟨[⟨.plus, 1, face, by decide⟩], 0⟩
  let two : Formula := ⟨[⟨.plus, 2, face, by decide⟩], -3⟩
  have turned : Target.ordered ⟨1, 6⟩ = ⟨1, 6⟩ := by decide
  have ends : Decimal.Writable 1 ∧ Decimal.Writable 6 := by decide +kernel
  have named : ([.value (.text "d6")] : List FaceTag).mapM (fun tag => (FaceTag.read tag).result) =
      .ok [some face] := by decide +kernel
  have resolved : (FaceTag.resolve [.value (.text "d6")]).result = .ok [face] :=
    FaceTag.resolve_eq_ok_ordered named (List.pairwise_singleton _ _) (by simp)
  have proposed : Proposal.all ⟨1, 6⟩ [face] = .ok [one, two, one] := by decide +kernel
  have scored : ([one, two, one].mapM fun formula => Candidate.ofFormula formula ⟨1, 6⟩) =
      .ok [die, pair, die] := by decide +kernel
  have strict : [die, pair].Pairwise Candidate.Before := by decide +kernel
  refine ⟨die, pair, rfl, rfl, ?_⟩
  exact search_eq_ok_take turned ends ends resolved (by simp) (by decide +kernel) proposed held
    scored strict (by simp) (by simp)

/--
Texts that an outside generator hands over give candidates exactly when they are all empty, or each
of the others is read as a formula that can be scored.

Only too large a number makes a failure: there is none as long as no text has more than 307 code
points and no end of the target is farther out than that power of ten, whatever the texts say.
-/
theorem suggestFrom_texts {σ : Type} (ask : Request → σ → Answer × σ) (state : σ)
    (target : Target) (available : List FaceTag) (limit : Value) (texts : List Text)
    {found : List Candidate} (ok : (search target available limit).result = .ok found)
    {faces : List Face} (resolved : (FaceTag.resolve available).result = .ok faces)
    (answered : (ask (.of target faces) state).1 = .drafts (texts.map .ofText)) :
    ((∃ kept, (suggestFrom target available limit (some ask) state).1.result = .ok kept) ↔
      (∀ text ∈ texts, text = []) ∨
        (∃ used, Candidate.allowed limit = .ok used) ∧ ∀ text ∈ texts, text ≠ [] →
          ∃ reading, (Reading.ofText text).result = .ok reading ∧
            reading.formula.Scorable target.ordered) ∧
      ((∀ text ∈ texts, text.length ≤ 307) →
        target.min.natAbs ≤ tenTo 307 ∧ target.max.natAbs ≤ tenTo 307 →
        (∃ used, Candidate.allowed limit = .ok used) →
          ∃ kept, (suggestFrom target available limit (some ask) state).1.result = .ok kept) := by
  have writable := writable_of_search ok resolved
  have returns : (∃ kept, (suggestFrom target available limit (some ask) state).1.result =
      .ok kept) ↔ (∀ text ∈ texts, text = []) ∨
        (∃ used, Candidate.allowed limit = .ok used) ∧ ∀ text ∈ texts, text ≠ [] →
          ∃ reading, (Reading.ofText text).result = .ok reading ∧
            reading.formula.Scorable target.ordered := by
    by_cases empty : ∀ text ∈ texts, text = []
    · -- The search takes the place of the generator, and it gives candidates.
      rw [suggestFrom_of_empty resolved writable answered empty]
      exact ⟨fun _ => .inl empty, fun _ => ⟨found, ok⟩⟩
    · have given : ∃ text ∈ texts, text ≠ [] := by simpa using empty
      rw [exists_suggestFrom_of_filled resolved writable answered given]
      exact ⟨.inr, fun either => either.resolve_left empty⟩
  refine ⟨returns, ?_⟩
  intro short ends held
  -- Putting the ends in order makes neither of them larger.
  have orderedEnds : target.ordered.min.natAbs ≤ tenTo 307 ∧
      target.ordered.max.natAbs ≤ tenTo 307 := by
    simp only [Target.ordered]
    omega
  apply returns.mpr
  right
  refine ⟨held, ?_⟩
  intro text member _
  exact Reading.exists_scorable_of_short (short text member) orderedEnds

/-- Words, dice and an empty text give candidates, since none of their numbers is large. -/
theorem suggestFrom_texts_mixed :
    let texts : List Text := ["2d4-1", "", "no dice", "0d6 + 9999d%"]
    let ask (_ : Request) (calls : Nat) : Answer × Nat := (.drafts (texts.map .ofText), calls + 1)
    (∃ found, (search ⟨1, 6⟩ [.value (.text "d6")] (.whole 12)).result = .ok found) ∧
      (∃ kept, (suggestFrom ⟨1, 6⟩ [.value (.text "d6")] (.whole 12) (some ask) 0).1.result =
        .ok kept) ∧
      ∀ text ∈ texts, text ≠ [] → ∃ reading, (Reading.ofText text).result = .ok reading ∧
        reading.formula.Scorable ⟨1, 6⟩ := by
  intro texts ask
  have held : Candidate.allowed (.whole 12) = .ok 12 := by decide +kernel
  obtain ⟨_, _, -, -, ok⟩ := exists_search_die held
  obtain ⟨-, faces, resolved, -⟩ := search_eq_ok.mp ok
  have answers := suggestFrom_texts ask 0 ⟨1, 6⟩ [.value (.text "d6")] (.whole 12) texts ok
    resolved rfl
  have kept := answers.2 (by decide) (by decide +kernel) ⟨12, held⟩
  have given : ¬∀ text ∈ texts, text = [] := by decide
  exact ⟨⟨_, ok⟩, kept, ((answers.1.mp kept).resolve_left given).2⟩

/-- A number of 310 digits makes a failure, although the search gives candidates. -/
theorem suggestFrom_longNumber :
    let text : Text := .char '1' :: List.replicate 309 (.char '0')
    let ask (_ : Request) (calls : Nat) : Answer × Nat := (.drafts [.ofText text], calls + 1)
    (∃ found, (search ⟨1, 6⟩ [.value (.text "d6")] (.whole 12)).result = .ok found) ∧
      (suggestFrom ⟨1, 6⟩ [.value (.text "d6")] (.whole 12) (some ask) 0).1.result =
        .error .wholeTooLarge := by
  intro text ask
  have held : Candidate.allowed (.whole 12) = .ok 12 := by decide +kernel
  obtain ⟨_, _, -, -, ok⟩ := exists_search_die held
  obtain ⟨-, faces, resolved, -⟩ := search_eq_ok.mp ok
  refine ⟨⟨_, ok⟩, ?_⟩
  have answered : (ask (.of ⟨1, 6⟩ faces) 0).1 = .drafts ([text].map .ofText) := rfl
  have given : ∃ each ∈ [text], each ≠ [] := ⟨text, by simp, List.cons_ne_nil _ _⟩
  rw [suggestFrom_of_filled resolved (writable_of_search ok resolved) answered given]
  decide +kernel

/-- No search finds the formula without dice and without a number. -/
theorem ofFormula_empty_not_mem {candidate : Candidate}
    (ok : (search target available limit).result = .ok found)
    (scored : Candidate.ofFormula {} target.ordered = .ok candidate) : candidate ∉ found := by
  intro member
  obtain ⟨faces, formula, -, proposed, made⟩ := exists_proposed_of_search ok member
  -- Only one formula is scored as the candidate, and what is proposed has dice.
  obtain rfl := Candidate.ofFormula_inj scored made
  exact proposed.terms_ne_nil rfl

/--
Texts that are all read as nothing leave what a search finds only if they are all empty.

Otherwise they are ranked as any others are. One candidate comes of them, the number zero, which no
search finds.
-/
theorem suggestFrom_ofNothing {σ : Type} (ask : Request → σ → Answer × σ) (state : σ)
    (target : Target) (available : List FaceTag) (limit : Value) (texts : List Text)
    {faces : List Face} (resolved : (FaceTag.resolve available).result = .ok faces)
    (writable : ∀ face ∈ faces, face.Writable)
    (answered : (ask (.of target faces) state).1 = .drafts (texts.map .ofText))
    (nothing : ∀ text ∈ texts, ∃ reading, (Reading.ofText text).result = .ok reading ∧
      reading.formula.terms = [] ∧ reading.formula.modifier = 0) :
    ((∀ text ∈ texts, text = []) →
      (suggestFrom target available limit (some ask) state).1.result =
        (search target available limit).result) ∧
    ((∃ text ∈ texts, text ≠ []) →
      (∀ kept, (suggestFrom target available limit (some ask) state).1.result = .ok kept ↔
        (∃ used, Candidate.allowed limit = .ok used) ∧ ∃ candidate,
          Candidate.ofFormula {} target.ordered = .ok candidate ∧ candidate.text = "0" ∧
            kept = [candidate]) ∧
      ∀ kept found, (suggestFrom target available limit (some ask) state).1.result = .ok kept →
        (search target available limit).result = .ok found → kept ≠ found) := by
  refine ⟨suggestFrom_of_empty resolved writable answered, fun given => ?_⟩
  have nonempty : filled texts ≠ [] := by
    obtain ⟨text, member, something⟩ := given
    exact List.ne_nil_of_mem (mem_filled.mpr ⟨text, member, something, rfl⟩)
  -- Whatever a text says, it is scored as the formula it is read as.
  have alike (draft : Draft) (member : draft ∈ filled texts) :
      (Candidate.ofDraft draft target.ordered).result =
        Candidate.ofFormula {} target.ordered := by
    obtain ⟨text, inside, -, rfl⟩ := mem_filled.mp member
    obtain ⟨reading, read, noTerms, zero⟩ := nothing text inside
    have empty : reading.formula = {} := Formula.eq_empty noTerms zero
    rw [← Draft.read_ofText] at read
    rw [Candidate.ofDraft_of_read read, empty]
  -- So one candidate comes of them, and it stands under the text of the empty formula.
  have single (kept : List Candidate) :
      (suggestFrom target available limit (some ask) state).1.result = .ok kept ↔
        (∃ used, Candidate.allowed limit = .ok used) ∧ ∃ candidate,
          Candidate.ofFormula {} target.ordered = .ok candidate ∧ candidate.text = "0" ∧
            kept = [candidate] := by
    rw [suggestFrom_of_filled resolved writable answered given,
      Candidate.rank_eq_ok_of_alike nonempty alike]
    apply and_congr_right
    intro _
    apply exists_congr
    intro candidate
    apply and_congr_right
    intro scored
    have text : candidate.text = "0" := (Candidate.of_ofFormula_eq_ok scored).2.1
    simp [text]
  refine ⟨single, fun kept found ok foundOk same => ?_⟩
  obtain ⟨-, candidate, scored, -, rfl⟩ := (single kept).mp ok
  apply ofFormula_empty_not_mem foundOk scored
  rw [← same]
  exact List.mem_singleton_self candidate

/-- A word, a die without sides and signs alone come to the number zero, which the search does not
find. -/
theorem suggestFrom_ofNothing_mixed :
    let texts : List Text := ["xyz", "", "1d0", " + -"]
    let ask (_ : Request) (calls : Nat) : Answer × Nat := (.drafts (texts.map .ofText), calls + 1)
    let zero : Candidate := ⟨"0", ⟨0, 0, .zero false⟩, .zero false, .noOverlap, .zero false, .flat⟩
    (suggestFrom ⟨1, 6⟩ [.value (.text "d6")] (.whole 12) (some ask) 0).1.result = .ok [zero] ∧
      ∃ found, (search ⟨1, 6⟩ [.value (.text "d6")] (.whole 12)).result = .ok found ∧
        [zero] ≠ found := by
  intro texts ask zero
  have held : Candidate.allowed (.whole 12) = .ok 12 := by decide +kernel
  obtain ⟨_, _, -, -, found⟩ := exists_search_die held
  obtain ⟨-, faces, resolved, -⟩ := search_eq_ok.mp found
  have nothing : ∀ text ∈ texts, ∃ reading, (Reading.ofText text).result = .ok reading ∧
      reading.formula.terms = [] ∧ reading.formula.modifier = 0 := by
    have word : (Reading.ofText "xyz").result = .ok ⟨{}, ["xyz"]⟩ := by decide +kernel
    have empty : (Reading.ofText "").result = .ok ⟨{}, []⟩ := by decide +kernel
    have sideless : (Reading.ofText "1d0").result = .ok ⟨{}, ["1d0"]⟩ := by decide +kernel
    have signs : (Reading.ofText " + -").result = .ok ⟨{}, ["+", "-"]⟩ := by decide +kernel
    intro text member
    simp only [texts, List.mem_cons, List.not_mem_nil, or_false] at member
    rcases member with rfl | rfl | rfl | rfl
    · exact ⟨_, word, rfl, rfl⟩
    · exact ⟨_, empty, rfl, rfl⟩
    · exact ⟨_, sideless, rfl, rfl⟩
    · exact ⟨_, signs, rfl, rfl⟩
  have scored : Candidate.ofFormula {} ⟨1, 6⟩ = .ok zero := by decide +kernel
  have answers := suggestFrom_ofNothing ask 0 ⟨1, 6⟩ [.value (.text "d6")] (.whole 12) texts
    resolved (writable_of_search found resolved) rfl nothing
  have given : ∃ text ∈ texts, text ≠ [] := ⟨"xyz", List.mem_cons_self, by decide⟩
  obtain ⟨single, apart⟩ := answers.2 given
  have ok := (single [zero]).mpr ⟨⟨12, held⟩, zero, scored, rfl, rfl⟩
  exact ⟨ok, _, found, apart _ _ ok found⟩

/-- A word in place of a formula is not passed over, although the search finds a die that fits. -/
theorem suggestFrom_word :
    let ask (_ : Request) (calls : Nat) : Answer × Nat := (.drafts [.ofText "xyz"], calls + 1)
    (Reading.ofText "xyz").result = .ok ⟨{}, ["xyz"]⟩ ∧ ∃ zero die pair : Candidate,
      zero.text = "0" ∧ die.text = "1d6" ∧ pair.text = "2d6-3" ∧
        (search ⟨1, 6⟩ [.value (.text "d6")] (.whole 12)).result = .ok [die, pair] ∧
        (suggestFrom ⟨1, 6⟩ [.value (.text "d6")] (.whole 12) (some ask) 0).1.result =
          .ok [zero] := by
  intro ask
  have held : Candidate.allowed (.whole 12) = .ok 12 := by decide +kernel
  obtain ⟨die, pair, dieText, pairText, ok⟩ := exists_search_die held
  obtain ⟨-, faces, resolved, -⟩ := search_eq_ok.mp ok
  let zero : Candidate := ⟨"0", ⟨0, 0, .zero false⟩, .zero false, .noOverlap, .zero false, .flat⟩
  let words : List Text := ["xyz"]
  refine ⟨by decide +kernel, zero, die, pair, rfl, dieText, pairText, ok, ?_⟩
  have answered : (ask (.of ⟨1, 6⟩ faces) 0).1 = .drafts (words.map .ofText) := rfl
  have given : ∃ word ∈ words, word ≠ [] := ⟨"xyz", List.mem_cons_self, by decide⟩
  have scored : ((filled words).mapM fun draft =>
      (Candidate.ofDraft draft (Target.ordered ⟨1, 6⟩)).result) = .ok [zero] := by decide +kernel
  rw [suggestFrom_of_filled resolved (writable_of_search ok resolved) answered given]
  exact Candidate.rank_eq_ok_take held scored (List.pairwise_singleton _ _) (by simp) (by simp)

end Generator

end DiceLab
