import DiceLab.Proofs.Generator.Search

/-! An outside generator is asked once, and what it hands over is used as a whole or not at all. -/

namespace DiceLab.Generator

namespace Answer

/-- The drafts that are handed over, up to the end of the answer. -/
def handed : Answer → List Draft
  | .done => []
  | .failed _ => []
  | .next draft rest => draft :: rest.handed

/-- The message of the failure that ends an answer, if one does. -/
def failure? : Answer → Option Text
  | .done => none
  | .failed message => some message
  | .next _ rest => rest.failure?

/-- A failure at the end of an answer leaves nothing usable, whatever was handed over before it. -/
theorem usable_eq (answer : Answer) :
    answer.usable =
      match answer.failure? with
      | some message => .error message
      | none => .ok (answer.handed.filter Draft.isSome) := by
  induction answer with
  | done => rfl
  | failed message => rfl
  | next draft rest ih =>
    rw [usable, ih, failure?, handed]
    -- The end of the answer decides, and only then is the draft looked at.
    cases rest.failure? with
    | some message => rfl
    | none => cases readable : draft.isSome <;> simp [readable, bind, Except.bind, pure, Except.pure]

/-- Drafts are handed over as they are. -/
@[simp] theorem handed_drafts (all : List Draft) : (drafts all).handed = all := by
  induction all with
  | nil => rfl
  | cons draft rest ih => exact congrArg (draft :: ·) ih

/-- There is no failure behind drafts. -/
@[simp] theorem failure?_drafts (all : List Draft) : (drafts all).failure? = none := by
  induction all with
  | nil => rfl
  | cons draft rest ih => exact ih

end Answer

variable {target : Target} {available : List FaceTag} {limit : Value} {request : Request}
  {answer : Answer}

/-- When there is nothing to read in what was handed over, the search takes its place. -/
theorem followUp_of_nothing (ended : answer.failure? = none)
    (nothing : ∀ draft ∈ answer.handed, draft.isSome = false) :
    (followUp target available limit request answer).result =
      (search target available limit).result := by
  -- None of the drafts is a text, so nothing is left to rank and the search takes over.
  have empty : answer.handed.filter Draft.isSome = [] := by
    apply List.filter_eq_nil_iff.mpr
    intro draft member
    simp [nothing draft member]
  rw [followUp, Answer.usable_eq, ended, empty]
  rfl

/-- Drafts in which there is something to read are ranked when they were handed over to the end. -/
theorem followUp_of_some (ended : answer.failure? = none)
    (readable : ∃ draft ∈ answer.handed, draft.isSome = true) :
    followUp target available limit request answer =
      Candidate.rank (answer.handed.filter Draft.isSome) request.target limit := by
  -- One draft is left at least, and it is ranked instead of searching.
  have nonempty : (answer.handed.filter Draft.isSome).isEmpty = false := by
    obtain ⟨draft, member, given⟩ := readable
    apply List.isEmpty_eq_false_iff_exists_mem.mpr
    exact ⟨draft, List.mem_filter.mpr ⟨member, given⟩⟩
  rw [followUp, Answer.usable_eq, ended]
  simp only [nonempty]
  rfl

/-- The question that a target and some faces come to. -/
def Request.of (target : Target) (faces : List Face) : Request where
  target := ⟨min target.min target.max, max target.min target.max⟩
  tags := faces.map Face.tagText

variable {σ : Type} {ask : Request → σ → Answer × σ} {state : σ} {faces : List Face}

/-- One question is put to a generator, and its answer decides what comes out. -/
theorem suggestFrom_eq (resolved : (FaceTag.resolve available).result = .ok faces)
    (writable : ∀ face ∈ faces, face.Writable) :
    (suggestFrom target available limit (some ask) state).1.result =
        (followUp target available limit (.of target faces) (ask (.of target faces) state).1).result ∧
      (suggestFrom target available limit (some ask) state).2 = (ask (.of target faces) state).2 := by
  have named : tags faces = .ok (faces.map Face.tagText) := tags_eq_ok.mpr ⟨writable, rfl⟩
  -- Faces and tags are there before the question, and the follow-up leaves the generator alone.
  have facesEnd : (liftM (FaceTag.resolve available) : Session σ _).Ends state faces state :=
    Session.lift_ends.mpr ⟨resolved, rfl⟩
  have tagsEnd : (liftM (tags faces) : Session σ _).Ends state (faces.map Face.tagText) state :=
    Session.lift_result_ends.mpr ⟨named, rfl⟩
  have asked : (Session.ofState (ask (.of target faces))).Ends state
      (ask (.of target faces) state).1 (ask (.of target faces) state).2 :=
    Session.ofState_ends.mpr rfl
  constructor
  · rw [suggestFrom, (Session.bind_of_ends facesEnd).1, (Session.bind_of_ends tagsEnd).1]
    exact (Session.bind_of_ends asked).1
  · rw [suggestFrom, (Session.bind_of_ends facesEnd).2, (Session.bind_of_ends tagsEnd).2]
    exact (Session.bind_of_ends asked).2

/-- The one question that was put to a generator is given beside what comes out. -/
theorem suggest_result (answers : Request → Answer)
    (resolved : (FaceTag.resolve available).result = .ok faces)
    (writable : ∀ face ∈ faces, face.Writable) :
    (suggest target available limit (some answers)).result =
      (followUp target available limit (.of target faces) (answers (.of target faces))).result.map
        fun candidates => ([.of target faces], candidates) := by
  -- The answers are given by a function, and the requests are only noted beside it.
  let ask : Request → Unit × List Request → Answer × Unit × List Request :=
    noting fun request state => (answers request, state)
  obtain ⟨result, asked⟩ : (suggestFrom target available limit (some ask) ((), [])).1.result =
        (followUp target available limit (.of target faces) (answers (.of target faces))).result ∧
      (suggestFrom target available limit (some ask) ((), [])).2 = ((), [.of target faces]) :=
    suggestFrom_eq resolved writable
  show Except.map (fun candidates =>
    ((suggestFrom target available limit (some ask) ((), [])).2.2, candidates)) _ = _
  rw [asked, ← result]
  rfl

end DiceLab.Generator
