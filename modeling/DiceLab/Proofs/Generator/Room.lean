import DiceLab.Proofs.Generator.Offered
import DiceLab.Proofs.Proposal.Size

/-! A search for short ends with short tags always gives candidates, and all of them can be shown. -/

namespace DiceLab

open Binary64 (reach)

namespace FaceTag

variable {text : Text}

/-- A text that has not too many figures is read as a tag, and a face it names has fewer values than
the power of ten of their number. -/
theorem exists_readText_eq_ok (short : text.figures ≤ Decimal.digitLimit) :
    ∃ named, readText text = .ok named ∧
      ∀ face, named = some face → face.count < tenTo text.figures := by
  unfold readText
  dsimp only
  split
  · rename_i found taken
    obtain ⟨sidesText, spelled, whole, -⟩ := Chunk.takeSides_eq_some.mp taken
    -- The sides are left of the text when the letter in front is taken away.
    have inside : sidesText.length ≤ text.figures := by
      rw [List.append_nil] at whole
      rw [← spelled.figures_eq, ← whole]
      apply Text.figures_le
      split
      · exact List.sublist_cons_self _ _
      · exact List.sublist_cons_self _ _
      · exact List.Sublist.refl _
    obtain ⟨face, read⟩ := spelled.exists_readSides_eq_ok (Nat.le_trans inside short)
    refine ⟨face, read, ?_⟩
    intro known named
    have faced := (Chunk.readSides_eq_ok read known).mp named
    exact Nat.lt_of_lt_of_le (faced.count_lt spelled) (tenTo_le inside)
  · exact ⟨none, rfl, by simp⟩

/-- A tag that is a text is read when it has not too many figures. -/
theorem exists_read_text (short : text.figures ≤ Decimal.digitLimit) :
    ∃ named, (read (.value (.text text))).result = .ok named ∧
      ∀ face, named = some face → face.count < tenTo text.figures := by
  have squeezed : text.squeeze.figures ≤ text.figures := Text.figures_le List.filter_sublist
  obtain ⟨named, known, few⟩ := exists_readText_eq_ok (Nat.le_trans squeezed short)
  refine ⟨named, ?_, ?_⟩
  · simp only [read, ensureText, Reported.bind_result, Reported.lift_result, bind_eq_ok]
    refine ⟨.text text, rfl, text, rfl, named, known, ?_⟩
    -- What names no face is warned about, and a text can always be shown in the warning.
    cases named with
    | some face => rfl
    | none => rfl
  · intro face found
    exact Nat.lt_of_lt_of_le (few face found) (tenTo_le squeezed)

end FaceTag

namespace Generator

/-- Numbers of so many digits leave room for everything that is computed from them. -/
def roomyDigits : Nat := 300

/-- A thousand times a number of so many digits is still finite. -/
theorem room : 1000 * tenTo roomyDigits < reach := by decide +kernel

/-- Numbers of so many digits are shorter than those that can be written at most. -/
theorem tenTo_roomyDigits_le : tenTo roomyDigits ≤ tenTo Decimal.digitLimit :=
  tenTo_le (by decide)

/-- A thousand times a number of so many digits can still be written. -/
theorem writable_of_roomy {number : Int} (small : number.natAbs ≤ 1000 * tenTo roomyDigits) :
    Decimal.Writable number := by
  have limit : 1000 * tenTo roomyDigits < tenTo Decimal.digitLimit := by decide +kernel
  exact Nat.lt_of_le_of_lt small limit

end Generator

open Generator (roomyDigits)

namespace Formula

variable {formula : Formula}

/-- A formula that is not large can be written. -/
theorem writable_of_roomy (small : formula.size < tenTo roomyDigits) : formula.Writable :=
  writable_of_size (Nat.lt_of_lt_of_le small Generator.tenTo_roomyDigits_le)

/-- A formula that is not large has statistics, whose ends can be written. -/
theorem exists_stats_of_roomy (small : formula.size < tenTo roomyDigits) :
    ∃ stats, formula.stats = .ok stats ∧ Decimal.Writable stats.min ∧
      Decimal.Writable stats.max := by
  have room := Generator.room
  have double : 2 * formula.size < reach := by omega
  obtain ⟨stats, known⟩ := exists_stats_of_size double
  -- The ends of the range are no farther from zero than the size of the formula.
  obtain ⟨least, most⟩ := bounds_of_stats known
  obtain ⟨low, high⟩ := formula.natAbs_bounds_le
  refine ⟨stats, known, ?_, ?_⟩
  · rw [least]
    exact Generator.writable_of_roomy (by omega)
  · rw [most]
    exact Generator.writable_of_roomy (by omega)

end Formula

/-- A text with room for its numbers is read as a formula that is not large. -/
theorem Reading.exists_of_roomy {text : Text} (short : text.figures ≤ roomyDigits) :
    ∃ reading, (ofText text).result = .ok reading ∧
      reading.formula.size < tenTo roomyDigits := by
  obtain ⟨reading, read⟩ := exists_ofText_of_figures (Nat.le_trans short (by decide))
  exact ⟨reading, read, Nat.lt_of_lt_of_le (size_lt_of_ofText read) (tenTo_le short)⟩

namespace Generator

variable {names : List Text} {target : Target} {faces : List Face} {kept : List Candidate}

/-- The tags that some texts are. -/
def textTags (names : List Text) : List FaceTag := names.map fun name => .value (.text name)

/-- Short tags are resolved to faces with few values. -/
theorem exists_resolve_textTags (short : ∀ name ∈ names, name.figures ≤ roomyDigits) :
    ∃ faces, (FaceTag.resolve (textTags names)).result = .ok faces ∧
      ∀ face ∈ faces, face.count ≤ tenTo roomyDigits := by
  have limit : roomyDigits ≤ Decimal.digitLimit := by decide
  apply FaceTag.exists_resolve
  intro tag member
  obtain ⟨name, inside, rfl⟩ := List.mem_map.mp member
  obtain ⟨named, known, few⟩ := FaceTag.exists_read_text (Nat.le_trans (short name inside) limit)
  refine ⟨named, known, ?_⟩
  -- A name with few figures cannot spell a larger number of sides.
  intro face found
  exact Nat.le_of_lt (Nat.lt_of_lt_of_le (few face found) (tenTo_le (short name inside)))

/-- The ends of a target that is not large can be written. -/
theorem writable_ends (small : Proposal.Small (tenTo roomyDigits) target faces) :
    Decimal.Writable target.min ∧ Decimal.Writable target.max := by
  have ends := small.ends
  exact ⟨writable_of_roomy (by omega), writable_of_roomy (by omega)⟩

/-- A ranking of proposals for a target that is not large comes out. -/
theorem exists_rankProposals {limit : Int}
    (small : Proposal.Small (tenTo roomyDigits) target faces) (positive : 1 ≤ limit) :
    ∃ kept, (rankProposals target faces (.whole limit)).result = .ok kept := by
  obtain ⟨low, high⟩ := writable_ends small
  obtain ⟨proposals, made⟩ := small.exists_all
  have scored (draft : Draft)
      (member : draft ∈ proposals.map fun formula => .reading { formula }) :
      ∃ candidate, (Candidate.ofDraft draft target).result = .ok candidate := by
    obtain ⟨formula, inside, rfl⟩ := List.mem_map.mp member
    obtain ⟨candidate, known⟩ := ((Proposal.mem_all made).mp inside).exists_candidate small
    exact ⟨candidate, Candidate.ofDraft_eq_ok.mpr ⟨_, rfl, known⟩⟩
  have held : ∃ used, Candidate.allowed (.whole limit) = .ok used :=
    ⟨_, Candidate.allowed_whole_eq_ok.mpr ⟨.inl positive, rfl⟩⟩
  obtain ⟨kept, ranked⟩ := Candidate.exists_rank_eq_ok.mpr ⟨held, scored⟩
  refine ⟨kept, rankProposals_eq_ok.mpr ⟨proposals, made, low, high, ?_, ranked⟩⟩
  -- The faces are written into the log as well.
  intro face member
  have few := small.values face member
  cases face with
  | fudge => trivial
  | numeric sides some =>
    rw [Face.count_numeric] at few
    exact writable_of_roomy (by omega)

/-- Candidates for a target that is not large can be shown. -/
theorem showable_of_rankProposals {limit : Value}
    (small : Proposal.Small (tenTo roomyDigits) target faces)
    (ok : (rankProposals target faces limit).result = .ok kept) :
    ∀ candidate ∈ kept, candidate.Showable := by
  intro candidate member
  obtain ⟨proposals, made, -, -, -, ranked⟩ := rankProposals_eq_ok.mp ok
  obtain ⟨draft, inside, scored⟩ := Candidate.exists_ofDraft_of_rank ranked member
  obtain ⟨formula, proposed, rfl⟩ := List.mem_map.mp inside
  have known : Candidate.ofFormula formula target = .ok candidate := by
    obtain ⟨reading, read, known⟩ := Candidate.ofDraft_eq_ok.mp scored
    cases read
    exact known
  obtain ⟨least, most⟩ := Formula.bounds_of_stats (Candidate.stats_of_ofFormula known)
  -- The range of a proposal stays within its size.
  have size := ((Proposal.mem_all made).mp proposed).size_le small
  obtain ⟨low, high⟩ := formula.natAbs_bounds_le
  unfold Candidate.Showable
  rw [least, most]
  exact ⟨writable_of_roomy (by omega), writable_of_roomy (by omega)⟩

/-- A search with some faces gives candidates when neither these nor the target are large. -/
theorem exists_search_of_small {available : List FaceTag} {limit : Int}
    (resolved : (FaceTag.resolve available).result = .ok faces) (offered : faces ≠ [])
    (small : Proposal.Small (tenTo roomyDigits) target faces) (positive : 1 ≤ limit) :
    ∃ kept, (search target available (.whole limit)).result = .ok kept ∧
      ∀ candidate ∈ kept, candidate.Showable := by
  obtain ⟨kept, ranked⟩ := exists_rankProposals small.ordered positive
  -- Swapped ends are written into a warning first.
  exact ⟨kept, search_eq_ok.mpr ⟨fun _ => writable_ends small, faces, resolved,
    .inr ⟨offered, ranked⟩⟩, showable_of_rankProposals small.ordered ranked⟩

/-- A search for ends of few digits with short tags gives candidates that can be shown. -/
theorem exists_search {limit : Int}
    (ends : target.min.natAbs < tenTo roomyDigits ∧ target.max.natAbs < tenTo roomyDigits)
    (short : ∀ name ∈ names, name.figures ≤ roomyDigits) (positive : 1 ≤ limit) :
    ∃ kept, (search target (textTags names) (.whole limit)).result = .ok kept ∧
      ∀ candidate ∈ kept, candidate.Showable := by
  obtain ⟨faces, resolved, few⟩ := exists_resolve_textTags short
  have small : Proposal.Small (tenTo roomyDigits) target faces :=
    { ends := ⟨ends.1.le, ends.2.le⟩
      values := few
      positive := tenTo_pos _
      room := room }
  by_cases empty : faces = []
  · -- Without faces nothing is found, once swapped ends have been written.
    exact ⟨[], search_eq_ok.mpr ⟨fun _ => writable_ends small, faces, resolved,
      .inl ⟨empty, rfl⟩⟩, by simp⟩
  · exact exists_search_of_small resolved empty small positive

end Generator

end DiceLab
