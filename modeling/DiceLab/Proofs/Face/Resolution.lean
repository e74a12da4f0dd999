import DiceLab.Face.Tag
import DiceLab.Proofs.Decimal.Digits
import DiceLab.Proofs.Repetition
import DiceLab.Proofs.Report
import Mathlib.Data.List.Sort

/-! Tags are resolved to the faces they name, each once and in one order. -/

namespace DiceLab

namespace Face

/-- One face comes strictly before another: numeric faces by their sides, the Fudge die last. -/
inductive Before : Face → Face → Prop where
  | sides {few many : Nat} {somePositive : 0 < few} {morePositive : 0 < many} (lt : few < many) :
    Before (.numeric few somePositive) (.numeric many morePositive)
  | fudge {sides : Nat} {positive : 0 < sides} : Before (.numeric sides positive) .fudge

/-- No face comes before itself. -/
theorem Before.ne {first second : Face} (before : Before first second) : first ≠ second := by
  intro same
  subst same
  cases before with
  | sides lt => exact absurd lt (Nat.lt_irrefl _)

instance : Std.Irrefl Before := ⟨fun _ before => before.ne rfl⟩

instance : Std.Antisymm Before where
  antisymm := by
    -- Of two faces that come before each other, each would have fewer sides than the other.
    intro first second before behind
    cases before with
    | sides lt =>
      cases behind with
      | sides gt => exact absurd gt (Nat.lt_asymm lt)
    | fudge => cases behind

/-- The letter of the Fudge die is no digit. -/
theorem isDigit_fudgeLetter : Decimal.isDigit fudgeLetter = false := by decide +kernel

/-- A face is told by its tag. -/
theorem tagText_injective {first second : Face} (same : first.tagText = second.tagText) :
    first = second := by
  simp only [tagText, List.cons.injEq, true_and] at same
  -- A number of sides reads back from its digits, none of which is the letter of the Fudge die.
  have digits (sides : Nat) : Decimal.naturalText sides ≠ [.char fudgeLetter] := by
    intro letter
    have digit := Decimal.digits_naturalText sides fudgeLetter (by simp [letter])
    rw [isDigit_fudgeLetter] at digit
    exact absurd digit (by decide)
  cases first with
  | fudge =>
    cases second with
    | fudge => rfl
    | numeric sides positive => exact absurd same.symm (digits sides)
  | numeric sides positive =>
    cases second with
    | fudge => exact absurd same (digits sides)
    | numeric others otherPositive =>
      have value := congrArg Decimal.valueOf same
      simp only [sidesText, Decimal.valueOf_naturalText] at value
      subst value
      rfl

/-- A face is tagged with its text, when the number of its sides can be written. -/
theorem tag_eq_ok {face : Face} {text : Text} :
    face.tag = .ok text ↔ face.Writable ∧ text = face.tagText := by
  rw [tag]
  split
  · rename_i writable
    simp [writable, eq_comm]
  · rename_i long
    simp [long]

end Face

namespace FaceTag

/-- Different faces of which one may stand before the other are in strict order. -/
theorem before_of_inOrder {first second : Face} (ordered : inOrder first second = true)
    (apart : first ≠ second) : first.Before second := by
  cases first with
  | fudge =>
    cases second with
    | fudge => exact absurd rfl apart
    | numeric sides positive => simp [inOrder, Face.sides?] at ordered
  | numeric few somePositive =>
    cases second with
    | fudge => exact .fudge
    | numeric many morePositive =>
      simp only [inOrder, Face.sides?, decide_eq_true_eq] at ordered
      -- Faces with equally many sides are the same.
      have differs : few ≠ many := by
        intro same
        subst same
        exact apart rfl
      exact .sides (by omega)

/-- Distinct faces are in strict order. -/
theorem distinct_pairwise (faces : List Face) : (distinct faces).Pairwise Face.Before := by
  -- Fudge stands behind all numbers of sides, and these are in their own order.
  have ordered : (distinct faces).Pairwise fun first second => inOrder first second = true := by
    apply List.pairwise_mergeSort
    · intro first second third
      cases first <;> cases second <;> cases third <;> simp [inOrder, Face.sides?]
      omega
    · intro first second
      cases first <;> cases second <;> simp [inOrder, Face.sides?]
      omega
  have nodup : (distinct faces).Nodup :=
    (List.mergeSort_perm _ _).nodup_iff.mpr (nodup_eraseDups faces)
  apply (ordered.and nodup).imp
  intro first second related
  exact before_of_inOrder related.1 related.2

/-- Every face is among the distinct ones. -/
theorem mem_distinct {faces : List Face} {face : Face} :
    face ∈ distinct faces ↔ face ∈ faces := by
  rw [distinct, List.mem_mergeSort, List.mem_eraseDups]

variable {available : List FaceTag} {faces : List Face}

/-- Tags are resolved to distinct faces. -/
theorem resolve_eq_ok :
    (resolve available).result = .ok faces ↔ ∃ named,
      (available.mapM fun tag => (read tag).result) = .ok named ∧
        faces = distinct (named.filterMap id) := by
  simp only [resolve, Reported.bind_result, Reported.mapM_result, Reported.pure_result, bind_eq_ok]
  constructor
  · rintro ⟨named, walked, made⟩
    exact ⟨named, walked, (Except.ok.inj made).symm⟩
  · rintro ⟨named, walked, rfl⟩
    exact ⟨named, walked, rfl⟩

/-- The resolved faces are in strict order. -/
theorem pairwise_of_resolve (ok : (resolve available).result = .ok faces) :
    faces.Pairwise Face.Before := by
  obtain ⟨named, -, rfl⟩ := resolve_eq_ok.mp ok
  exact distinct_pairwise _

/-- The resolved faces are those that one of the tags names. -/
theorem mem_of_resolve (ok : (resolve available).result = .ok faces) {face : Face} :
    face ∈ faces ↔ ∃ tag ∈ available, (read tag).result = .ok (some face) := by
  obtain ⟨named, walked, rfl⟩ := resolve_eq_ok.mp ok
  rw [mem_distinct, List.mem_filterMap, ← mem_mapM_eq_ok walked]
  simp

/-- Tags that are all read are resolved, to faces of which everything holds that holds of whatever each
tag names. -/
theorem exists_resolve {property : Face → Prop}
    (each : ∀ tag ∈ available, ∃ named, (read tag).result = .ok named ∧
      ∀ face, named = some face → property face) :
    ∃ faces, (resolve available).result = .ok faces ∧ ∀ face ∈ faces, property face := by
  obtain ⟨named, walked⟩ := exists_mapM_eq_ok (fun tag => (read tag).result)
    fun tag member => by
      obtain ⟨named, known, -⟩ := each tag member
      exact ⟨named, known⟩
  have ok := resolve_eq_ok.mpr ⟨named, walked, rfl⟩
  refine ⟨_, ok, ?_⟩
  intro face member
  -- Each face was named by one of the tags.
  obtain ⟨tag, inside, known⟩ := (mem_of_resolve ok).mp member
  obtain ⟨other, found, holds⟩ := each tag inside
  rw [known, Except.ok.injEq] at found
  exact holds face found.symm

/-- Tags are resolved to what they name when that is put in strict order. -/
theorem resolve_eq_ok_ordered {named : List (Option Face)}
    (walked : (available.mapM fun tag => (read tag).result) = .ok named)
    (ordered : faces.Pairwise Face.Before) (same : ∀ face, face ∈ faces ↔ some face ∈ named) :
    (resolve available).result = .ok faces := by
  apply resolve_eq_ok.mpr
  -- Lists in strict order are equal when they have the same members.
  refine ⟨named, walked, ordered.eq_of_mem_iff (distinct_pairwise _) ?_⟩
  intro face
  rw [mem_distinct, same]
  simp

/-- Whether one of some tags names a face. -/
def Names (tags : List FaceTag) (face : Face) : Prop :=
  ∃ tag ∈ tags, (read tag).result = .ok (some face)

variable {others : List FaceTag} {otherFaces : List Face}

/-- Tags that name the same faces are resolved to one list, however they are spelled. -/
theorem resolve_congr (same : ∀ face, Names available face ↔ Names others face)
    (ok : (resolve available).result = .ok faces)
    (otherOk : (resolve others).result = .ok otherFaces) : faces = otherFaces := by
  -- Lists in strict order are told by their members.
  apply (pairwise_of_resolve ok).eq_of_mem_iff (pairwise_of_resolve otherOk)
  intro face
  rw [mem_of_resolve ok, mem_of_resolve otherOk]
  exact same face

/-- Tags that name more faces are resolved to a list with faces added between the others. -/
theorem resolve_sublist (more : ∀ face, Names available face → Names others face)
    (ok : (resolve available).result = .ok faces)
    (otherOk : (resolve others).result = .ok otherFaces) : faces.Sublist otherFaces := by
  have ordered := pairwise_of_resolve ok
  have inside : faces ⊆ otherFaces := by
    intro face member
    apply (mem_of_resolve otherOk).mpr
    exact more face ((mem_of_resolve ok).mp member)
  -- A part of the members in the same strict order is a part of the list.
  have part := List.subperm_of_subset ordered.nodup inside
  exact List.sublist_of_subperm_of_pairwise part ordered (pairwise_of_resolve otherOk)

end FaceTag

end DiceLab
