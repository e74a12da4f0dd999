import DiceLab.Catalog
import DiceLab.Proofs.Text.Replace

/-! The places of a text at which named values go: two of them never overlap when no name has a brace. -/

namespace DiceLab.Catalog

/-- The brace that a place starts with. -/
def opening : CodePoint := .char '\x7b'

/-- The brace that a place ends with. -/
def closing : CodePoint := .char '\x7d'

/-- A text without braces. -/
def Unbraced (text : Text) : Prop := opening ∉ text ∧ closing ∉ text

instance (text : Text) : Decidable (Unbraced text) := inferInstanceAs (Decidable (_ ∧ _))

/-- At how many code points of a text a place for a name starts. -/
def places (name : Text) : Text → Nat
  | [] => 0
  | point :: rest => (if placeholder name <+: point :: rest then 1 else 0) + places name rest

variable {name other front : Text} {point : CodePoint}

/-- A place is its name between two pairs of braces. -/
theorem placeholder_eq (name : Text) :
    placeholder name = opening :: opening :: (name ++ [closing, closing]) := by
  have left : Text.ofString "\x7b\x7b" = [opening, opening] := by decide
  have right : Text.ofString "\x7d\x7d" = [closing, closing] := by decide
  rw [placeholder, left, right]
  rfl

/-- A place has code points. -/
theorem placeholder_ne_nil (name : Text) : placeholder name ≠ [] := by
  rw [placeholder_eq]
  exact List.cons_ne_nil _ _

/-- No place starts at anything but an opening brace. -/
theorem not_placeholder_ahead (name : Text) (unopened : point ≠ opening) (rest : Text) :
    ¬placeholder name <+: point :: rest := by
  rw [placeholder_eq, List.cons_prefix_cons]
  exact fun starts => unopened starts.1.symm

/-- Names without braces are told apart by what they are closed with. -/
theorem eq_of_closed_ahead {tail rest : Text} (unbraced : Unbraced name)
    (otherUnbraced : Unbraced other)
    (starts : name ++ closing :: tail <+: other ++ closing :: rest) : name = other := by
  induction name generalizing other with
  | nil => cases other with
    | nil => rfl
    | cons first others =>
      -- The first name ends here, and the other one does not have the brace.
      have same := (List.cons_prefix_cons.mp starts).1
      exact absurd (same ▸ List.mem_cons_self) otherUnbraced.2
  | cons first others ih => cases other with
    | nil =>
      have same := (List.cons_prefix_cons.mp starts).1
      exact absurd (same ▸ List.mem_cons_self) unbraced.2
    | cons second later =>
      obtain ⟨rfl, behind⟩ := List.cons_prefix_cons.mp starts
      rw [ih ⟨mt (List.mem_cons_of_mem _) unbraced.1, mt (List.mem_cons_of_mem _) unbraced.2⟩
        ⟨mt (List.mem_cons_of_mem _) otherUnbraced.1, mt (List.mem_cons_of_mem _) otherUnbraced.2⟩
        behind]

/-- Of all names without braces, a place starts with that of its own one only. -/
theorem placeholder_prefix_iff (unbraced : Unbraced name) (otherUnbraced : Unbraced other)
    (rest : Text) : placeholder name <+: placeholder other ++ rest ↔ name = other := by
  constructor
  · intro starts
    simp only [placeholder_eq, List.cons_append, List.cons_prefix_cons, true_and,
      List.append_assoc] at starts
    -- Behind the same opening braces, names without braces end where the closing ones begin.
    exact eq_of_closed_ahead unbraced otherUnbraced starts
  · rintro rfl
    exact List.prefix_append _ _

/-- Nothing that closes a name without braces opens a place. -/
theorem opening_not_mem_closed (unbraced : Unbraced name) : opening ∉ name ++ [closing, closing] := by
  rw [List.mem_append]
  rintro (inside | behind)
  · exact unbraced.1 inside
  · revert behind
    decide

/-- A closed name without braces starts with something that opens nothing. -/
theorem exists_closed_eq_cons (unbraced : Unbraced name) :
    ∃ first rest, name ++ [closing, closing] = first :: rest ∧ opening ≠ first := by
  have unopened := opening_not_mem_closed unbraced
  -- The name and its closing braces are not empty, whatever the name is.
  cases shape : name ++ [closing, closing] with
  | nil => exact absurd (List.append_eq_nil_iff.mp shape).2 (List.cons_ne_nil _ _)
  | cons first rest =>
    rw [shape, List.mem_cons, not_or] at unopened
    exact ⟨first, rest, rfl, unopened.1⟩

/-- No place starts at the second brace of another one. -/
theorem not_placeholder_prefix_inside (name : Text) (unbraced : Unbraced other) (rest : Text) :
    ¬placeholder name <+: opening :: (other ++ [closing, closing] ++ rest) := by
  obtain ⟨first, others, shape, differs⟩ := exists_closed_eq_cons unbraced
  -- The next code point would have to open a place as well.
  rw [placeholder_eq, List.cons_prefix_cons, shape, List.cons_append, List.cons_prefix_cons]
  exact fun starts => differs starts.2.1

/-- No place starts in a text without opening braces. -/
theorem places_append_unopened (name : Text) (unopened : opening ∉ front) (rest : Text) :
    places name (front ++ rest) = places name rest := by
  induction front with
  | nil => rfl
  | cons first others ih =>
    rw [List.mem_cons, not_or] at unopened
    -- No place starts at a character that does not open one.
    rw [List.cons_append, places, if_neg (not_placeholder_ahead name (Ne.symm unopened.1) _),
      ih unopened.2, Nat.zero_add]

/-- Behind its first brace a place starts no other one. -/
theorem places_inside (name : Text) (unbraced : Unbraced other) (rest : Text) :
    places name (opening :: (other ++ [closing, closing] ++ rest)) = places name rest := by
  rw [places, if_neg (not_placeholder_prefix_inside name unbraced rest),
    places_append_unopened name (opening_not_mem_closed unbraced), Nat.zero_add]

/-- In front of a text, a place counts for its own name and for no other one. -/
theorem places_placeholder_append (unbraced : Unbraced name) (otherUnbraced : Unbraced other)
    (rest : Text) :
    places name (placeholder other ++ rest) = (if name = other then 1 else 0) + places name rest := by
  have starts := placeholder_prefix_iff unbraced otherUnbraced rest
  rw [placeholder_eq other, List.cons_append, List.cons_append] at starts ⊢
  -- Only the first of its code points can start a place.
  rw [places, places_inside name otherUnbraced]
  simp only [starts]

/-- Two texts have their places side by side when every place has ended where the first one ends. -/
theorem places_append {behind : Text}
    (ended : ∀ point front, placeholder name <+: point :: front ++ behind →
      placeholder name <+: point :: front) (front : Text) :
    places name (front ++ behind) = places name front + places name behind := by
  induction front with
  | nil => rw [List.nil_append, places, Nat.zero_add]
  | cons first others ih =>
    -- A place that starts in front ends there, so nothing behind takes part in it.
    have same : placeholder name <+: first :: (others ++ behind) ↔
        placeholder name <+: first :: others :=
      ⟨ended first others, fun starts => starts.trans (List.prefix_append _ _)⟩
    rw [List.cons_append, places, places, ih]
    simp only [same]
    omega

/-- A text without braces that is a part of another one with a brace at its end is a part of the rest. -/
theorem infix_of_infix_concat {value rest : Text} (unbraced : Unbraced value)
    (inside : value <:+: rest ++ [closing]) : value <:+: rest := by
  rcases List.infix_concat_iff.mp inside with ends | before
  · -- The closing brace is no part of the value, so the value stands before it.
    rcases List.suffix_concat_iff.mp ends with rfl | ⟨_, rfl, -⟩
    · exact List.nil_infix
    · exact absurd (List.mem_append_right _ (List.mem_singleton_self _)) unbraced.2
  · exact before

/-- A part of a place behind its first brace is a part of its name when it has no braces. -/
theorem infix_name {value : Text} (unbraced : Unbraced value)
    (inside : value <:+: opening :: (name ++ [closing, closing])) : value <:+: name := by
  have behind : value <:+: name ++ [closing] ++ [closing] := by
    rw [List.append_assoc]
    rcases List.infix_cons_iff.mp inside with starts | behind
    · -- A text that starts where a brace is has that brace, or nothing at all.
      cases value with
      | nil => exact List.nil_infix
      | cons point others =>
        have same := (List.cons_prefix_cons.mp starts).1
        exact absurd (same ▸ List.mem_cons_self) unbraced.1
    · exact behind
  exact infix_of_infix_concat unbraced (infix_of_infix_concat unbraced behind)

/-- A place that starts in front of a text has ended before it, or the text begins with what is left of
the place. -/
theorem ended_or_rest_prefix {behind : Text} (starts : placeholder name <+: point :: front ++ behind) :
    placeholder name <+: point :: front ∨
      ∃ rest, point :: front ++ rest = placeholder name ∧ rest <+: behind := by
  rcases List.prefix_or_prefix_of_prefix starts (List.prefix_append (point :: front) _) with
    ended | ⟨rest, shape⟩
  · exact .inl ended
  · rw [← shape, List.prefix_append_right_inj] at starts
    exact .inr ⟨rest, shape, starts⟩

/-- A place that starts in front of a value without braces has ended before it, unless the value is a part
of its name. -/
theorem placeholder_prefix_before {value after : Text} (unbraced : Unbraced value)
    (apart : ¬value <:+: name) (starts : placeholder name <+: point :: front ++ (value ++ after)) :
    placeholder name <+: point :: front := by
  rcases ended_or_rest_prefix starts with ended | ⟨behind, shape, starts⟩
  · exact ended
  · rcases List.prefix_or_prefix_of_prefix starts (List.prefix_append value after) with
      within | ⟨last, rfl⟩
    · -- What is left of the place has its last brace, and the value has none.
      have ends : behind <:+ opening :: opening :: (name ++ [closing]) ++ [closing] := by
        refine ⟨point :: front, ?_⟩
        rw [shape, placeholder_eq]
        simp
      rcases List.suffix_concat_iff.mp ends with rfl | ⟨_, rfl, -⟩
      · rw [← shape, List.append_nil]
      · have brace := within.subset (List.mem_append_right _ (List.mem_singleton_self _))
        exact absurd brace unbraced.2
    · -- The place goes on behind the value, so the value is a part of it.
      rw [placeholder_eq] at shape
      obtain ⟨-, shape⟩ := List.cons.inj shape
      have part : value <:+: opening :: (name ++ [closing, closing]) :=
        ⟨front, last, (List.append_assoc _ _ _).trans shape⟩
      exact absurd (infix_name unbraced part) apart

/-- Around a value without braces that is no part of a name, its places are those in front and behind. -/
theorem places_around_value {value : Text} (unbraced : Unbraced value) (apart : ¬value <:+: name)
    (before after : Text) :
    places name (before ++ (value ++ after)) = places name before + places name after := by
  rw [places_append fun _ _ => placeholder_prefix_before unbraced apart,
    places_append_unopened name unbraced.1]

/-- A place that starts in front of another one has ended before it. -/
theorem placeholder_prefix_before_place {after : Text} (unbraced : Unbraced name)
    (starts : placeholder name <+: point :: front ++ (placeholder other ++ after)) :
    placeholder name <+: point :: front := by
  rcases ended_or_rest_prefix starts with ended | ⟨behind, shape, starts⟩
  · exact ended
  · cases behind with
    | nil => rw [← shape, List.append_nil]
    | cons first rest =>
      -- What is left of the place starts like the other one, which only its second brace could do.
      rw [placeholder_eq other, List.cons_append, List.cons_prefix_cons] at starts
      obtain ⟨rfl, starts⟩ := starts
      rw [placeholder_eq] at shape
      obtain ⟨-, shape⟩ := List.cons.inj shape
      cases front with
      | nil =>
        obtain ⟨-, rfl⟩ := List.cons.inj shape
        obtain ⟨first, others, shape, differs⟩ := exists_closed_eq_cons unbraced
        rw [shape, List.cons_append, List.cons_prefix_cons] at starts
        exact absurd starts.1.symm differs
      | cons second more =>
        obtain ⟨-, shape⟩ := List.cons.inj shape
        have brace : opening ∈ name ++ [closing, closing] :=
          shape ▸ List.mem_append_right more List.mem_cons_self
        exact absurd brace (opening_not_mem_closed unbraced)

/-- Around a place for another name, the places for a name are those in front and behind. -/
theorem places_around_placeholder (unbraced : Unbraced name) (otherUnbraced : Unbraced other)
    (differs : name ≠ other) (before after : Text) :
    places name (before ++ (placeholder other ++ after)) =
      places name before + places name after := by
  rw [places_append fun _ _ => placeholder_prefix_before_place unbraced,
    places_placeholder_append unbraced otherUnbraced, if_neg differs, Nat.zero_add]

end DiceLab.Catalog
