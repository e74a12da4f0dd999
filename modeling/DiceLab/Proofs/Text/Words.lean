import DiceLab.Text.Blank

/-! What is cut out of a text is a part of it. -/

namespace DiceLab.Text

/-- Code points that are all characters are told by these. -/
theorem eq_map_char {text : Text} {list : List Char} (all : text.mapM (fun
    | .char value => some value
    | .surrogate _ => none) = some list) : text = list.map .char := by
  induction text generalizing list with
  | nil =>
    obtain rfl := Option.some.inj all
    rfl
  | cons point rest ih =>
    cases point with
    -- A single surrogate would leave the text without a string.
    | surrogate offset => simp at all
    | char value =>
      simp only [List.mapM_cons, Option.bind_eq_bind, Option.bind_some,
        Option.bind_eq_some_iff] at all
      obtain ⟨values, behind, made⟩ := all
      obtain rfl := Option.some.inj made
      rw [List.map_cons, ← ih behind]

/-- A text can only have the string whose text it is. -/
theorem eq_ofString {text : Text} {string : String} (known : text.string? = some string) :
    text = ofString string := by
  -- All code points have to be characters, and these make up the string.
  obtain ⟨list, all, rfl⟩ := Option.map_eq_some_iff.mp known
  rw [ofString, String.toList_ofList]
  exact eq_map_char all

/-- A text without the code points at its ends is a part of it. -/
theorem strip_sublist (text : Text) : text.strip.Sublist text := by
  have front : (text.dropWhile (CodePoint.has isBlank)).Sublist text := List.dropWhile_sublist _
  -- The other end is the front of the text turned around.
  have back : text.strip.reverse.Sublist (text.dropWhile (CodePoint.has isBlank)).reverse := by
    rw [strip, trim, List.reverse_reverse]
    exact List.dropWhile_sublist _
  exact (List.reverse_sublist.mp back).trans front

/-- What follows the first space of a text is a part of it. -/
theorem cutAtSpace_sublist (text : Text) : (cutAtSpace text).2.Sublist text :=
  (List.drop_sublist 1 _).trans (List.dropWhile_sublist _)

/-- Each run of a text is a part of it, whether it is empty or not. -/
theorem sublist_of_mem_pushWord {text word : Text} (member : word ∈ text.foldr pushWord [[]]) :
    word.Sublist text := by
  induction text generalizing word with
  | nil =>
    obtain rfl := List.mem_singleton.mp member
    exact List.nil_sublist _
  | cons point rest ih =>
    rw [List.foldr_cons] at member
    generalize rest.foldr pushWord [[]] = runs at ih member
    unfold pushWord at member
    split at member
    · -- A blank starts a new run, which is still empty.
      rcases List.mem_cons.mp member with rfl | later
      · exact List.nil_sublist _
      · exact (ih later).cons point
    · split at member
      · obtain rfl := List.mem_singleton.mp member
        exact (List.nil_sublist rest).cons_cons point
      · rename_i first others
        rcases List.mem_cons.mp member with rfl | later
        · exact (ih List.mem_cons_self).cons_cons point
        · exact (ih (List.mem_cons_of_mem first later)).cons point

/-- Each word of a text is a part of it. -/
theorem sublist_of_mem_words {text word : Text} (member : word ∈ text.words) :
    word.Sublist text :=
  sublist_of_mem_pushWord (List.mem_filter.mp member).1

end DiceLab.Text
