import DiceLab.Proofs.Catalog.Files
import DiceLab.Proofs.Catalog.Places
import DiceLab.Proofs.Entries
import DiceLab.Proofs.Report
import DiceLab.Proofs.Text.Replace
import Mathlib.Data.List.Nodup
import Mathlib.Data.List.Perm.Basic

/-! Named values are put into a text one after another. -/

namespace DiceLab.Catalog

/--
A text with values in the places of their names.

Wherever a place for one of the names starts, its value stands instead, and everything else is kept.
-/
inductive Filled (options : Entries Text) : Text → Text → Prop where
  | done : Filled options [] []
  | place {name value rest filled : Text} (given : (name, value) ∈ options)
    (behind : Filled options rest filled) :
    Filled options (placeholder name ++ rest) (value ++ filled)
  | point {point : CodePoint} {rest filled : Text}
    (none : ∀ option ∈ options, ¬placeholder option.1 <+: point :: rest)
    (behind : Filled options rest filled) : Filled options (point :: rest) (point :: filled)

section Laws

variable {options : Entries Text} {text filled name front rest : Text} {point : CodePoint}

/-- A code point at which no place starts is kept, and what is behind it is filled. -/
theorem filled_cons_iff (none : ∀ option ∈ options, ¬placeholder option.1 <+: point :: rest) :
    Filled options (point :: rest) filled ↔
      ∃ behind, filled = point :: behind ∧ Filled options rest behind := by
  constructor
  · generalize shape : point :: rest = text
    intro made
    cases made with
    -- Where no placeholder starts, the character is copied and nothing else can happen.
    | done => cases shape
    | place given behind => exact absurd (shape ▸ List.prefix_append _ _) (none _ given)
    | point _ behind =>
      obtain ⟨rfl, rfl⟩ := List.cons.inj shape
      exact ⟨_, rfl, behind⟩
  · rintro ⟨behind, rfl, made⟩
    exact .point none made

/-- A text without opening braces is kept, and what is behind it is filled. -/
theorem filled_append_iff (unopened : opening ∉ front) :
    Filled options (front ++ rest) filled ↔
      ∃ behind, filled = front ++ behind ∧ Filled options rest behind := by
  induction front generalizing filled with
  | nil => simp
  | cons first others ih =>
    rw [List.mem_cons, not_or] at unopened
    -- Every placeholder starts with a brace, and there is none in front.
    have none (option : Text × Text) (_ : option ∈ options) :
        ¬placeholder option.1 <+: first :: (others ++ rest) :=
      not_placeholder_ahead option.1 (Ne.symm unopened.1) _
    rw [List.cons_append, filled_cons_iff none]
    constructor
    · rintro ⟨_, rfl, made⟩
      obtain ⟨behind, rfl, last⟩ := (ih unopened.2).mp made
      exact ⟨behind, rfl, last⟩
    · rintro ⟨behind, rfl, last⟩
      exact ⟨_, rfl, (ih unopened.2).mpr ⟨behind, rfl, last⟩⟩

/-- Behind its first brace a place is kept as it is. -/
theorem filled_inside_iff (unbraced : Unbraced name) :
    Filled options (opening :: (name ++ [closing, closing] ++ rest)) filled ↔
      ∃ behind, filled = opening :: (name ++ [closing, closing] ++ behind) ∧
        Filled options rest behind := by
  -- A single brace in front of a name starts no placeholder, so it is copied like the name.
  rw [filled_cons_iff fun option _ => not_placeholder_prefix_inside option.1 unbraced rest]
  constructor
  · rintro ⟨_, rfl, made⟩
    obtain ⟨behind, rfl, last⟩ := (filled_append_iff (opening_not_mem_closed unbraced)).mp made
    exact ⟨behind, rfl, last⟩
  · rintro ⟨behind, rfl, last⟩
    exact ⟨_, rfl, (filled_append_iff (opening_not_mem_closed unbraced)).mpr ⟨behind, rfl, last⟩⟩

/-- Without values a text stays as it is. -/
theorem filled_nil (text : Text) : Filled [] text text := by
  induction text with
  | nil => exact .done
  | cons point rest ih => exact .point (by simp) ih

/-- Only which values are given counts, and not their order. -/
theorem Filled.congr {others : Entries Text} (same : ∀ option, option ∈ options ↔ option ∈ others)
    (made : Filled options text filled) : Filled others text filled := by
  induction made with
  | done => exact .done
  | place given _ ih => exact .place ((same _).mp given) ih
  | point none _ ih => exact .point (fun option member => none option ((same option).mpr member)) ih

/-- One text comes out when each of the names has one value. -/
theorem Filled.unique {other : Text} (unbraced : ∀ option ∈ options, Unbraced option.1)
    (distinct : (options.map Prod.fst).Nodup) (made : Filled options text filled)
    (otherMade : Filled options text other) : filled = other := by
  induction made generalizing other with
  | done =>
    generalize shape : ([] : Text) = text at otherMade
    cases otherMade with
    | done => rfl
    | place given _ => exact absurd (List.append_eq_nil_iff.mp shape.symm).1 (placeholder_ne_nil _)
    | point _ _ => cases shape
  | @place name value rest filled given behind ih =>
    generalize shape : placeholder name ++ rest = text at otherMade
    cases otherMade with
    | done => exact absurd (List.append_eq_nil_iff.mp shape).1 (placeholder_ne_nil _)
    | @place otherName otherValue otherRest otherFilled otherGiven otherBehind =>
      -- The two places start at one point, so they have one name and with it one value.
      have starts : placeholder name <+: placeholder otherName ++ otherRest :=
        shape ▸ List.prefix_append _ _
      obtain rfl := (placeholder_prefix_iff (unbraced _ given) (unbraced _ otherGiven) _).mp starts
      obtain rfl := List.append_cancel_left shape
      have value : value = otherValue :=
        congrArg Prod.snd (List.inj_on_of_nodup_map distinct given otherGiven rfl)
      rw [value, ih otherBehind]
    | point none _ => exact absurd (shape ▸ List.prefix_append _ _) (none _ given)
  | point none _ ih =>
    obtain ⟨last, rfl, otherBehind⟩ := (filled_cons_iff none).mp otherMade
    rw [ih otherBehind]

/-- A value is put into every place that its name has in a text. -/
theorem filled_substitute (option : Text × Text) (text : Text) :
    Filled [option] text (substitute text option) := by
  obtain ⟨name, value⟩ := option
  -- A place takes more than one code point, so the induction is on the length.
  induction size : text.length using Nat.strong_induction_on generalizing text with
  | _ length ih =>
    subst size
    cases text with
    | nil => exact .done
    | cons point rest =>
      by_cases starts : placeholder name <+: point :: rest
      · obtain ⟨behind, shape⟩ := starts
        rw [← shape] at ih ⊢
        have shorter : behind.length < (placeholder name ++ behind).length := by
          rw [List.length_append]
          exact Nat.lt_add_of_pos_left (List.length_pos_of_ne_nil (placeholder_ne_nil name))
        rw [substitute, Text.replace_append (placeholder_ne_nil name)]
        exact .place (List.mem_singleton_self _) (ih _ shorter behind rfl)
      · rw [substitute, Text.replace_cons starts]
        refine .point ?_ (ih _ (Nat.lt_succ_self _) rest rfl)
        rintro _ member
        obtain rfl := List.mem_singleton.mp member
        exact starts

end Laws

section Places

variable {options : Entries Text} {option : Text × Text} {text filled name : Text}

/-- Whatever stands in front of a text, its places stay. -/
theorem places_le_append (name front rest : Text) :
    places name rest ≤ places name (front ++ rest) := by
  induction front with
  | nil => exact Nat.le_refl _
  | cons first others ih =>
    -- Each further character in front can only start one more place.
    rw [List.cons_append, places]
    omega

/-- A text is kept in front of another one when no place starts in it. -/
theorem substitute_append {front rest : Text}
    (same : places option.1 (front ++ rest) = places option.1 rest) :
    substitute (front ++ rest) option = front ++ substitute rest option := by
  induction front with
  | nil => rfl
  | cons first others ih =>
    have kept := places_le_append option.1 others rest
    rw [List.cons_append, places] at same
    -- A place at the first code point would be one more than the rest has.
    have none : ¬placeholder option.1 <+: first :: (others ++ rest) := by
      intro starts
      rw [if_pos starts] at same
      omega
    rw [if_neg none, Nat.zero_add] at same
    rw [List.cons_append, substitute, Text.replace_cons none, ← substitute, ih same,
      List.cons_append]

/-- Behind its first brace a place is no place of its own name. -/
theorem substitute_inside (own : Unbraced option.1) (rest : Text) :
    substitute (opening :: (option.1 ++ [closing, closing] ++ rest)) option =
      opening :: (option.1 ++ [closing, closing] ++ substitute rest option) := by
  -- The text in front has no place, so substitution leaves it alone.
  have same : places option.1 ((opening :: (option.1 ++ [closing, closing])) ++ rest) =
      places option.1 rest := places_inside option.1 own rest
  have kept := substitute_append same
  exact kept

/-- The places of a name that has no value stay when values are put in. -/
theorem Filled.places_le (unbraced : ∀ option ∈ options, Unbraced option.1) (own : Unbraced name)
    (new : name ∉ options.map Prod.fst) (made : Filled options text filled) :
    places name text ≤ places name filled := by
  induction made with
  | done => exact Nat.le_refl _
  | @place other value rest filled given behind ih =>
    have differs : name ≠ other := fun same => new (same ▸ List.mem_map_of_mem given)
    rw [places_placeholder_append own (unbraced _ given), if_neg differs, Nat.zero_add]
    exact Nat.le_trans ih (places_le_append name value filled)
  | @point point rest filled none behind ih =>
    rw [places, places]
    by_cases starts : placeholder name <+: point :: rest
    · -- The rest of the place is kept, so that it starts here behind the values as well.
      obtain ⟨tail, shape⟩ := starts
      rw [placeholder_eq, List.cons_append, List.cons_append] at shape
      obtain ⟨rfl, rfl⟩ := List.cons.inj shape
      obtain ⟨last, rfl, -⟩ := (filled_inside_iff own).mp behind
      have still : placeholder name <+:
          opening :: opening :: (name ++ [closing, closing] ++ last) := by
        rw [placeholder_eq]
        exact List.prefix_append (opening :: opening :: (name ++ [closing, closing])) last
      rw [if_pos still]
      split
      · omega
      · omega
    · rw [if_neg starts]
      omega

/--
Another value can be put in when those before it have brought no place for it.

Its places are then those of the text, and what was put in before is kept.
-/
theorem Filled.substitute (unbraced : ∀ option ∈ options, Unbraced option.1)
    (own : Unbraced option.1) (new : option.1 ∉ options.map Prod.fst)
    (made : Filled options text filled) (same : places option.1 filled = places option.1 text) :
    Filled (options ++ [option]) text (substitute filled option) := by
  have given : option ∈ options ++ [option] := List.mem_append_right _ (List.mem_singleton_self _)
  induction made with
  | done => exact .done
  | @place other value rest filled given behind ih =>
    have differs : option.1 ≠ other := fun same => new (same ▸ List.mem_map_of_mem given)
    rw [places_placeholder_append own (unbraced _ given), if_neg differs, Nat.zero_add] at same
    have kept := behind.places_le unbraced own new
    have more := places_le_append option.1 value filled
    rw [substitute_append (by omega)]
    exact .place (List.mem_append_left _ given) (ih (by omega))
  | @point point rest filled none behind ih =>
    have kept := behind.places_le unbraced own new
    by_cases starts : placeholder option.1 <+: point :: rest
    · obtain ⟨tail, shape⟩ := starts
      rw [placeholder_eq, List.cons_append, List.cons_append] at shape
      obtain ⟨rfl, rfl⟩ := List.cons.inj shape
      obtain ⟨last, rfl, -⟩ := (filled_inside_iff own).mp behind
      have start (rest : Text) : opening :: opening :: (option.1 ++ [closing, closing] ++ rest) =
          placeholder option.1 ++ rest := by rw [placeholder_eq, List.cons_append, List.cons_append]
      rw [start, start, places_placeholder_append own own, places_placeholder_append own own] at same
      -- Behind its first brace the place counts for nothing, and the rest of it is kept.
      have others := ih (by
        rw [places_inside option.1 own, places_inside option.1 own]
        omega)
      rw [substitute_inside own] at others
      obtain ⟨_, shape, tailFilled⟩ := (filled_inside_iff own).mp others
      obtain rfl := List.append_cancel_left (List.cons.inj shape).2
      rw [start, start, Catalog.substitute, Text.replace_append (placeholder_ne_nil _)]
      exact .place given tailFilled
    · -- A place that starts here now would be one more than the text has.
      have still : ¬placeholder option.1 <+: point :: filled := by
        intro now
        rw [places, places, if_pos now, if_neg starts] at same
        omega
      rw [places, places, if_neg still, if_neg starts, Nat.zero_add, Nat.zero_add] at same
      rw [Catalog.substitute, Text.replace_cons still]
      refine .point ?_ (ih same)
      exact List.forall_mem_append.mpr ⟨none, by simpa using starts⟩

end Places

/-- Values put in one after another, each into the text that those before it left. -/
inductive FilledInTurn : Entries Text → Text → Text → Prop where
  | done {text : Text} : FilledInTurn [] text text
  | next {option : Text × Text} {options : Entries Text} {text between filled : Text}
    (first : Filled [option] text between) (others : FilledInTurn options between filled) :
    FilledInTurn (option :: options) text filled

/--
Values that bring no places for each other, in whatever order they are put in.

A value may bring one by itself, or together with the braces that stand around it.
-/
structure Settled (options : Entries Text) (text : Text) : Prop where
  /-- Without braces in their names, no two places overlap. -/
  unbraced : ∀ option ∈ options, Unbraced option.1
  /-- Behind the values that come first, the places for the next one are those of the text. -/
  kept : ∀ first option later, (first ++ option :: later).Perm options →
    ∀ filled, Filled first text filled → places option.1 filled = places option.1 text

section Order

variable {options order first later : Entries Text} {option : Text × Text} {text filled : Text}

/-- Of names that differ, none is among those in front of it. -/
theorem not_mem_front (same : (first ++ option :: later).Perm options)
    (distinct : (options.map Prod.fst).Nodup) : option.1 ∉ first.map Prod.fst := by
  have names := (same.map Prod.fst).nodup_iff.mpr distinct
  rw [List.map_append, List.map_cons, List.nodup_append] at names
  exact fun member => names.2.2 _ member _ List.mem_cons_self rfl

/-- Each value is put into the text that those before it left. -/
theorem filledInTurn_foldl (options : Entries Text) (text : Text) :
    FilledInTurn options text (options.foldl substitute text) := by
  induction options generalizing text with
  | nil => exact .done
  | cons option options ih => exact .next (filled_substitute option text) (ih _)

/-- Values that bring no places for each other all end up in the places of the text, in every order. -/
theorem Settled.filled_foldl (settled : Settled options text)
    (distinct : (options.map Prod.fst).Nodup) (same : order.Perm options) :
    Filled options text (order.foldl substitute text) := by
  -- What is filled so far is filled with the values in front, which grow by one at each step.
  have general (later first : Entries Text) (between : Text)
      (same : (first ++ later).Perm options) (made : Filled first text between) :
      Filled (first ++ later) text (later.foldl substitute between) := by
    induction later generalizing first between with
    | nil => simpa using made
    | cons option later ih =>
      have unbraced (other : Text × Text) (member : other ∈ first ++ option :: later) :
          Unbraced other.1 := settled.unbraced other (same.mem_iff.mp member)
      have next := made.substitute
        (fun other member => unbraced other (List.mem_append_left _ member))
        (unbraced option (List.mem_append_right _ List.mem_cons_self))
        (not_mem_front same distinct) (settled.kept first option later same between made)
      have joined : first ++ option :: later = (first ++ [option]) ++ later := by simp
      rw [joined] at same ⊢
      exact ih _ _ same next
  exact (general order [] text same (filled_nil text)).congr fun _ => same.mem_iff

/-- Values without braces bring no places for each other in any text, unless one is empty or a part of
another one's name. -/
theorem settled_of_unbraced (unbraced : ∀ option ∈ options, Unbraced option.1 ∧ Unbraced option.2)
    (distinct : (options.map Prod.fst).Nodup)
    (apart : ∀ option ∈ options, ∀ other ∈ options, option.1 ≠ other.1 → ¬option.2 <:+: other.1)
    (text : Text) : Settled options text := by
  refine ⟨fun option member => (unbraced option member).1, ?_⟩
  intro first option later same filled made
  have inside (other : Text × Text) (member : other ∈ first) : other ∈ options :=
    same.mem_iff.mp (List.mem_append_left _ member)
  have last : option ∈ options := same.mem_iff.mp (List.mem_append_right _ List.mem_cons_self)
  have new := not_mem_front same distinct
  -- Whatever has been passed already stands in front of both texts.
  have general (before : Text) :
      places option.1 (before ++ filled) = places option.1 (before ++ text) := by
    induction made generalizing before with
    | done => rfl
    | @place name value rest filled given behind ih =>
      have differs : option.1 ≠ name := fun same => new (same ▸ List.mem_map_of_mem given)
      have given := inside _ given
      have rest := ih []
      rw [places_around_value (unbraced _ given).2 (apart _ given _ last (Ne.symm differs)),
        places_around_placeholder (unbraced _ last).1 (unbraced _ given).1 differs]
      rw [List.nil_append, List.nil_append] at rest
      rw [rest]
    | @point point rest filled none behind ih =>
      have passed := ih (before ++ [point])
      simpa using passed
  exact general []

end Order

section Translation

variable {catalog : Catalog} {key locale text : Text} {wanted : Option Text}
  {options order : Entries Value} {texts : Entries Text}

/-- Values under names of their own are put in through their texts. -/
theorem optionTexts_eq_ok (distinct : (options.map Prod.fst).Nodup)
    (shown : Shows options texts) : optionTexts options = .ok texts := by
  rw [optionTexts, Entries.storeAll_of_nodup distinct, mapM_line_eq_ok]
  exact shown

/-- Texts stand under the names of the values they show. -/
theorem names_of_shows (shown : Shows options texts) :
    texts.map Prod.fst = options.map Prod.fst := by
  unfold Shows at shown
  induction shown with
  | nil => rfl
  | cons shows _ ih => rw [List.map_cons, List.map_cons, shows.1, ih]

/-- A text is shown with the values put in one after another. -/
theorem render_eq_ok (chosen : (catalog.chooseLocale wanted).result = .ok locale)
    (found : catalog.lookup? locale key = some text) (shown : optionTexts options = .ok texts) :
    (catalog.render key wanted options).result = .ok (texts.foldl substitute text) := by
  rw [render, Reported.bind_result, bind_eq_ok]
  refine ⟨locale, chosen, ?_⟩
  -- Without a failure the options are written and put in one after the other.
  simp only [found, Reported.bind_result, Reported.lift_result, shown]
  rfl

/-- Values under names that are free can be put in. -/
theorem translate_eq_render (free : takenNames.findSome? (taken? options) = none) :
    catalog.translate key wanted options = catalog.render key wanted options := by
  rw [translate, free]

/-- Names that are free stay so in another order. -/
theorem free_of_perm (same : order.Perm options)
    (free : takenNames.findSome? (taken? options) = none) :
    takenNames.findSome? (taken? order) = none := by
  simp only [taken?, List.findSome?_eq_none_iff] at free ⊢
  exact fun group member option inside => free group member option (same.mem_iff.mp inside)

/--
What a text is shown with named values put in.

Each value is put into every place that its name has in the text that the values before it left. When no
value brings a place for another one, that is the text with each value in the places of its name and all
else kept, whatever the order of the values.
-/
theorem translate_fills (key : Text) (free : takenNames.findSome? (taken? options) = none)
    (distinct : (options.map Prod.fst).Nodup) (shown : Shows options texts)
    (chosen : (catalog.chooseLocale wanted).result = .ok locale)
    (found : catalog.lookup? locale key = some text) :
    ∃ filled, (catalog.translate key wanted options).result = .ok filled ∧
      FilledInTurn texts text filled ∧
      (Settled texts text → Filled texts text filled ∧
        ∀ order, order.Perm options → (catalog.translate key wanted order).result = .ok filled) := by
  have names := names_of_shows shown
  refine ⟨_, ?_, filledInTurn_foldl texts text, ?_⟩
  · rw [translate_eq_render free, render_eq_ok chosen found (optionTexts_eq_ok distinct shown)]
  · intro settled
    have made := settled.filled_foldl (names ▸ distinct) (List.Perm.refl texts)
    refine ⟨made, ?_⟩
    intro order same
    -- In another order the values have the same texts, and these fill the text in the same way.
    obtain ⟨others, othersShown, sameTexts⟩ := List.perm_comp_forall₂ same shown
    have orderDistinct : (order.map Prod.fst).Nodup := (same.map Prod.fst).nodup_iff.mpr distinct
    have otherMade := settled.filled_foldl (names ▸ distinct) sameTexts
    rw [translate_eq_render (free_of_perm same free),
      render_eq_ok chosen found (optionTexts_eq_ok orderDistinct othersShown),
      otherMade.unique settled.unbraced (names ▸ distinct) made]

/-- A formula and a number are put into the title of a chart, in either order. -/
theorem translate_fills_title :
    let options : Entries Value := [("runs", .whole (-3)), ("macro", .text "2d6+1dF-3")]
    let texts : Entries Text := [("runs", "-3"), ("macro", "2d6+1dF-3")]
    let title : Text := "Distribución de \x7b\x7bmacro\x7d\x7d (\x7b\x7bruns\x7d\x7d tiradas)"
    let filled : Text := "Distribución de 2d6+1dF-3 (-3 tiradas)"
    packaged.lookup? "es" "simulation.title" = some title ∧
      (packaged.translate "simulation.title" (some "es") options).result = .ok filled ∧
      FilledInTurn texts title filled ∧ Settled texts title ∧ Filled texts title filled ∧
      (packaged.translate "simulation.title" (some "es") options.reverse).result = .ok filled := by
  intro options texts title filled
  have found : packaged.lookup? "es" "simulation.title" = some title := by decide +kernel
  have shown : Shows options texts :=
    .cons ⟨rfl, by decide +kernel⟩ (.cons ⟨rfl, rfl⟩ .nil)
  have settled : Settled texts title :=
    settled_of_unbraced (by decide +kernel) (by decide +kernel) (by decide +kernel) title
  have chosen : (packaged.chooseLocale (some "es")).result = .ok "es" := by decide +kernel
  obtain ⟨made, ok, turn, all⟩ :=
    translate_fills "simulation.title" (by decide +kernel) (by decide +kernel) shown chosen found
  obtain ⟨whole, ordered⟩ := all settled
  have known : (packaged.translate "simulation.title" (some "es") options).result = .ok filled := by
    decide +kernel
  rw [known] at ok
  obtain rfl := Except.ok.inj ok
  exact ⟨found, known, turn, settled, whole, ordered _ (List.reverse_perm _)⟩

/-- A value with the braces of a place is looked at again when another value is put in behind it. -/
theorem translate_secondLook :
    let options : Entries Value := [("macro", .text "\x7b\x7bruns\x7d\x7d"), ("runs", .whole 5)]
    let texts : Entries Text := [("macro", "\x7b\x7bruns\x7d\x7d"), ("runs", "5")]
    let title : Text := "Distribution of \x7b\x7bmacro\x7d\x7d (\x7b\x7bruns\x7d\x7d rolls)"
    let filled : Text := "Distribution of \x7b\x7bruns\x7d\x7d (5 rolls)"
    let other : Text := "Distribution of 5 (5 rolls)"
    packaged.lookup? "en" "simulation.title" = some title ∧ Shows options texts ∧
      Filled texts title filled ∧
      (packaged.translate "simulation.title" (some "en") options.reverse).result = .ok filled ∧
      (packaged.translate "simulation.title" (some "en") options).result = .ok other ∧
      ¬Filled texts title other := by
  intro options texts title filled other
  have shown : Shows options texts :=
    .cons ⟨rfl, rfl⟩ (.cons ⟨rfl, by decide +kernel⟩ .nil)
  have front : opening ∉ ("Distribution of " : Text) := by decide +kernel
  have middle : opening ∉ (" (" : Text) := by decide +kernel
  have behind : opening ∉ (" rolls)" : Text) := by decide +kernel
  have parts : title = ("Distribution of " : Text) ++ (placeholder "macro" ++ ((" (" : Text) ++
      (placeholder "runs" ++ ((" rolls)" : Text) ++ [])))) := by decide +kernel
  have whole : Filled texts title filled := by
    rw [parts]
    refine (filled_append_iff front).mpr ⟨_, rfl, .place List.mem_cons_self ?_⟩
    refine (filled_append_iff middle).mpr ⟨_, rfl, .place (.tail _ List.mem_cons_self) ?_⟩
    exact (filled_append_iff behind).mpr ⟨_, rfl, .done⟩
  refine ⟨by decide +kernel, shown, whole, by decide +kernel, by decide +kernel, ?_⟩
  intro replaced
  have same := whole.unique (by decide +kernel) (by decide +kernel) replaced
  exact absurd same (by decide +kernel)

end Translation

end DiceLab.Catalog
