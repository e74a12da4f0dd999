import DiceLab.Proofs.Catalog.Filling
import DiceLab.Proofs.Distribution.Runs
import DiceLab.Proofs.Formula.RoundTrip
import DiceLab.Proofs.Report.Quiet
import DiceLab.Proofs.Sheet.Distribution

/-! The title of a chart names the runs that were asked for, and the chart shows those that were
made. -/

namespace DiceLab

namespace Text

variable {text other : Text}

/-- There are no braces in a normal text. -/
theorem unbraced_of_plain (plain : ∀ point ∈ text, point.IsPlain) : Catalog.Unbraced text :=
  ⟨fun member => absurd (plain _ member) (by decide),
    fun member => absurd (plain _ member) (by decide)⟩

/-- A normal text is no part of a text without its code points. -/
theorem not_infix_of_plain (plain : ∀ point ∈ text, point.IsPlain) (some : text ≠ [])
    (foreign : ∀ point ∈ other, ¬point.IsPlain) : ¬text <:+: other := by
  intro part
  obtain ⟨point, member⟩ := List.exists_mem_of_ne_nil text some
  exact foreign point (part.subset member) (plain point member)

end Text

/-- A whole number is written plainly. -/
theorem Decimal.wholeText_plain (value : Int) : ∀ point ∈ wholeText value, point.IsPlain := by
  rw [wholeText_eq]
  exact signedText_plain true value

/-- A whole number is never written as nothing. -/
theorem Decimal.wholeText_ne_nil (value : Int) : wholeText value ≠ [] := by
  rw [wholeText_eq, signedText]
  exact List.append_ne_nil_of_right_ne_nil _ (naturalText_ne_nil _)

/-- The normal text of a formula is never empty. -/
theorem Formula.plainText_ne_nil (formula : Formula) : formula.plainText ≠ [] := by
  unfold plainText
  split
  · exact Decimal.wholeText_ne_nil _
  · rename_i first rest _
    -- The first term is written with its count.
    have counted : first.body ≠ [] :=
      List.append_ne_nil_of_left_ne_nil (Decimal.naturalText_ne_nil _) _
    apply List.append_ne_nil_of_left_ne_nil
    apply List.append_ne_nil_of_left_ne_nil
    cases sign : first.sign with
    | plus => simpa [Term.plainText, sign] using counted
    | minus => simp [Term.plainText, sign]

variable {σ : Type}

/-- Rolls show nothing. -/
theorem quiet_batchFrom (draw : Face → σ → Int × σ) (reading : Reading) (trials : Value) :
    (batchFrom draw (.reading reading) trials).Quiet := by
  refine (Session.quiet_lift (quiet_ensureWhole _ _ _ _ _)).bind fun count => ?_
  refine (Session.quiet_lift (Reported.quiet_pure _)).bind fun read => ?_
  -- Rolling itself says nothing; it is only logged in the end.
  refine (Session.quiet_ofState _).bind fun counts => ?_
  refine (Session.quiet_lift_result _).bind fun text => ?_
  refine (Session.quiet_lift_result _).bind fun used => ?_
  exact (Session.quiet_lift (Reported.quiet_log _ _ _)).bind fun _ => Session.quiet_pure _

/-- Neither does the histogram of a formula. -/
theorem quiet_distributionFrom (draw : Face → σ → Int × σ) (reading : Reading) (runs : Value) :
    (distributionFrom draw reading runs).Quiet := by
  refine (Session.quiet_lift_result _).bind fun exact => ?_
  split
  · exact (quiet_batchFrom draw reading runs).bind fun _ => Session.quiet_pure _
  · exact Session.quiet_pure _

namespace Sheet

open Catalog (Filled)

/-- A title is put together without being shown. -/
theorem quiet_distributionTitle (formula : Formula) (runs : Value) (wording : Wording) :
    (distributionTitle formula runs wording).Quiet := by
  refine (Reported.quiet_lift _).bind fun text => ?_
  split
  · exact Catalog.quiet_render _ _ _ _
  · exact Catalog.quiet_render _ _ _ _

/-- The texts that are put into the title of a chart. -/
def titleTexts (formula : Formula) (runs : Int) : Entries Text :=
  [("macro", formula.plainText), ("runs", Decimal.wholeText runs)]

/-- The title of a chart has the formula and the runs in their places, and nothing else is changed in
it. -/
theorem filled_title {formula : Formula} {runs : Int} (counted : Decimal.Writable runs)
    {wording : Wording} {locale text title : Text}
    (ok : (wording.text "simulation.title"
      [("macro", .text formula.plainText), ("runs", .whole runs)]).result = .ok title)
    (chosen : (wording.catalog.chooseLocale wording.locale).result = .ok locale)
    (found : wording.catalog.lookup? locale "simulation.title" = some text) :
    Filled (titleTexts formula runs) text title := by
  have written : Decimal.write runs = .ok (Decimal.wholeText runs) := if_pos counted
  have shown : Catalog.Shows [("macro", .text formula.plainText), ("runs", .whole runs)]
      (titleTexts formula runs) :=
    .cons ⟨rfl, rfl⟩ (.cons ⟨rfl, written⟩ .nil)
  have distinct : ((titleTexts formula runs).map Prod.fst).Nodup :=
    show (["macro", "runs"] : List Text).Nodup by decide +kernel
  have texts := Catalog.optionTexts_eq_ok (Catalog.names_of_shows shown ▸ distinct) shown
  rw [Wording.text, Catalog.render_eq_ok chosen found texts, Except.ok.injEq] at ok
  subst ok
  have plain : ∀ option ∈ titleTexts formula runs,
      (∀ point ∈ option.2, point.IsPlain) ∧ option.2 ≠ [] := by
    simp only [titleTexts, List.forall_mem_cons]
    exact ⟨⟨formula.plainText_plain, formula.plainText_ne_nil⟩,
      ⟨Decimal.wholeText_plain runs, Decimal.wholeText_ne_nil runs⟩, by simp⟩
  have foreign : ∀ option ∈ titleTexts formula runs,
      Catalog.Unbraced option.1 ∧ ∀ point ∈ option.1, ¬point.IsPlain := by
    simp only [titleTexts, List.forall_mem_cons]
    exact ⟨by decide +kernel, by decide +kernel, by simp⟩
  -- Neither text has a brace, and neither is a part of the name of the other one.
  have settled : Catalog.Settled (titleTexts formula runs) text := by
    apply Catalog.settled_of_unbraced _ distinct
    · intro option member other otherMember _
      exact Text.not_infix_of_plain (plain option member).1 (plain option member).2
        (foreign other otherMember).2
    · intro option member
      exact ⟨(foreign option member).1, Text.unbraced_of_plain (plain option member).1⟩
  exact settled.filled_foldl distinct (List.Perm.refl _)

/-- The title of a formula that is rolled is the text of charts with the formula and the runs. -/
theorem distributionTitle_of_several {formula : Formula} (several : ¬∃ term, formula.IsLone term)
    {runs : Value} {wording : Wording} {title : Text}
    (ok : (distributionTitle formula runs wording).result = .ok title) :
    (wording.text "simulation.title" [("macro", .text formula.plainText), ("runs", runs)]).result =
      .ok title := by
  rw [distributionTitle, Reported.bind_result, bind_eq_ok] at ok
  -- The formula is written first, as its plain text.
  obtain ⟨text, written, ok⟩ := ok
  obtain ⟨-, rfl⟩ := Formula.text_eq_ok.mp written
  rwa [if_neg fun single => several (Formula.isSingleDie_iff.mp single)] at ok

/-- What a chart of rolls shows, and what its title says. -/
structure Charts (wording : Wording) (formula : Formula) (runs : Int) (histogram : Histogram)
    (title : Text) (table : Table) : Prop where
  /-- The table is that of the histogram, under the title. -/
  laid : histogramTable histogram title barLength = .ok table
  /-- The title is the text of charts, with the formula and the runs that were asked for. -/
  titled : (wording.text "simulation.title"
    [("macro", .text formula.plainText), ("runs", .whole runs)]).result = .ok title
  /-- These stand in their places of the text, and nothing else is changed in it. -/
  filled : ∀ {locale text : Text},
    (wording.catalog.chooseLocale wording.locale).result = .ok locale →
      wording.catalog.lookup? locale "simulation.title" = some text →
        Filled (titleTexts formula runs) text title
  /-- The counts add up to the nearest number of runs in range. -/
  counts : Number.sum (histogram.map Prod.snd) = .ok (.whole (min (max 0 runs) mostTrials))
  /-- So the title tells how many rolls were made for numbers in range, and for no others. -/
  tells : Number.sum (histogram.map Prod.snd) = .ok (.whole runs) ↔ 0 ≤ runs ∧ runs ≤ mostTrials

/-- A histogram of rolls under its title is a chart. -/
theorem charts_of_rolls {wording : Wording} {formula : Formula} {runs : Int} {title : Text}
    {table : Table} (counted : Decimal.Writable runs)
    (titled : (wording.text "simulation.title"
      [("macro", .text formula.plainText), ("runs", .whole runs)]).result = .ok title)
    {draw : Face → σ → Int × σ} {state last : σ} {counts : List (Int × Nat)}
    (rolled : formula.rollHistogram draw (rollsFor runs) state = (counts, last))
    (laid : histogramTable (Histogram.ofCounts counts) title barLength = .ok table) :
    Charts wording formula runs (Histogram.ofCounts counts) title table := by
  have order : 0 ≤ mostTrials := by decide
  -- Every roll is counted once.
  have tally := formula.rollHistogram_isTally draw (rollsFor runs) state
  rw [rolled] at tally
  have total : (naturalTotal (counts.map Prod.snd) : Int) = min (max 0 runs) mostTrials := by
    rw [tally.total, List.length_map, Formula.length_rollMany, rollsFor]
    omega
  have summed := Number.sum_ofCounts counts
  rw [total] at summed
  refine ⟨laid, titled, filled_title counted titled, summed, ?_⟩
  rw [summed, Except.ok.injEq, Number.whole.injEq]
  omega

/-- The chart of a formula that is rolled is its only item, and its title names the runs that were
asked for. -/
theorem showDistributionFrom_charts (source : Source σ) {reading : Reading}
    (several : ¬∃ term, reading.formula.IsLone term) (wording : Wording) (runs : Int) (state : σ) :
    (source.Bounded → reading.formula.size < tenTo Generator.roomyDigits → Decimal.Writable runs →
      (showDistributionFrom source.draw (.reading reading) (.whole runs) wording).Returns state) ∧
    ∀ {histogram last},
      (showDistributionFrom source.draw (.reading reading) (.whole runs) wording).Ends state
        histogram last →
      ∃ title table, Charts wording reading.formula runs histogram title table ∧
        Notice.printed (showDistributionFrom source.draw (.reading reading) (.whole runs) wording
          state).1.notices = [.table table] := by
  constructor
  · intro bounded short counted
    exact returns_showDistributionFrom bounded wording short counted
      (fun single => absurd single several) state
  · intro histogram last ends
    simp only [showDistributionFrom, Session.bind_ends, Session.lift_ends, Session.lift_result_ends,
      Session.pure_ends] at ends
    obtain ⟨_, _, ⟨read, rfl⟩, title, _, ⟨titled, rfl⟩, shown, _, distributed, table, _, ⟨laid, rfl⟩,
      _, _, ⟨_, rfl⟩, rfl, rfl⟩ := ends
    obtain rfl := Except.ok.inj read
    obtain ⟨⟨writable, counted⟩, counts, rolled, rfl⟩ :=
      (distributionFrom_ends_of_several several).mp distributed
    refine ⟨title, table,
      charts_of_rolls counted (distributionTitle_of_several several titled) rolled laid, ?_⟩
    -- Only the last step shows anything.
    have quiet : ((Draft.reading reading).read).Quiet := rfl
    rw [showDistributionFrom, Session.printed_lift_bind quiet read,
      Session.printed_lift_bind (quiet_distributionTitle _ _ _) titled,
      Session.printed_bind (quiet_distributionFrom _ _ _) distributed, laid, Session.lift_ok_bind]
    rfl

/-- Three rolls of two dice are shown under a title that names three of them. -/
theorem showDistributionFrom_charts_three :
    let pair : Reading := ⟨⟨[⟨.plus, 2, .numeric 4 (by decide), by decide⟩], 0⟩, []⟩
    let wording : Wording := ⟨Catalog.packaged, some "es"⟩
    ∃ histogram last title table,
      (showDistribution (.reading pair) (.whole 3) wording).Ends .standard histogram last ∧
        Charts wording pair.formula 3 histogram title table ∧
          Number.sum (histogram.map Prod.snd) = .ok (.whole 3) := by
  intro pair wording
  have several : ¬∃ term, pair.formula.IsLone term := by
    rw [← Formula.isSingleDie_iff]
    decide
  obtain ⟨returned, charted⟩ := showDistributionFrom_charts Source.dice several wording 3 .standard
  obtain ⟨histogram, last, ends⟩ :=
    returned Source.dice_bounded (by decide +kernel) (by decide +kernel)
  obtain ⟨title, table, charts, -⟩ := charted ends
  exact ⟨histogram, last, title, table, ends, charts, charts.tells.mpr (by decide)⟩

/-- Minus three rolls of two dice are not made, and the title names them all the same. -/
theorem showDistribution_belowZero :
    let pair : Reading := ⟨⟨[⟨.plus, 2, .numeric 4 (by decide), by decide⟩], 0⟩, []⟩
    let wording : Wording := ⟨Catalog.packaged, some "en"⟩
    let shown := showDistribution (.reading pair) (.whole (-3)) wording .standard
    let options : Entries Value := [("macro", .text "2d4"), ("runs", .whole (-3))]
    let title : Text := "Distribution of 2d4 (-3 rolls)"
    shown.1.result = .ok [] ∧ (wording.text "simulation.title" options).result = .ok title ∧
      Notice.printed shown.1.notices = [.table ⟨some title, histogramColumns, []⟩] ∧
      Number.sum (([] : Histogram).map Prod.snd) ≠ .ok (.whole (-3)) := by
  decide +kernel

end Sheet

end DiceLab
