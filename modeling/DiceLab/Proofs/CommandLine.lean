import DiceLab.Proofs.CommandLine.Reading
import DiceLab.Proofs.CommandLine.Shown
import DiceLab.Proofs.Generator.Search
import DiceLab.Proofs.Settings
import DiceLab.Proofs.Sheet.Title

/-! A number that is given on the command line stands in place of that of the settings, unless it is
zero: this counts as no number at all. -/

namespace DiceLab

variable {σ : Type}

/-- A smaller limit keeps the first of what a larger one keeps. -/
theorem Candidate.rank_take {drafts : List Draft} {target : Target} {limit other : Value}
    {used most : Int} (held : allowed limit = .ok most) (otherHeld : allowed other = .ok used)
    (less : used ≤ most) {kept : List Candidate}
    (ok : (rank drafts target limit).result = .ok kept) :
    (rank drafts target other).result = .ok (kept.take used.toNat) := by
  obtain ⟨_, candidates, known, scored, rfl⟩ := rank_eq_ok.mp ok
  obtain rfl := Except.ok.inj (held.symm.trans known)
  apply rank_eq_ok.mpr
  refine ⟨used, candidates, otherHeld, scored, ?_⟩
  -- The same candidates are put in the same order, and only then cut off.
  rw [best, best, List.take_take, min_eq_left (by omega)]

/-- A smaller limit finds the first of what a larger one finds. -/
theorem Generator.search_take {target : Target} {available : List FaceTag} {limit other : Value}
    {used most : Int} (held : Candidate.allowed limit = .ok most)
    (otherHeld : Candidate.allowed other = .ok used) (less : used ≤ most) {found : List Candidate}
    (ok : (search target available limit).result = .ok found) :
    (search target available other).result = .ok (found.take used.toNat) := by
  obtain ⟨ends, faces, resolved, ⟨none, rfl⟩ | ⟨some, ranked⟩⟩ := search_eq_ok.mp ok
  · exact search_eq_ok.mpr ⟨ends, faces, resolved, .inl ⟨none, List.take_nil⟩⟩
  · obtain ⟨proposals, proposed, low, high, writable, ranked⟩ := rankProposals_eq_ok.mp ranked
    refine search_eq_ok.mpr ⟨ends, faces, resolved, .inr ⟨some, ?_⟩⟩
    -- The limit is used at the very end, when all proposals are ranked.
    exact rankProposals_eq_ok.mpr ⟨proposals, proposed, low, high, writable,
      Candidate.rank_take held otherHeld less ranked⟩

namespace Sheet

/-- The table of a histogram has a row for each of its entries. -/
theorem length_rows_of_histogramTable {histogram : Histogram} {title : Text} {length : Int}
    {table : Table} (laid : histogramTable histogram title length = .ok table) :
    table.rows.length = histogram.length := by
  obtain ⟨sum, -, laid⟩ := bind_eq_ok.mp laid
  obtain ⟨rows, walked, made⟩ := bind_eq_ok.mp laid
  obtain rfl := Except.ok.inj made
  -- The entries are put in order first, and none of them is lost.
  have moved : (Histogram.sorted histogram).Perm histogram := Sorting.sort_perm _ _
  rw [← moved.length_eq]
  exact (mapM_eq_ok.mp walked).length_eq.symm

/-- A formula that is rolled is shown as a table with a row for each total that was rolled. -/
theorem showDistributionFrom_printed {draw : Face → σ → Int × σ} {draft : Draft} {reading : Reading}
    (read : draft.read.result = .ok reading) (several : ¬∃ term, reading.formula.IsLone term)
    {runs : Int} {wording : Wording} {state last : σ} {histogram : Histogram}
    (ends : (showDistributionFrom draw draft (.whole runs) wording).Ends state histogram last) :
    ∃ table, Notice.printed (showDistributionFrom draw draft (.whole runs) wording
        state).1.notices = [.table table] ∧ (table.rows = [] ↔ rollsFor runs = 0) := by
  simp only [showDistributionFrom, Session.bind_ends, Session.lift_ends, Session.lift_result_ends,
    Session.pure_ends] at ends
  obtain ⟨middle, _, ⟨known, rfl⟩, title, _, ⟨titled, rfl⟩, shown, _, distributed, table, _,
    ⟨laid, rfl⟩, -⟩ := ends
  obtain rfl := Except.ok.inj (known.symm.trans read)
  refine ⟨table, ?_, ?_⟩
  · -- Only the last step shows anything.
    rw [showDistributionFrom, Session.printed_lift_bind draft.quiet_read read,
      Session.printed_lift_bind (quiet_distributionTitle _ _ _) titled,
      Session.printed_bind (quiet_distributionFrom _ _ _) distributed, laid, Session.lift_ok_bind]
    rfl
  · obtain ⟨-, counts, rolled, rfl⟩ := (distributionFrom_ends_of_several several).mp distributed
    have rows := length_rows_of_histogramTable laid
    rw [Histogram.ofCounts, List.length_map] at rows
    have tally := Formula.rollHistogram_isTally draw middle.formula (rollsFor runs) state
    rw [rolled] at tally
    have length := (List.length_map Outcome.total).trans
      (Formula.length_rollMany draw middle.formula (rollsFor runs) state)
    -- The counts of no totals are none, and no counts sum to as many totals as there are.
    have few : counts.length ≤ _ := tally.length_le
    have total : naturalTotal (counts.map Prod.snd) = _ := tally.total
    rw [length] at few total
    rw [← List.length_eq_zero_iff, rows, List.length_eq_zero_iff]
    constructor
    · rintro rfl
      exact total.symm
    · intro none
      exact List.length_eq_zero_iff.mp (by omega)

/-- A formula that is shown for some runs is shown for none as well. -/
theorem returns_showDistributionFrom_zero {draw : Face → σ → Int × σ} {draft : Draft}
    {reading : Reading} (read : draft.read.result = .ok reading)
    (several : ¬∃ term, reading.formula.IsLone term) {runs : Int} {wording : Wording}
    {state last : σ} {histogram : Histogram}
    (ends : (showDistributionFrom draw draft (.whole runs) wording).Ends state histogram last) :
    (showDistributionFrom draw draft (.whole 0) wording).Returns state := by
  simp only [showDistributionFrom, Session.bind_ends, Session.lift_ends] at ends
  obtain ⟨middle, _, ⟨known, rfl⟩, title, _, -, shown, _, distributed, -⟩ := ends
  obtain rfl := Except.ok.inj (known.symm.trans read)
  obtain ⟨⟨writable, -⟩, -⟩ := (distributionFrom_ends_of_several several).mp distributed
  -- No rolls are always tallied, and no totals always laid out.
  have none : (distributionFrom draw middle (.whole 0)).Ends state [] state :=
    (distributionFrom_ends_of_several several).mpr
      ⟨⟨writable, Decimal.writable_zero⟩, [], rfl, rfl⟩
  have titled := returns_distributionTitle wording writable Decimal.writable_zero
  exact returns_showDistributionFrom_of_found read titled none (by simp) (.counts (by simp))

/-- What is shown for a formula is shown for a draft that stands for it. -/
theorem returns_showDistributionFrom_of_read {draw : Face → σ → Int × σ} {draft : Draft}
    {reading : Reading} (read : draft.read.result = .ok reading) {runs : Value} {wording : Wording}
    {state : σ}
    (returns : (showDistributionFrom draw (.reading reading) runs wording).Returns state) :
    (showDistributionFrom draw draft runs wording).Returns state := by
  obtain ⟨histogram, last, ends⟩ := returns
  -- Reading a draft that is read already gives it back, so what follows is the same.
  obtain ⟨middle, _, ⟨known, rfl⟩, behind⟩ := Session.bind_ends.mp ends
  obtain rfl := Except.ok.inj known
  exact Session.lift_known_bind read ⟨histogram, last, behind⟩

/-- A table of candidates is put together without being shown. -/
theorem quiet_candidatesTable (candidates : List Candidate) (wording : Wording) :
    (candidatesTable candidates wording).Quiet := by
  -- Labels are rendered and numbers are written, neither of which prints.
  have label : ∀ key, (wording.label key).Quiet := fun key => Catalog.quiet_render _ _ _ _
  refine (label _).bind fun title => ?_
  refine (Reported.quiet_mapM (fun _ => ?_) _).bind fun columns => ?_
  · exact (label _).bind fun _ => Reported.quiet_pure _
  · refine (Reported.quiet_mapM (fun _ => ?_) _).bind fun rows => Reported.quiet_pure _
    refine (Reported.quiet_write _).bind fun low => (Reported.quiet_write _).bind fun high => ?_
    exact (label _).bind fun fit => (label _).bind fun shape => Reported.quiet_pure _

/-- The table of candidates has a row for each of them. -/
theorem length_rows_of_candidatesTable {candidates : List Candidate} {wording : Wording}
    {table : Table} (laid : (candidatesTable candidates wording).result = .ok table) :
    table.rows.length = candidates.length := by
  simp only [candidatesTable, Reported.bind_result, Reported.mapM_result, Reported.pure_result,
    bind_eq_ok] at laid
  obtain ⟨title, -, columns, -, rows, walked, made⟩ := laid
  obtain rfl := Except.ok.inj made
  -- There is one row for each candidate and its number.
  have length := (mapM_eq_ok.mp walked).length_eq
  rw [List.length_zipIdx] at length
  exact length.symm

/-- Candidates are shown as their table when that can be put together. -/
theorem printed_showCandidates {candidates : List Candidate} (some : candidates ≠ [])
    (wording : Wording) :
    Notice.printed (showCandidates candidates wording).notices =
      match (candidatesTable candidates wording).result with
      | .ok table => [.table table]
      | .error _ => [] := by
  have quiet := quiet_candidatesTable candidates wording
  rw [showCandidates, if_neg (fun empty => some (List.isEmpty_iff.mp empty))]
  -- The table is printed once it is laid out, and laying it out prints nothing itself.
  cases laid : (candidatesTable candidates wording).result with
  | error failure =>
    rw [Reported.bind_of_error _ laid]
    exact quiet
  | ok table =>
    rw [Reported.bind_of_ok _ laid, Notice.printed_append, quiet]
    rfl

/-- Of several candidates more is shown than of the first of them. -/
theorem printed_showCandidates_ne {candidates : List Candidate} {wording : Wording}
    (several : 2 ≤ candidates.length)
    (shown : (showCandidates candidates wording).result = .ok ()) :
    Notice.printed (showCandidates candidates wording).notices ≠
      Notice.printed (showCandidates (candidates.take 1) wording).notices := by
  have some : candidates ≠ [] := by
    rintro rfl
    contradiction
  have first : candidates.take 1 ≠ [] := by
    rw [ne_eq, List.take_eq_nil_iff]
    simp [some]
  rw [showCandidates, if_neg (fun empty => some (List.isEmpty_iff.mp empty)), Reported.bind_result,
    bind_eq_ok] at shown
  obtain ⟨table, laid, -⟩ := shown
  rw [printed_showCandidates some, printed_showCandidates first, laid]
  cases other : (candidatesTable (candidates.take 1) wording).result with
  | error failure => simp
  | ok single =>
    -- Each candidate has a row of its own.
    intro same
    have rows := length_rows_of_candidatesTable laid
    have row := length_rows_of_candidatesTable other
    have equal : table = single := by simpa using same
    rw [equal, row, List.length_take] at rows
    omega

end Sheet

/-- The wording of settings: that of their locale. -/
def Settings.wording (settings : Settings) (catalog : Catalog) : Wording :=
  ⟨catalog, some settings.locale⟩

/-- What a computation does when its result is dropped. -/
def Session.discard {α : Type} (action : Session σ α) : Session σ Unit := fun state =>
  let (report, last) := action state
  (⟨report.notices, report.result.map fun _ => ()⟩, last)

/-- A step that gives nothing behind a computation drops its result. -/
theorem Session.bind_pure_eq_discard {α : Type} (action : Session σ α) :
    (action >>= fun _ => pure ()) = action.discard := by
  funext state
  simp only [Bind.bind, discard]
  -- A failed action stays the same, and behind a finished one nothing is noted.
  rcases action state with ⟨⟨notices, failure | value⟩, last⟩
  · rfl
  · show ((⟨notices ++ [], .ok ()⟩, last) : Reported Unit × σ) = _
    rw [List.append_nil]
    rfl

namespace CommandLine

/-- A number that is given and is not zero is used. -/
theorem orUsual_of_ne_zero {given : Int} (nonzero : given ≠ 0) (usual : Int) :
    orUsual (some given) usual = given := by
  simp [orUsual, Option.filter, nonzero]

/-- The number of the settings is used in place of none, and in place of zero. -/
theorem orUsual_of_not_given {given : Option Int} (absent : given = none ∨ given = some 0)
    (usual : Int) : orUsual given usual = usual := by
  rcases absent with rfl | rfl
  · rfl
  · rfl

/-- Shows the distribution of a formula that is given as text over a number of runs. -/
def chart (draw : Face → σ → Int × σ) (formula : Text) (runs : Int) (wording : Wording) :
    Session σ Histogram :=
  Sheet.showDistributionFrom draw (.value (.text formula)) (.whole runs) wording

/-- Searches candidates with the faces of some names, at most so many. -/
def candidatesFor (target : Target) (faces : List Text) (limit : Int) : Reported (List Candidate) :=
  Generator.search target (faces.map fun name => .value (.text name)) (.whole limit)

/-- What the number of runs on a command line does. -/
structure RunsGiven (settings : Settings) (catalog : Catalog) : Prop where
  /-- The command does what the chart over the given number does, unless that is zero. -/
  given : ∀ {σ : Type} (draw : Face → σ → Int × σ) (formula : Text) {runs : Int}, runs ≠ 0 →
    simulateFrom draw formula (some runs) settings (settings.wording catalog) =
      (chart draw formula runs (settings.wording catalog)).discard
  /-- The number of the settings takes the place of none and of zero. -/
  usual : ∀ {σ : Type} (draw : Face → σ → Int × σ) (formula : Text) {runs : Option Int},
    runs = none ∨ runs = some 0 →
      simulateFrom draw formula runs settings (settings.wording catalog) =
        (chart draw formula settings.simulationCount (settings.wording catalog)).discard
  /-- So the chart of a formula that is rolled has rows where the one asked for has none. -/
  zero : ∀ {σ : Type} (draw : Face → σ → Int × σ) {formula : Text} {reading : Reading},
    (Reading.ofText formula).result = .ok reading → (¬∃ term, reading.formula.IsLone term) →
      let shown := simulateFrom draw formula (some 0) settings (settings.wording catalog)
      let asked := chart draw formula 0 (settings.wording catalog)
      ∀ {state last}, shown.Ends state () last →
        ∃ table empty : Sheet.Table, table.rows ≠ [] ∧ empty.rows = [] ∧
          Notice.printed (shown state).1.notices = [.table table] ∧
            Notice.printed (asked state).1.notices = [.table empty]
  /-- The number is what is typed behind its switch. -/
  typed : ∀ {formula number : Text} {runs : Int}, Undashed formula →
    Decimal.Numeral number runs → Arguments.read ["simulate", formula, "-n", number] =
      .ok ⟨.missing, .missing, .missing, false, .simulate formula (some runs)⟩
  /-- The command draws from the dice of the program. -/
  performed : ∀ formula runs lines, perform (.simulate formula runs) settings catalog lines =
    simulateFrom Dice.draw formula runs settings (settings.wording catalog)

/-- In valid settings the number of runs gives way to every given number but zero. -/
theorem runsGiven {settings : Settings} (valid : settings.Valid) (catalog : Catalog) :
    RunsGiven settings catalog := by
  refine ⟨?_, ?_, ?_, read_simulate, fun _ _ _ => rfl⟩
  · intro σ draw formula runs nonzero
    rw [simulateFrom, orUsual_of_ne_zero nonzero]
    exact Session.bind_pure_eq_discard _
  · intro σ draw formula runs absent
    rw [simulateFrom, orUsual_of_not_given absent]
    exact Session.bind_pure_eq_discard _
  · intro σ draw formula reading read several shown asked state last ends
    have drafted : (Draft.value (.text formula)).read.result = .ok reading := read
    have usual : shown = (do
        let _ ← chart draw formula settings.simulationCount (settings.wording catalog)) := rfl
    rw [usual] at ends ⊢
    obtain ⟨histogram, between, charted, -⟩ := Session.bind_ends.mp ends
    obtain ⟨table, printed, rows⟩ := Sheet.showDistributionFrom_printed drafted several charted
    obtain ⟨none, left, emptied⟩ :=
      Sheet.returns_showDistributionFrom_zero drafted several charted
    obtain ⟨empty, nonePrinted, noRows⟩ :=
      Sheet.showDistributionFrom_printed drafted several emptied
    refine ⟨table, empty, ?_, noRows.mpr rfl, ?_, nonePrinted⟩
    · -- Valid settings ask for one roll at least.
      obtain ⟨low, high⟩ := valid.rolls
      have order : 0 ≤ mostTrials := by decide
      rw [ne_eq, rows, rollsFor]
      omega
    · rw [Session.printed_bind_quiet fun _ => Session.quiet_pure _]
      exact printed

/-- What the limit on a command line does. -/
structure LimitGiven (settings : Settings) (catalog : Catalog) : Prop where
  /-- The command shows what is found up to the given limit, unless that is zero. -/
  given : ∀ (target : Target) {faces : List Text} {limit : Int}, faces ≠ [] → limit ≠ 0 →
    generate target faces (some limit) settings (settings.wording catalog) =
      candidatesFor target faces limit >>= fun found =>
        Sheet.showCandidates found (settings.wording catalog)
  /-- The limit of the settings takes the place of none and of zero. -/
  usual : ∀ (target : Target) {faces : List Text} {limit : Option Int}, faces ≠ [] →
    limit = none ∨ limit = some 0 →
      generate target faces limit settings (settings.wording catalog) =
        candidatesFor target faces settings.maxCandidates >>= fun found =>
          Sheet.showCandidates found (settings.wording catalog)
  /-- The search itself shows nothing. -/
  quiet : ∀ target faces limit, (candidatesFor target faces limit).Quiet
  /-- So all candidates are shown where the one asked for was the first of them. -/
  zero : ∀ (target : Target) {faces : List Text} {found : List Candidate}, faces ≠ [] →
    (candidatesFor target faces settings.maxCandidates).result = .ok found →
      (candidatesFor target faces 0).result = .ok (found.take 1) ∧
        let shown := generate target faces (some 0) settings (settings.wording catalog)
        let asked := Sheet.showCandidates (found.take 1) (settings.wording catalog)
        (2 ≤ found.length → shown.result = .ok () →
          Notice.printed shown.notices ≠ Notice.printed asked.notices)
  /-- The limit is what is typed behind its switch, as the faces are behind theirs. -/
  typed : ∀ {low high number : Text} {min max limit : Int} {faces : List Text},
    Decimal.Numeral low min → Decimal.Numeral high max → faces ≠ [] →
      (∀ face ∈ faces, Undashed face) → Decimal.Numeral number limit →
        Arguments.read ("generate" :: searchLine low high faces number) =
          .ok ⟨.missing, .missing, .missing, false, .generate min (some max) faces (some limit)⟩
  /-- The command leaves the dice of the program alone. -/
  performed : ∀ min max faces limit lines,
    perform (.generate min (some max) faces limit) settings catalog lines =
      liftM (generate ⟨min, max⟩ faces limit settings (settings.wording catalog))

/-- In valid settings the limit gives way to every given number but zero. -/
theorem limitGiven {settings : Settings} (valid : settings.Valid) (catalog : Catalog) :
    LimitGiven settings catalog := by
  -- The faces of the settings are only used where none are named.
  have named : ∀ (target : Target) {faces : List Text} (limit : Int), faces ≠ [] →
      Console.candidates settings target faces limit = candidatesFor target faces limit := by
    intro target faces limit some
    rw [Console.candidates, if_neg (fun empty => some (List.isEmpty_iff.mp empty))]
    rfl
  have usual : ∀ (target : Target) {faces : List Text} {limit : Option Int}, faces ≠ [] →
      limit = none ∨ limit = some 0 →
        generate target faces limit settings (settings.wording catalog) =
          candidatesFor target faces settings.maxCandidates >>= fun found =>
            Sheet.showCandidates found (settings.wording catalog) := by
    intro target faces limit some absent
    rw [generate, orUsual_of_not_given absent, named target _ some]
  have quiet : ∀ target faces limit, (candidatesFor target faces limit).Quiet :=
    fun target faces limit => Generator.quiet_search _ _ _
  refine ⟨?_, usual, quiet, ?_, read_generate, fun _ _ _ _ _ => rfl⟩
  · intro target faces limit some nonzero
    rw [generate, orUsual_of_ne_zero nonzero, named target limit some]
  · intro target faces found some ok
    -- A limit of zero allows one candidate, and the settings allow no fewer than that.
    have most : Candidate.allowed (.whole settings.maxCandidates) =
        .ok (max settings.maxCandidates 1) :=
      Candidate.allowed_whole_eq_ok.mpr ⟨.inl valid.candidates, rfl⟩
    have one : Candidate.allowed (.whole 0) = .ok 1 :=
      Candidate.allowed_whole_eq_ok.mpr ⟨.inr Decimal.writable_zero, rfl⟩
    refine ⟨Generator.search_take most one (le_max_right _ _) ok, ?_⟩
    intro shown asked several given
    have all : shown = _ := usual target some (.inr rfl)
    rw [all, Reported.bind_of_ok _ ok] at given ⊢
    rw [Notice.printed_append, quiet, List.nil_append]
    exact Sheet.printed_showCandidates_ne several given

/-- What the numbers on a command line do, and what a run shows. -/
structure NumbersGiven (settings : Settings) (catalog : Catalog) : Prop where
  runs : RunsGiven settings catalog
  limit : LimitGiven settings catalog
  /-- A run with these settings shows what its command shows, drawing from the source of its
  seed. -/
  ran : ∀ {arguments : Arguments} {file : Option Settings.File},
    (CommandLine.settings arguments file).result = .ok settings → arguments.seed ≠ .nothing →
      ∀ lines dice, Notice.printed (run arguments file catalog lines dice).1.notices =
        Notice.printed (perform arguments.command settings catalog lines
          (startOf arguments.seed dice)).1.notices

/-- The numbers of valid settings give way to every given number but zero, which counts as none. -/
theorem numbersGiven {settings : Settings} (valid : settings.Valid) (catalog : Catalog) :
    NumbersGiven settings catalog :=
  ⟨runsGiven valid catalog, limitGiven valid catalog, fun loaded seed lines dice =>
    run_printed loaded seed catalog lines dice⟩

/-- The numbers of the usual settings give way. -/
theorem numbersGiven_usual : Settings.Valid {} ∧ NumbersGiven {} Catalog.packaged :=
  ⟨Settings.valid_default, numbersGiven Settings.valid_default Catalog.packaged⟩

/-- No rolls of two dice are asked for, and the three of the settings are shown. -/
theorem perform_zeroRuns :
    let settings : Settings := { simulationCount := 3 }
    let shown := perform (.simulate "2d4" (some 0)) settings Catalog.packaged [] .standard
    let asked := chart Dice.draw "2d4" 0 (settings.wording Catalog.packaged) .standard
    settings.Valid ∧ Notice.printed shown.1.notices ≠ Notice.printed asked.1.notices := by
  intro settings shown asked
  have valid : settings.Valid := ⟨by decide, by decide⟩
  let pair : Reading := ⟨⟨[⟨.plus, 2, .numeric 4 (by decide), by decide⟩], 0⟩, []⟩
  have read : (Reading.ofText "2d4").result = .ok pair := by decide +kernel
  have several : ¬∃ term, pair.formula.IsLone term := by
    rw [← Formula.isSingleDie_iff]
    decide
  have drafted : (Draft.value (.text "2d4")).read.result = .ok pair := by decide +kernel
  -- Two small dice are never too many to be shown, whatever they come to.
  have manageable : (Sheet.showDistribution (.reading pair) (.whole 3)
      (settings.wording Catalog.packaged)).Returns .standard :=
    Sheet.returns_showDistribution _ (by decide +kernel) (by decide) _
  have returned : (chart Dice.draw "2d4" 3 (settings.wording Catalog.packaged)).Returns .standard :=
    Sheet.returns_showDistributionFrom_of_read drafted manageable
  obtain ⟨histogram, last, charted⟩ := returned
  -- The one table has rows and the other has none.
  obtain ⟨table, other, rows, none, shownTable, askedTable⟩ :=
    (runsGiven valid Catalog.packaged).zero Dice.draw read several
      (Session.bind_ends.mpr ⟨histogram, last, charted, Session.pure_ends.mpr ⟨rfl, rfl⟩⟩)
  rw [← (runsGiven valid Catalog.packaged).performed "2d4" (some 0) []] at shownTable
  refine ⟨valid, fun same => ?_⟩
  simp only [shown, asked] at same
  rw [shownTable, askedTable, List.cons.injEq, Sheet.Item.table.injEq] at same
  rw [same.1] at rows
  exact rows none

end CommandLine

end DiceLab
