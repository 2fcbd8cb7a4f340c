import ProgramGym.Metrics.Documents
import ProgramGym.Proofs.Decimal.Writing
import ProgramGym.Proofs.Documents.Vectors
import ProgramGym.Proofs.Json.RoundTrip
import ProgramGym.Proofs.Metrics

/-! Records and metrics among the documents. Where they are taken with members of any kind, those
that are written for records and metrics are among them. Main statements: the metrics of written
records, their report and the comparison of two of them are those of the records and the metrics
themselves. -/
namespace ProgramGym.Metrics.Documents
open Json

/-! Columns. -/

theorem column_records {records : List (EpisodeRecord Float)} {name : Text}
    (value : EpisodeRecord Float → Json) (found : ∀ r, r.json.get? name = some (value r)) :
    column (records.map EpisodeRecord.json) name = .ok ((records.map value).map some) := by
  have each (r : EpisodeRecord Float) : field r.json name = .ok (some (value r)) := by
    rw [field, ← found r]
    rfl
  induction records with
  | nil => rfl
  | cons r records ih => exact mapM_cons_eq_ok.mpr ⟨_, _, rfl, each r, ih⟩

theorem variance_numbers (xs : List Float) :
    variance ((xs.map .number).map some) = Scalar.variance xs := by
  simp only [variance, mean_numbers, List.isEmpty_map, List.length_map, List.foldl_map,
    Scalar.variance]
  rfl

/-! Endings. -/

/-- Counts of endings as numbers under their names. -/
def tallied (counts : TerminalReason → Nat) : Members Float :=
  TerminalReason.all.map fun r => (Text.ofString r.name, Float.ofNat (counts r))

theorem count_tallied {counts : TerminalReason → Nat} {r : TerminalReason}
    (small : counts r < 2 ^ 53) :
    count (tallied counts) r.name = tallied (Function.update counts r (counts r + 1)) := by
  have next : Float.ofNat (counts r) + 1 = Float.ofNat (counts r + 1) := Number.ofNat_add small
  have counted : count (tallied counts) r.name = TerminalReason.all.map fun other =>
      (Text.ofString other.name,
        if other = r then Float.ofNat (counts r) + 1 else Float.ofNat (counts other)) := by
    cases r <;> rfl
  rw [counted, next, tallied]
  refine List.map_congr_left fun other _ => ?_
  rw [Function.update_apply, apply_ite Float.ofNat]

/-- The wordings of the endings that there are. -/
theorem endings_records (reasons : List (Option TerminalReason)) :
    ((reasons.map fun r => some (ofOption TerminalReason.json r)).filter holdsOf).map wordOf =
      (reasons.filterMap id).map fun r => Text.ofString r.name := by
  induction reasons with
  | nil => rfl
  | cons reason reasons ih =>
    cases reason with
    | none => exact ih
    | some r =>
      have held : holdsOf (some (ofOption TerminalReason.json (some r))) = true := by
        cases r <;> rfl
      rw [List.map_cons, List.filter_cons_of_pos held, List.map_cons, ih]
      rfl

theorem foldl_count {counts : TerminalReason → Nat} {reasons : List TerminalReason}
    (small : ∀ r, counts r + reasons.count r ≤ 2 ^ 53) :
    (reasons.map fun r => Text.ofString r.name).foldl count (tallied counts) =
      tallied fun r => counts r + reasons.count r := by
  induction reasons generalizing counts with
  | nil => simp
  | cons reason reasons ih =>
    have here := small reason
    rw [List.count_cons_self] at here
    have after (r : TerminalReason) :
        Function.update counts reason (counts reason + 1) r + reasons.count r =
          counts r + (reason :: reasons).count r := by
      rw [Function.update_apply, List.count_cons]
      split
      · next same =>
        subst same
        simp
        omega
      · next other => simp [Ne.symm other]
    rw [List.map_cons, List.foldl_cons, count_tallied (by omega), ih fun r => after r ▸ small r]
    exact congrArg tallied (funext after)

theorem ordered_tallied (counts : TerminalReason → Nat) : (tallied counts).Ordered :=
  (show (tallied fun _ => 0).Ordered from ⟨by decide, by decide⟩).of_names rfl

/-- The endings of written records are counted as those of the records. -/
theorem outcomes_records (reasons : List (Option TerminalReason)) (few : reasons.length ≤ 2 ^ 53) :
    Members.ofEntries (outcomes (reasons.map fun r => some (ofOption TerminalReason.json r))) =
      tallied (OutcomeCounts.ofReasons reasons).of := by
  have counts (r : TerminalReason) :
      0 + (reasons.filterMap id).count r = (OutcomeCounts.ofReasons reasons).of r := by
    rw [OutcomeCounts.of_ofReasons, Nat.zero_add, List.count_filterMap]
    rfl
  have small (r : TerminalReason) : 0 + (reasons.filterMap id).count r ≤ 2 ^ 53 := by
    rw [counts, OutcomeCounts.of_ofReasons]
    exact List.count_le_length.trans few
  have start : (TerminalReason.all.map fun r => (Text.ofString r.name, (0 : Float))) =
      tallied fun _ => 0 := rfl
  rw [outcomes, endings_records, start, foldl_count small, funext counts]
  exact (ordered_tallied _).ofEntries

/-! Samples. -/

theorem enough_ofScalar (limit : Float) (found : Nat) (few : found ≤ 2 ^ 53) :
    enough (.ofScalar limit) found = decide (limit ≤ Float.ofNat found) := by
  unfold Quantity.ofScalar
  split
  · next n whole =>
    have worth := Binary64.worth_of_toNat? whole
    rw [enough, decide_eq_decide, worth.le_iff (Binary64.worth_of_toNat?
      (Binary64.toNat?_ofNat_le few)), Nat.cast_le]
  · rfl

theorem any_alike_texts (program : Text) (found : List Text) :
    ((found.map .text).map some).any (alike (some (.text program))) = found.contains program := by
  rw [List.any_map, List.any_map, List.contains_eq_any_beq]
  rfl

theorem samples_texts (limit : Float) (found programs : List Text)
    (few : found.length + programs.length ≤ 2 ^ 53) :
    samples limit ((found.map .text).map some) ((programs.map .text).map some) =
      ((Metrics.samples (enough (.ofScalar limit)) found programs).map .text).map some := by
  induction programs generalizing found with
  | nil => rfl
  | cons program programs ih =>
    rw [List.length_cons] at few
    simp only [List.map_cons, samples, Metrics.samples, List.length_map, any_alike_texts,
      enough_ofScalar limit found.length (by omega), decide_eq_true_eq]
    split
    · rfl
    split
    · exact ih _ (by omega)
    · rw [← ih _ (by simp; omega)]
      simp

/-! Metrics of records. -/

/-- The metrics of written records are those of the records, whatever number limits the samples. -/
theorem compute_records {records : List (EpisodeRecord Float)} (few : records.length ≤ 2 ^ 53)
    (limit : Float) :
    compute (some (.array (records.map EpisodeRecord.json))) (some (.number limit)) =
      .ok (Metrics.compute records (.ofScalar limit)).json := by
  have rewards : (records.map fun r => Json.number r.totalReward) =
      (records.map (·.totalReward)).map .number := by simp
  have lengths : (records.map fun r => Json.nat r.steps) =
      (records.map fun r => Float.ofNat r.steps).map .number := by simp [Json.nat]
  have reasons : ((records.map fun r => ofOption TerminalReason.json r.reason).map some) =
      (records.map (·.reason)).map fun r => some (ofOption TerminalReason.json r) := by simp
  have programs : (records.map fun r => Json.text r.program) =
      (records.map (·.program)).map .text := by simp
  have successes : (((records.map fun r => Json.bool r.success).map some).filter holdsOf).length =
      (records.filter (·.success)).length := by
    rw [List.filter_map, List.length_map, List.filter_map, List.length_map]
    rfl
  have sampled := samples_texts limit [] (records.map (·.program)) (by simpa using few)
  have ended := outcomes_records (records.map (·.reason)) (by simpa using few)
  refine bind_eq_ok.mpr ⟨_, column_records (fun r => .number r.totalReward) fun _ => rfl, ?_⟩
  refine bind_eq_ok.mpr ⟨_, column_records (fun r => .nat r.steps) fun _ => rfl, ?_⟩
  refine bind_eq_ok.mpr ⟨_, column_records
    (fun r => ofOption TerminalReason.json r.reason) fun _ => rfl, ?_⟩
  refine bind_eq_ok.mpr ⟨_, column_records (fun r => .text r.program) fun _ => rfl, ?_⟩
  refine bind_eq_ok.mpr ⟨_, column_records (fun r => .bool r.success) fun _ => rfl, ?_⟩
  rw [rewards, lengths, reasons, programs, ended]
  change samples limit [] _ = _ at sampled
  have limited : ((some (Json.number limit)).map toNumber).getD sampleLimit.toScalar = limit := rfl
  have shown (texts : List Text) : (((texts.map .text).map some).map (·.getD .null)) =
      texts.map Json.text := by simp
  simp only [mean_numbers, variance_numbers, successes, limited, sampled, shown, List.length_map,
    List.isEmpty_map]
  rfl

/-- The limit that is taken where none is given. -/
theorem compute_unlimited {records : List (EpisodeRecord Float)} (few : records.length ≤ 2 ^ 53) :
    compute (some (.array (records.map EpisodeRecord.json))) none =
      .ok (Metrics.compute records sampleLimit).json := by
  have five : (Quantity.ofScalar sampleLimit.toScalar : Quantity Float) = sampleLimit :=
    Quantity.canonical_count (by decide)
  exact five ▸ compute_records few sampleLimit.toScalar

/-! Comparisons. -/

theorem improvement_numbers (baseline learned : Float) :
    improvement (some (.number baseline)) (some (.number learned)) =
      Metrics.improvement baseline learned := by
  simp only [improvement, Metrics.improvement, Scalar.lt_float]
  rfl

/-- Written metrics are compared as the metrics are. -/
theorem compare_metrics (baseline learned : Metrics Float) :
    compare (some baseline.json) (some learned.json) =
      .ok (Metrics.compare baseline learned).json := by
  have figures (b l : Float) : compareFigures (some (.number b)) (some (.number l)) =
      (Metrics.compareFigures b l).json := by
    rw [compareFigures, improvement_numbers]
    rfl
  have all : compare (some baseline.json) (some learned.json) = .ok (.object
      [("meanReward", compareFigures (some (.number baseline.meanReward))
         (some (.number learned.meanReward))),
       ("successRate", compareFigures (some (.number baseline.successRate))
         (some (.number learned.successRate))),
       ("meanLength", compareFigures (some (.number baseline.meanLength))
         (some (.number learned.meanLength)))]) := rfl
  rw [all, figures, figures, figures]
  rfl

/-! Reports. -/

theorem fixed_number {j : Json} {name : Text} {x : Float}
    (found : field j name = .ok (some (.number x))) (places : Nat) :
    fixed j name places = .ok (Number.fixedText x places) :=
  bind_eq_ok.mpr ⟨_, found, rfl⟩

theorem wording_nat (n : Nat) : wording (some (.nat n)) = (Quantity.count n).text := by
  rw [Quantity.text_count]
  exact Text.toString_ofString _

theorem outcomesText_counts {counts : OutcomeCounts} (few : ∀ r, counts.of r ≤ 2 ^ 53) :
    outcomesText (.object (TerminalReason.all.map fun r =>
      (Text.ofString r.name, .nat (counts.of r)))) = counts.text := by
  have positive (r : TerminalReason) : numberOf (some (.nat (counts.of r))) > 0 ↔ counts.of r > 0 :=
    Number.ofNat_lt (Nat.zero_le _) (few r)
  have found (r : TerminalReason) : (Json.object (TerminalReason.all.map fun r =>
      (Text.ofString r.name, Json.nat (counts.of r)))).get? r.name = some (.nat (counts.of r)) := by
    cases r <;> rfl
  have parts : (TerminalReason.all.filterMap fun r =>
      if numberOf (some (Json.nat (counts.of r))) > 0
      then some (r.name ++ "=" ++ wording (some (Json.nat (counts.of r)))) else none) =
      (TerminalReason.all.filter (counts.of · > 0)).map fun r =>
        r.name ++ "=" ++ (Quantity.count (counts.of r)).text := by
    rw [← List.filterMap_eq_filter, List.map_filterMap]
    refine List.filterMap_congr fun r _ => ?_
    by_cases some : counts.of r > 0
    · rw [if_pos ((positive r).mpr some), wording_nat, Option.guard, if_pos (by simpa using some)]
      rfl
    · rw [if_neg (mt (positive r).mp some), Option.guard, if_neg (by simpa using some)]
      rfl
  simp only [outcomesText, found, parts]
  rfl

/-- The report of written metrics is that of the metrics. -/
theorem text_metrics (m : Metrics Float) (few : ∀ r, m.outcomes.of r ≤ 2 ^ 53) :
    text (some m.json) = .ok m.text := by
  have outcomes : field m.json "outcomes" = .ok (some (.object (TerminalReason.all.map fun r =>
      (Text.ofString r.name, .nat (m.outcomes.of r))))) := rfl
  have episodes : field m.json "numEpisodes" = .ok (some (.nat m.numEpisodes)) := rfl
  have success : field m.json "successRate" = .ok (some (.number m.successRate)) := rfl
  refine bind_eq_ok.mpr ⟨_, outcomes, ?_⟩
  refine bind_eq_ok.mpr ⟨_, episodes, bind_eq_ok.mpr ⟨_, success, ?_⟩⟩
  refine bind_eq_ok.mpr ⟨_, fixed_number rfl 3, bind_eq_ok.mpr ⟨_, fixed_number rfl 3, ?_⟩⟩
  refine bind_eq_ok.mpr ⟨_, fixed_number rfl 1, ?_⟩
  rw [outcomesText_counts few, wording_nat]
  rfl

end ProgramGym.Metrics.Documents
