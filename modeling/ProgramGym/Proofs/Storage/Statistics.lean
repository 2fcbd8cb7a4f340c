import Mathlib
import ProgramGym.Proofs.Json.RoundTrip
import ProgramGym.Proofs.Lookup
import ProgramGym.Proofs.Metrics
import ProgramGym.Proofs.Storage.Experiments

/-! Figures over the episodes of an experiment. They are drawn from the rows that belong to it,
grouped by the reason that each ended for, whatever else is stored between them. Main statement:
they are the figures drawn from the records themselves. -/
namespace ProgramGym.Database
open Json

/-! Values in groups. -/

section
variable {values : List (Option String)} {key : Option String}

/-- The values that occur, each once. -/
def groups (values : List (Option String)) : List (Option String) :=
  values.eraseDups.mergeSort idLe

theorem groups_perm_dedup (values : List (Option String)) : (groups values).Perm values.dedup :=
  (List.mergeSort_perm _ _).trans (eraseDups_perm_dedup values)

theorem mem_groups_iff : key ∈ groups values ↔ key ∈ values := by
  rw [(groups_perm_dedup values).mem_iff, List.mem_dedup]

theorem nodup_groups (values : List (Option String)) : (groups values).Nodup :=
  (groups_perm_dedup values).nodup_iff.mpr values.nodup_dedup

theorem groupCounts_eq (values : List (Option String)) :
    groupCounts values = (groups values).map fun value => (value, values.count value) := by
  unfold groupCounts groups
  simp only [List.count_eq_length_filter]

/-- Every value is counted once. -/
theorem sum_groups (values : List (Option String)) :
    ((groups values).map fun value => values.count value).sum = values.length := by
  rw [((groups_perm_dedup values).map _).sum_eq]
  convert List.sum_map_count_dedup_eq_length values
  rfl

end

/-! Reasons under their names. -/

/-- What is stored of a reason. -/
def stored (reason : Option TerminalReason) : Option String := reason.map (·.name)

/-- The name that a stored reason is counted under. -/
def entry (value : Option String) : Text := .ofString (value.getD noReason)

theorem toString_entry (value : Option String) : (entry value).toString = value.getD noReason :=
  Text.toString_ofString _

/-- No reason is called as none is. -/
theorem entry_stored_injective : Function.Injective fun reason => entry (stored reason) := by
  intro a b same
  have same := congrArg Text.toString same
  simp only [toString_entry] at same
  revert same
  rcases a with _ | _ | _ | _ | _ <;> rcases b with _ | _ | _ | _ | _ <;>
    simp [stored, noReason, TerminalReason.name]

theorem stored_injective : Function.Injective stored :=
  fun _ _ same => entry_stored_injective (congrArg entry same)

theorem entry_stored_ne_reserved (reason : Option TerminalReason) :
    entry (stored reason) ≠ .ofString reservedName := by
  intro same
  have same := congrArg Text.toString same
  rw [toString_entry, Text.toString_ofString] at same
  revert same
  rcases reason with _ | _ | _ | _ | _ <;>
    simp [stored, noReason, reservedName, TerminalReason.name]

/-- A count as an entry shows it: there is none for nothing. -/
def counted (n : Nat) : Option Nat := if n = 0 then none else some n

section
variable (reasons : List (Option TerminalReason))

theorem outcomeCounts_eq : outcomeCounts (reasons.map stored) =
    (groups (reasons.map stored)).map fun value =>
      (entry value, (reasons.map stored).count value) := by
  have named {value : Option String} (inside : value ∈ groups (reasons.map stored)) :
      ∃ reason, value = stored reason := by
    obtain ⟨reason, _, same⟩ := List.mem_map.mp (mem_groups_iff.mp inside)
    exact ⟨reason, same.symm⟩
  have distinct : ((groups (reasons.map stored)).map entry).Nodup := by
    apply (nodup_groups _).map_on
    intro a first b second same
    obtain ⟨a, rfl⟩ := named first
    obtain ⟨b, rfl⟩ := named second
    exact congrArg stored (entry_stored_injective same)
  have collected := @Members.foldl_put Nat [] ((groups (reasons.map stored)).map
    fun value => (entry value, (reasons.map stored).count value))
    (by simpa [Members.names, List.map_map, Function.comp_def] using distinct)
  rw [List.foldl_map] at collected
  unfold outcomeCounts
  rw [groupCounts_eq, List.foldl_map]
  refine (congrArg (List.filter _) collected).trans ?_
  apply List.filter_eq_self.mpr
  intro member inside
  obtain ⟨value, present, rfl⟩ := List.mem_map.mp inside
  obtain ⟨reason, rfl⟩ := named present
  simpa using entry_stored_ne_reserved reason

theorem get?_outcomeCounts (reason : Option TerminalReason) :
    Members.get? (entry (stored reason)) (outcomeCounts (reasons.map stored)) =
      counted (reasons.count reason) := by
  have apart : ∀ value ∈ groups (reasons.map stored), entry value = entry (stored reason) →
      value = stored reason := by
    intro value inside same
    obtain ⟨other, _, rfl⟩ := List.mem_map.mp (mem_groups_iff.mp inside)
    exact congrArg stored (entry_stored_injective same)
  rw [outcomeCounts_eq, Members.get?, lookup_map apart,
    List.count_map_of_injective _ _ stored_injective, counted]
  simp only [mem_groups_iff, List.mem_map_of_injective stored_injective, List.count_eq_zero]
  by_cases known : reason ∈ reasons <;> simp [known]

theorem sum_outcomeCounts :
    ((outcomeCounts (reasons.map stored)).map (·.2)).sum = reasons.length := by
  rw [outcomeCounts_eq, List.map_map]
  exact (sum_groups _).trans (List.length_map _)

theorem mem_outcomeCounts {name : Text}
    (inside : name ∈ Members.names (outcomeCounts (reasons.map stored))) :
    ∃ reason ∈ reasons, name = entry (stored reason) := by
  rw [outcomeCounts_eq, Members.names, List.map_map] at inside
  obtain ⟨value, present, rfl⟩ := List.mem_map.mp inside
  obtain ⟨reason, known, rfl⟩ := List.mem_map.mp (mem_groups_iff.mp present)
  exact ⟨reason, known, rfl⟩

end

/-! Rows of one experiment. -/

section
variable {now : Instant} {x : String} {d next : Database} {c : Call} {cells : List EpisodeCells}

/-- The episodes of an experiment, as they were stored. -/
def cellsOf (x : String) (d : Database) : List EpisodeCells :=
  (d.episodes.filter (some ·.experiment == some x)).map (·.cells)

/-- What a call has to store for an experiment. -/
def Call.recorded (x : String) : Call → List EpisodeCells
  | .recordEpisodes id episodes => if id = some x then episodes else []
  | _ => []

theorem cellsOf_withEpisodes (d : Database) (x other : String) (episodes : List EpisodeCells) :
    cellsOf x (d.withEpisodes other episodes) =
      cellsOf x d ++ if some other = some x then episodes else [] := by
  unfold cellsOf withEpisodes
  rw [List.filter_append, List.map_append]
  congr 1
  split
  · next same =>
    cases same
    rw [List.filter_eq_self.mpr fun row inside => ?_, List.mapIdx_eq_zipIdx_map, List.map_map]
    · exact List.zipIdx_map_fst 0 episodes
    · obtain ⟨i, small, rfl⟩ := List.mem_mapIdx.mp inside
      simp
  · next differ =>
    rw [List.filter_eq_nil_iff.mpr fun row inside => ?_, List.map_nil]
    obtain ⟨i, small, rfl⟩ := List.mem_mapIdx.mp inside
    simpa using differ

theorem Changes.cellsOf (changes : Changes d c next) (x : String) :
    cellsOf x next = Database.cellsOf x d ++ c.recorded x := by
  cases changes with
  | recordEpisodes known complete => exact cellsOf_withEpisodes d x _ _
  | recordNone id => simp [Call.recorded]
  | create | finish | recordEvaluation | saveCheckpoint | wait | close | reopen =>
    exact (List.append_nil _).symm

theorem Changes.isOpen (changes : Changes d c next) (kept : c ≠ .close) (isOpen : d.isOpen = true) :
    next.isOpen = true := by
  cases changes with
  | close => exact absurd rfl kept
  | reopen => rfl
  | create | finish | recordNone | recordEpisodes | recordEvaluation | saveCheckpoint | wait =>
    exact isOpen

theorem Changes.hasExperiment (changes : Changes d c next) (known : d.hasExperiment x = true) :
    next.hasExperiment x = true := by
  cases changes with
  | create => exact (hasExperiment_append _).mpr (.inl known)
  | finish => rwa [hasExperiment_finished]
  | recordNone | recordEpisodes | recordEvaluation | saveCheckpoint | wait | close | reopen =>
    exact known

/-- An open database with these episodes of an experiment. -/
structure Holds (x : String) (cells : List EpisodeCells) (d : Database) : Prop where
  isOpen : d.isOpen = true
  known : d.hasExperiment x = true
  cells : cellsOf x d = cells

theorem Holds.step (holds : Holds x cells d) (kept : c ≠ .close)
    (complete : ∀ e ∈ c.recorded x, e.Complete) :
    Holds x (cells ++ c.recorded x) (c.op.run d).2 := by
  rcases op_cases c d with ⟨fault, ran⟩ | ⟨next, ran, changes⟩
  · -- what there is to store for this experiment is never refused
    have nothing : c.recorded x = [] := by
      by_contra some
      cases c with
      | recordEpisodes id episodes =>
        simp only [Call.recorded, ite_eq_right_iff, not_forall] at some
        obtain ⟨rfl, _⟩ := some
        simp only [Call.recorded, if_true] at complete
        have answered := run_recordEpisodes_eq_ok_iff.mpr
          ⟨holds.isOpen, fun e inside => ⟨holds.known, complete e inside⟩, rfl⟩
        cases ran.symm.trans answered
      | create | finish | recordEvaluation | saveCheckpoint | wait | close | reopen => exact some rfl
    rw [ran, nothing, List.append_nil]
    exact holds
  · rw [ran]
    exact ⟨changes.isOpen kept holds.isOpen, changes.hasExperiment holds.known,
      (changes.cellsOf x).trans (by rw [holds.cells])⟩

theorem Holds.after (holds : Holds x cells d) {later : List Call} (kept : .close ∉ later)
    (complete : ∀ e ∈ later.flatMap (·.recorded x), e.Complete) :
    Holds x (cells ++ later.flatMap (·.recorded x)) (d.after later) := by
  induction later generalizing d cells with
  | nil => simpa [Database.after] using holds
  | cons c later ih =>
    rw [List.mem_cons, not_or] at kept
    rw [List.flatMap_cons] at complete ⊢
    rw [List.forall_mem_append] at complete
    rw [← List.append_assoc]
    exact ih (holds.step (Ne.symm kept.1) complete.1) kept.2 complete.2

/-- A new experiment has no episodes. -/
theorem holds_created {before : List Call} {made : NewExperiment} (named : made.id = some x)
    (created : (Call.create made).SucceedsAfter now before) :
    Holds x [] ((empty now).after (before ++ [.create made])) := by
  have consistent := consistent_after now before
  rw [after_concat]
  rcases op_cases (.create made) ((empty now).after before) with ⟨fault, ran⟩ | ⟨next, ran, changes⟩
  · rw [Call.SucceedsAfter, ran] at created
    cases created
  · rw [ran]
    obtain ⟨isOpen, _⟩ := statement_eq_ok_iff.mp ran
    refine ⟨changes.isOpen (by simp) isOpen, ?_, ?_⟩
    · cases changes with
      | create same => exact (hasExperiment_append _).mpr (.inr (same.trans named))
    · rw [changes.cellsOf x]
      cases changes with
      | create _ _ unused =>
        have absent : ((empty now).after before).episodes.filter
            (some ·.experiment == some x) = [] := by
          rw [List.filter_eq_nil_iff]
          intro row inside same
          have known := consistent.episodes row inside
          obtain rfl : row.experiment = x := by simpa using same
          rw [unused _ named] at known
          cases known
        rw [Database.cellsOf, absent]
        rfl

end

/-! Figures of rows and of records. -/

section
variable {rows : List EpisodeRow} {records : List (EpisodeRecord Float)}

theorem statsOf_records (same : rows.map (·.cells) = records.map .ofRecord)
    (limit : Quantity Float) :
    (statsOf rows).totalEpisodes = (Metrics.compute records limit).numEpisodes ∧
      (statsOf rows).successRate = (Metrics.compute records limit).successRate ∧
      (statsOf rows).outcomes = outcomeCounts ((records.map (·.reason)).map stored) := by
  have total : rows.length = records.length := by simpa using congrArg List.length same
  have successes : (rows.filter (·.cells.success)).length =
      (records.filter (·.success)).length := by
    have counts := congrArg (List.countP (·.success)) same
    rw [List.countP_map, List.countP_map, List.countP_eq_length_filter,
      List.countP_eq_length_filter] at counts
    exact counts
  have reasons : rows.map (·.cells.reason) = (records.map (·.reason)).map stored := by
    have column := congrArg (List.map (·.reason)) same
    simp only [List.map_map] at column ⊢
    exact column
  refine ⟨total, ?_, congrArg outcomeCounts reasons⟩
  simp only [statsOf, Metrics.compute, total, successes]
  cases records with
  | nil => rfl
  | cons r records => rfl

end

/-- An experiment is made, and then episodes are recorded for it in any batches, with any other calls
among them as long as the database stays open. Its figures are those of the records: as many
episodes, the same share of successes, and for each reason, as for none, an entry with the
number of records that ended for it, unless there are none. -/
theorem stats_agree {now : Instant} {before later : List Call} {made : NewExperiment} {x : String}
    {records : List (EpisodeRecord Float)} (named : made.id = some x)
    (created : (Call.create made).SucceedsAfter now before) (kept : .close ∉ later)
    (recorded : later.flatMap (·.recorded x) = records.map .ofRecord)
    (numbers : ∀ r ∈ records, r.totalReward.isNaN = false) (limit : Quantity Float) :
    let d := (empty now).after (before ++ .create made :: later)
    let metrics := Metrics.compute records limit
    ∃ figures : ExperimentStats, (stats (some x)).run d = (.ok figures, d) ∧
      figures.totalEpisodes = metrics.numEpisodes ∧
      figures.successRate = metrics.successRate ∧
      (∀ reason : TerminalReason,
        figures.outcomes.get? reason.name = counted (metrics.outcomes.of reason)) ∧
      figures.outcomes.get? noReason = counted (records.filter (·.reason.isNone)).length ∧
      (∀ name ∈ figures.outcomes.names,
        name = noReason ∨ ∃ reason : TerminalReason, name = reason.name) ∧
      (figures.outcomes.map (·.2)).sum = figures.totalEpisodes := by
  intro d metrics
  have complete : ∀ e ∈ later.flatMap (·.recorded x), e.Complete := by
    rw [recorded, List.forall_mem_map]
    intro r inside
    exact (complete_ofRecord_iff r).mpr (numbers r inside)
  have holds := (holds_created named created).after kept complete
  rw [List.nil_append, recorded] at holds
  have reached : ((empty now).after (before ++ [.create made])).after later = d := by
    simp [d, Database.after]
  rw [reached] at holds
  obtain ⟨total, rate, outcomes⟩ := statsOf_records holds.cells limit
  refine ⟨_, statement_eq_ok_iff.mpr ⟨holds.isOpen, rfl⟩, total, rate, ?_, ?_, ?_, ?_⟩
  · intro reason
    rw [outcomes]
    exact (get?_outcomeCounts _ (some reason)).trans (congrArg counted (OutcomeCounts.of_ofReasons _ reason).symm)
  · have missing : (records.map (·.reason)).count none =
        (records.filter (·.reason.isNone)).length := by
      rw [List.count_eq_countP, List.countP_map, List.countP_eq_length_filter]
      congr 2
      funext r
      cases same : r.reason <;> simp [same]
    rw [outcomes, ← missing]
    exact get?_outcomeCounts _ none
  · intro name inside
    rw [outcomes] at inside
    obtain ⟨reason, _, rfl⟩ := mem_outcomeCounts _ inside
    cases reason with
    | none => exact .inl rfl
    | some reason => exact .inr ⟨reason, rfl⟩
  · rw [outcomes, sum_outcomeCounts, total]
    exact List.length_map _

/-- Two batches with an episode of another experiment between them: one success, and one episode
that ended for no reason. -/
theorem stats_agree_batches :
    let first : EpisodeRecord Float := ⟨1, 1, true, 2, some .success, "1 + 2"⟩
    let second : EpisodeRecord Float := ⟨2, 0, false, 1, none, "1"⟩
    let made (id : String) : NewExperiment :=
      ⟨some id, some "training", none, some "calc", some "add", none, none⟩
    let later : List Call :=
      [.recordEpisodes (some "walk") [.ofRecord first],
       .recordEpisodes (some "run") [.ofRecord second],
       .recordEpisodes (some "walk") [.ofRecord second]]
    let d := (empty (.moment 0)).after ([.create (made "run")] ++ .create (made "walk") :: later)
    (Call.create (made "walk")).SucceedsAfter (.moment 0) [.create (made "run")] ∧
      .close ∉ later ∧ later.flatMap (·.recorded "walk") = [first, second].map .ofRecord ∧
      (∀ r ∈ [first, second], r.totalReward.isNaN = false) ∧
      ∃ figures : ExperimentStats, (stats (some "walk")).run d = (.ok figures, d) ∧
        figures.totalEpisodes = 2 ∧ figures.outcomes.get? TerminalReason.success.name = some 1 ∧
        figures.outcomes.get? TerminalReason.maxSteps.name = none ∧
        figures.outcomes.get? noReason = some 1 := by
  intro first second made later d
  have created : (Call.create (made "walk")).SucceedsAfter (.moment 0) [.create (made "run")] := rfl
  have kept : .close ∉ later := by simp [later]
  have recorded : later.flatMap (·.recorded "walk") = [first, second].map .ofRecord := rfl
  have numbers : ∀ r ∈ [first, second], r.totalReward.isNaN = false := by decide
  obtain ⟨figures, ran, total, _, reasons, missing, _⟩ :=
    stats_agree rfl created kept recorded numbers Metrics.sampleLimit
  exact ⟨created, kept, recorded, numbers, figures, ran, total, reasons .success,
    reasons .maxSteps, missing⟩

end ProgramGym.Database
