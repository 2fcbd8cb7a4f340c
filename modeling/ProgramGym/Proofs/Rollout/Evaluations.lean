import ProgramGym.Proofs.Metrics
import ProgramGym.Proofs.Rollout.Records
import ProgramGym.Proofs.Rollout.Simulation

/-! Evaluations of whatever can act: greedy episodes one after the other in one environment. Main
statement: every episode is accounted for in the figures, and where the program alone decides what
the interpreter reports, the episodes of a learner are all the same. -/
namespace ProgramGym

namespace Rollout

section
variable {σ : Type} [Actor σ Float] {train : Bool} {env : Environment Float} {actor : σ}
  {features : Nat} {fine : σ → Prop}

/-- A record that says how its episode ended, under these rules. -/
structure Ended (rules : Rules Float) (r : EpisodeRecord Float) : Prop where
  isSome : r.reason.isSome = true
  success : r.success = true ↔ r.reason = some .success
  invalid : r.reason = some .invalidAction → rules.settings.invalidActionPolicy = .terminate

theorem episodes_unfailing (unfailing : Unfailing train features fine) (holds : fine actor)
    (budget : 0 < env.rules.settings.maxSteps) (total : env.rules.interpreter.NeverFaults)
    (width : env.rules.shape.featureCount = features) (first count : Nat) :
    ∃ records next after, episodes train first count env actor = (.ok records, next, after) ∧
      records.length = count ∧ ∀ r ∈ records, Ended env.rules r := by
  induction count generalizing first env actor with
  | zero => exact ⟨[], env, actor, rfl, rfl, nofun⟩
  | succ count ih =>
    obtain ⟨record, next, after, ran, _, rules, holds, reports⟩ :=
      run_unfailing unfailing holds budget total width first
    have ended : Ended env.rules record :=
      ⟨reports.isSome, reports.success, rules ▸ reports.invalid⟩
    obtain ⟨records, last, final, rest, many, all⟩ :=
      ih holds (rules ▸ budget) (rules ▸ total) (rules ▸ width) (first + 1)
    refine ⟨record :: records, last, final, ?_, congrArg (· + 1) many,
      List.forall_mem_cons.mpr ⟨ended, rules ▸ all⟩⟩
    rw [episodes, ran]
    simp only [rest]

end

/-- Nothing but observations of another width makes an agent's choice fail. -/
theorem unfailing_greedy (features : Nat) :
    Unfailing false features fun a : Agent => a.spaces.features = features where
  startEpisode := nofun
  act {a seen} shape fits := by
    rcases a.act_cases seen.features false with ⟨_, acted⟩ | ⟨misfit, _⟩
    · exact ⟨_, _, acted, shape, nofun⟩
    · exact absurd (fits.trans shape.symm) misfit

/-- A learner's greedy episodes are one episode over and over. -/
theorem episodes_alike {rules : Rules Float} {a : Agent} (budget : 0 < rules.settings.maxSteps)
    (total : rules.interpreter.NeverFaults) (functional : rules.interpreter.Functional)
    (learner : a.kind ≠ .random) (fits : a.spaces.features = rules.shape.featureCount) :
    ∃ r : EpisodeRecord Float, r.reason.isSome = true ∧
      ∀ (first count : Nat) (env : Environment Float), env.rules = rules →
        ∃ next, episodes false first count env a =
          (.ok ((List.range count).map fun i => { r with episode := first + i }), next, a) := by
  have started : 0 < (Environment.ofRules rules).rules.settings.maxSteps := budget
  obtain ⟨r, last, after, once, _, _, _, reports⟩ :=
    run_unfailing (unfailing_greedy _) fits started total rfl 1
  refine ⟨r, reports.isSome, fun first count env same => ?_⟩
  induction count generalizing first env with
  | zero => exact ⟨env, rfl⟩
  | succ count ih =>
    subst same
    obtain ⟨record, next, ran⟩ := run_greedy (a := a) budget total learner fits first
    have record_eq : record = { r with episode := first } := by
      have fresh := (run_ofRules false first functional a).1
      rw [ran, run_renumber false 1 first, once] at fresh
      exact Except.ok.inj fresh
    have rules := run_rules false first env a
    rw [ran] at rules
    obtain ⟨final, rest⟩ := ih (first + 1) next rules
    refine ⟨final, ?_⟩
    have renumbered : (List.range (count + 1)).map (fun i => { r with episode := first + i }) =
        record :: (List.range count).map fun i => { r with episode := first + 1 + i } := by
      rw [record_eq, List.range_succ_eq_map, List.map_cons, List.map_map]
      refine congrArg _ (List.map_congr_left fun i _ => ?_)
      rw [Function.comp_apply, Nat.add_right_comm first 1 i]
      rfl
    rw [episodes, ran, renumbered]
    simp only [rest]

end Rollout

end ProgramGym
