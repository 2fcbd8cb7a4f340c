import Mathlib
import ProgramGym.Proofs.Exact.Averages
import ProgramGym.Proofs.Learner.Episodes
import ProgramGym.Proofs.Learner.Signals

/-! The running baseline of a policy. Of an episode it takes up the sum of the rewards, when the episode
ends, and of steps that are forgotten nothing. Main statement: over exact numbers the baseline is a
weighted average of the undiscounted returns of all episodes that came to their ends, the first of
which sets it, and so it lies where all of these returns lie. -/
namespace ProgramGym

namespace PolicyLearner

section
variable {α : Type} [Scalar α]

def hear (p : PolicyLearner α) : Signal (PolicyStep α) → PolicyLearner α
  | .start => p.startEpisode
  | .step step last => p.learn step last

def follow (p : PolicyLearner α) (signals : List (Signal (PolicyStep α))) : PolicyLearner α :=
  signals.foldl hear p

/-- What the episodes that came to their ends have paid, undiscounted. -/
def payments (rewards : List (Signal α)) : List α := (Signal.episodes rewards).map Scalar.sum

/-- The baseline, once an episode has set it. -/
def known? (p : PolicyLearner α) : Option α := if p.baselineSet then some p.baseline else none

def blend (momentum : α) : Option α → α → Option α
  | none, total => some total
  | some b, total => some (momentum * b + (Scalar.nat 1 - momentum) * total)

/-- What a learner has kept of what it was told, its weights apart. -/
structure Keeps (s : PolicySettings α) (signals : List (Signal (PolicyStep α)))
    (p : PolicyLearner α) : Prop where
  settings : p.settings = s
  buffer : p.buffer = Signal.unfinished signals
  known : p.known? =
    (payments (signals.map (.map (·.reward)))).foldl (blend s.baselineMomentum) none

variable {p : PolicyLearner α} {s : PolicySettings α} {signals : List (Signal (PolicyStep α))}

omit [Scalar α] in
theorem baseline_of_known {b : α} (known : p.known? = some b) : p.baseline = b := by
  unfold known? at known
  split at known
  · exact Option.some.inj known
  · cases known

theorem episodeReturn_eq (p : PolicyLearner α) :
    p.episodeReturn = Scalar.sum (p.buffer.map (·.reward)) := by
  rw [Scalar.sum, List.foldl_map]
  rfl

theorem known?_updateBaseline (p : PolicyLearner α) (total : α) :
    (p.updateBaseline total).known? = blend p.settings.baselineMomentum p.known? total := by
  unfold updateBaseline
  cases set : p.baselineSet <;> simp [known?, set, blend]

theorem settings_updateBaseline (p : PolicyLearner α) (total : α) :
    (p.updateBaseline total).settings = p.settings := by
  unfold updateBaseline
  split <;> rfl

theorem Keeps.start (keeps : Keeps s signals p) : Keeps s (signals ++ [.start]) p.startEpisode := by
  refine ⟨keeps.settings, (Signal.unfinished_bound _ rfl).symm, ?_⟩
  rw [List.map_append, payments, List.map_singleton, Signal.map, Signal.episodes_going _ rfl]
  exact keeps.known

theorem Keeps.within (keeps : Keeps s signals p) (step : PolicyStep α) :
    Keeps s (signals ++ [.step step false]) (p.learn step false) := by
  refine ⟨keeps.settings, ?_, ?_⟩
  · rw [Signal.unfinished_within, ← keeps.buffer]
    rfl
  · rw [List.map_append, payments, List.map_singleton, Signal.map, Signal.episodes_going _ rfl]
    exact keeps.known

/-- The last step of an episode blends in the sum of its rewards, and of no others. -/
theorem Keeps.last (keeps : Keeps s signals p) (step : PolicyStep α) :
    Keeps s (signals ++ [.step step true]) (p.learn step true) := by
  let whole : PolicyLearner α := { p with buffer := p.buffer ++ [step] }
  have learned : p.learn step true = whole.ascend := rfl
  refine ⟨?_, (Signal.unfinished_bound _ rfl).symm, ?_⟩
  · exact (settings_updateBaseline whole _).trans keeps.settings
  · have blended : whole.ascend.known? = blend s.baselineMomentum p.known? whole.episodeReturn := by
      rw [← keeps.settings]
      exact known?_updateBaseline whole _
    rw [learned, blended, keeps.known, episodeReturn_eq]
    simp only [whole, keeps.buffer, payments, List.map_append, List.map_singleton, Signal.map,
      Signal.episodes_last, Signal.unfinished_map, List.foldl_append, List.foldl_cons, List.foldl_nil]

theorem Keeps.hear (keeps : Keeps s signals p) (signal : Signal (PolicyStep α)) :
    Keeps s (signals ++ [signal]) (p.hear signal) := by
  rcases signal with _ | ⟨step, _ | _⟩
  · exact keeps.start
  · exact keeps.within step
  · exact keeps.last step

theorem keeps_follow (idle : p.buffer = []) (unset : p.baselineSet = false)
    (signals : List (Signal (PolicyStep α))) : Keeps p.settings signals (p.follow signals) := by
  -- by the latest signal, for the steps that wait are found from the end
  induction signals using List.reverseRecOn with
  | nil =>
    have none : p.known? = none := by simp [known?, unset]
    exact ⟨rfl, idle, none⟩
  | append_singleton signals signal ih =>
    rw [follow, List.foldl_concat]
    exact ih.hear signal

end

/-! Weights of returns, over exact numbers. -/

noncomputable section
variable (m : ℝ)

/-- The weight of one of so many returns: one for the first and what the momentum leaves of one for any
other, times the momentum for each return that follows. -/
def share (count place : ℕ) : ℝ :=
  if place = 0 then m ^ (count - 1) else (1 - m) * m ^ (count - 1 - place)

variable {m} in
theorem share_nonneg (least : 0 ≤ m) (below : m ≤ 1) (count place : ℕ) : 0 ≤ share m count place := by
  unfold share
  split
  · exact pow_nonneg least _
  · exact mul_nonneg (sub_nonneg.mpr below) (pow_nonneg least _)

/-- A further return scales all weights alike. -/
theorem share_succ {count place : ℕ} (inside : place < count + 1) :
    share m (count + 2) place = m * share m (count + 1) place := by
  unfold share
  split
  · exact pow_succ' m count
  · have later : count + 2 - 1 - place = count + 1 - 1 - place + 1 := by omega
    rw [later, pow_succ', mul_left_comm]

theorem share_last (count : ℕ) : share m (count + 2) (count + 1) = 1 - m := by
  simp [share]

theorem sum_share_succ (f : ℕ → ℝ) (count : ℕ) :
    ∑ i ∈ Finset.range (count + 2), share m (count + 2) i * f i =
      m * ∑ i ∈ Finset.range (count + 1), share m (count + 1) i * f i + (1 - m) * f (count + 1) := by
  rw [Finset.sum_range_succ, share_last, Finset.mul_sum]
  refine congrArg (· + _) (Finset.sum_congr rfl fun i inside => ?_)
  rw [share_succ m (Finset.mem_range.mp inside), mul_assoc]

theorem sum_share (count : ℕ) : ∑ i ∈ Finset.range (count + 1), share m (count + 1) i = 1 := by
  induction count with
  | zero => simp [share]
  | succ count ih =>
    have next := sum_share_succ m (fun _ => 1) count
    simp only [mul_one, ih] at next
    rw [next, add_sub_cancel]

/-- The average of returns with these weights. -/
def smoothed (returns : List ℝ) : ℝ :=
  ∑ i : Fin returns.length, share m returns.length i * returns.get i

theorem smoothed_eq_sum_range (returns : List ℝ) : smoothed m returns =
    ∑ i ∈ Finset.range returns.length, share m returns.length i * returns.getD i 0 := by
  rw [smoothed, Finset.sum_range]
  refine Finset.sum_congr rfl fun i _ => ?_
  rw [List.getD_eq_getElem _ _ i.isLt]
  rfl

theorem smoothed_singleton (total : ℝ) : smoothed m [total] = total := by
  simp [smoothed, share]

theorem smoothed_concat {returns : List ℝ} (any : returns ≠ []) (total : ℝ) :
    smoothed m (returns ++ [total]) = m * smoothed m returns + (1 - m) * total := by
  obtain ⟨count, length⟩ := Nat.exists_eq_succ_of_ne_zero (List.length_pos_of_ne_nil any).ne'
  have before : ∀ i ∈ Finset.range (count + 1), share m (count + 1) i * (returns ++ [total]).getD i 0 =
      share m (count + 1) i * returns.getD i 0 := by
    intro i inside
    rw [List.getD_append _ _ _ _ (by simpa [length] using inside)]
  have latest : (returns ++ [total]).getD (count + 1) 0 = total := by
    rw [List.getD_append_right _ _ _ _ length.le, length]
    simp
  rw [smoothed_eq_sum_range, smoothed_eq_sum_range, List.length_append, List.length_singleton, length,
    Nat.succ_eq_add_one, sum_share_succ, latest, Finset.sum_congr rfl before]

/-- A weighted average lies where all of its numbers lie. -/
theorem smoothed_mem_Icc {m : ℝ} (least : 0 ≤ m) (below : m ≤ 1) {returns : List ℝ}
    (any : returns ≠ []) {low high : ℝ} (inside : ∀ g ∈ returns, g ∈ Set.Icc low high) :
    smoothed m returns ∈ Set.Icc low high := by
  obtain ⟨count, length⟩ := Nat.exists_eq_succ_of_ne_zero (List.length_pos_of_ne_nil any).ne'
  refine (convex_Icc low high).sum_mem (fun i _ => share_nonneg least below _ _) ?_ fun i _ => ?_
  · rw [← Finset.sum_range fun i => share m returns.length i, length]
    exact sum_share m count
  · exact inside _ (List.get_mem returns i)

/-- The first return is taken as it is, every later one is blended in. -/
theorem foldl_blend_real {returns : List ℝ} (any : returns ≠ []) :
    (returns.map Exact.real).foldl (blend (Exact.real m)) none =
      some (Exact.real (smoothed m returns)) := by
  induction returns using List.reverseRecOn with
  | nil => exact absurd rfl any
  | append_singleton returns total ih =>
    rw [List.map_append, List.foldl_append]
    rcases eq_or_ne returns [] with rfl | earlier
    · simp [blend, smoothed_singleton]
    · rw [ih earlier, smoothed_concat m earlier]
      simp [blend]

theorem payments_real (rewards : List (Signal ℝ)) :
    payments (rewards.map (.map Exact.real)) =
      ((Signal.episodes rewards).map List.sum).map Exact.real := by
  rw [payments, Signal.episodes_map, List.map_map, List.map_map]
  exact List.map_congr_left fun episode _ => Exact.sum_reals episode

/-- The rewards of the steps that are told are these real numbers. -/
def Pays (signals : List (Signal (PolicyStep Exact))) (rewards : List (Signal ℝ)) : Prop :=
  signals.map (Signal.map (·.reward)) = rewards.map (Signal.map .real)

/-- Finite rewards stand for real ones. -/
theorem exists_pays {heard : List (Signal (PolicyStep Float))}
    (finite : ∀ step last, .step step last ∈ heard → step.reward.isFinite = true) :
    ∃ rewards, Pays (heard.map (Signal.map (PolicyStep.map Exact.ofFloat))) rewards := by
  have stands (step : PolicyStep Float) :
      ∃ r : ℝ, step.reward.isFinite = true → Exact.ofFloat step.reward = .real r := by
    by_cases known : step.reward.isFinite = true
    · obtain ⟨r, value⟩ := Exact.ofFloat_finite known
      exact ⟨r, fun _ => value⟩
    · exact ⟨0, fun other => absurd other known⟩
  choose worth value using stands
  refine ⟨heard.map (Signal.map worth), ?_⟩
  rw [Pays, List.map_map, List.map_map]
  refine List.map_congr_left fun signal inside => ?_
  cases signal with
  | start => rfl
  | step step last => exact congrArg (Signal.step · last) (value step (finite step last inside))

variable {m} in
theorem baseline_exact {p : PolicyLearner Exact} (idle : p.buffer = [])
    (unset : p.baselineSet = false) (momentum : p.settings.baselineMomentum = .real m)
    {signals : List (Signal (PolicyStep Exact))} {rewards : List (Signal ℝ)}
    (pays : Pays signals rewards) (any : Signal.episodes rewards ≠ []) :
    (p.follow signals).baseline = .real (smoothed m ((Signal.episodes rewards).map List.sum)) := by
  have known := (keeps_follow idle unset signals).known
  rw [pays, momentum, payments_real, foldl_blend_real m (by simpa using any)] at known
  exact baseline_of_known known

end
end PolicyLearner

end ProgramGym
