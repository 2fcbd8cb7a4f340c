import Mathlib.Data.List.DropRight
import Mathlib.Data.List.Infix

/-! What a learner is told in the course of time, and the episodes in it. An episode consists of its
last step and the steps before it, back to where another one was started or ended; steps that a new
start cuts off belong to none. Main statements: how one more signal changes the episodes and the steps
that are not at an end yet, and that both hang on the order of signals alone, not on what steps say. -/
namespace ProgramGym

/-- What a learner is told: the start of an episode, or a step and whether it is the last one. -/
inductive Signal (β : Type) where
  | start
  | step (told : β) (last : Bool)

namespace Signal
variable {β γ : Type}

def map (f : β → γ) : Signal β → Signal γ
  | start => start
  | step told last => step (f told) last

/-- A step that does not end its episode. -/
def within? : Signal β → Option β
  | step told false => some told
  | _ => none

def isLast : Signal β → Bool
  | step _ last => last
  | start => false

/-- The steps told since the latest start or last step. -/
def unfinished (signals : List (Signal β)) : List β :=
  (signals.rtakeWhile (·.within?.isSome)).filterMap within?

/-- The episode that the latest signal ends, if it ends one. -/
def ended? (signals : List (Signal β)) : Option (List β) :=
  match signals.getLast? with
  | some (step told true) => some (unfinished signals.dropLast ++ [told])
  | _ => none

/-- The episodes that came to their ends, in the order of their ends. -/
def episodes (signals : List (Signal β)) : List (List β) := signals.inits.filterMap ended?

section
variable (signals : List (Signal β))

theorem unfinished_within (told : β) :
    unfinished (signals ++ [step told false]) = unfinished signals ++ [told] := by
  rw [unfinished, List.rtakeWhile_concat_pos _ _ _ rfl, List.filterMap_append]
  rfl

theorem unfinished_bound {bound : Signal β} (no : bound.within? = none) :
    unfinished (signals ++ [bound]) = [] := by
  rw [unfinished, List.rtakeWhile_concat_neg _ _ _ (by simp [no]), List.filterMap_nil]

theorem episodes_concat (signal : Signal β) : episodes (signals ++ [signal]) =
    episodes signals ++ (ended? (signals ++ [signal])).toList := by
  simp only [episodes, List.inits_append, List.filterMap_append]
  cases ended : ended? (signals ++ [signal]) <;> simp [List.inits, ended]

theorem exists_of_isLast {signal : Signal β} (ends : signal.isLast = true) :
    ∃ told, signal = step told true := by
  cases signal with
  | start => cases ends
  | step told last =>
    cases ends
    exact ⟨told, rfl⟩

theorem episodes_going {signal : Signal β} (going : signal.isLast = false) :
    episodes (signals ++ [signal]) = episodes signals := by
  rw [episodes_concat, ended?, List.getLast?_concat]
  cases signal with
  | start => exact List.append_nil _
  | step told last =>
    cases going
    exact List.append_nil _

theorem episodes_last (told : β) : episodes (signals ++ [step told true]) =
    episodes signals ++ [unfinished signals ++ [told]] := by
  rw [episodes_concat, ended?, List.getLast?_concat, List.dropLast_concat]
  rfl

theorem within?_map (f : β → γ) (signal : Signal β) :
    (signal.map f).within? = signal.within?.map f := by
  rcases signal with _ | ⟨told, _ | _⟩ <;> rfl

theorem isLast_map (f : β → γ) (signal : Signal β) : (signal.map f).isLast = signal.isLast := by
  cases signal <;> rfl

theorem unfinished_map (f : β → γ) :
    unfinished (signals.map (map f)) = (unfinished signals).map f := by
  simp only [unfinished, List.rtakeWhile, ← List.map_reverse, List.takeWhile_map, List.filterMap_map,
    List.map_filterMap, Function.comp_def, within?_map, Option.isSome_map]

theorem episodes_map (f : β → γ) :
    episodes (signals.map (map f)) = (episodes signals).map (List.map f) := by
  induction signals using List.reverseRecOn with
  | nil => rfl
  | append_singleton signals signal ih =>
    rw [List.map_append, List.map_singleton]
    cases ends : signal.isLast with
    | false => rw [episodes_going _ ((isLast_map f signal).trans ends), episodes_going _ ends, ih]
    | true =>
      obtain ⟨told, rfl⟩ := exists_of_isLast ends
      rw [map, episodes_last, episodes_last, ih, unfinished_map]
      simp

end
end Signal

end ProgramGym
