import Mathlib.Logic.Function.Basic
import ProgramGym.Proofs.Ordering
import ProgramGym.Storage.Checkpoints

/-! What a store of checkpoints is asked, and what a map by key answers: a payload that was saved
last under a key, and the keys in ascending order. Main statement: the map leaves no choice of
answers, so that two stores that follow it cannot be told apart. -/
namespace ProgramGym.Checkpoints
variable {ω : Type}

inductive Request where
  | save (key payload : String)
  | load (key : String)
  | list
  deriving DecidableEq, Repr

inductive Reply where
  | done
  | payload (text : String)
  | keys (keys : List String)
  deriving DecidableEq, Repr

/-- A request to a store in a state of the world. -/
def ask (store : CheckpointStore ω) : Request → ω → Except Fault Reply × ω
  | .save key payload, w => ((store.save key payload).run w).map (Except.map fun () => .done) id
  | .load key, w => ((store.load key).run w).map (Except.map .payload) id
  | .list, w => (store.list.run w).map (Except.map .keys) id

def answers (store : CheckpointStore ω) : List Request → ω → List (Except Fault Reply)
  | [], _ => []
  | request :: requests, w =>
    let next := ask store request w
    next.1 :: answers store requests next.2

/-- The payload last saved under each key. -/
abbrev Saved := String → Option String

def Saved.after (saved : Saved) : Request → Saved
  | .save key payload => Function.update saved key (some payload)
  | .load _ | .list => saved

/-- What a map by key answers. -/
inductive Answers (saved : Saved) : Request → Except Fault Reply → Prop where
  | save (key payload) : Answers saved (.save key payload) (.ok .done)
  | found {key payload} : saved key = some payload →
      Answers saved (.load key) (.ok (.payload payload))
  | missing {key} : saved key = none →
      Answers saved (.load key) (.error (.checkpoint key .notFound))
  | list {keys} : keys.Pairwise (· < ·) → (∀ key, key ∈ keys ↔ (saved key).isSome) →
      Answers saved .list (.ok (.keys keys))

inductive Follows : Saved → List Request → List (Except Fault Reply) → Prop where
  | nil {saved} : Follows saved [] []
  | cons {saved request answer requests answers} : Answers saved request answer →
      Follows (saved.after request) requests answers →
      Follows saved (request :: requests) (answer :: answers)

theorem Answers.unique {saved : Saved} {request : Request} {a b : Except Fault Reply}
    (first : Answers saved request a) (second : Answers saved request b) : a = b := by
  cases first with
  | save key payload =>
    cases second
    rfl
  | found there =>
    cases second with
    | found again => rw [Option.some.inj (there.symm.trans again)]
    | missing never => cases there.symm.trans never
  | missing never =>
    cases second with
    | found there => cases there.symm.trans never
    | missing => rfl
  | list ascending members =>
    cases second with
    | list ascending' members' =>
      rw [Text.ascending_ext ascending ascending' fun key =>
        (members key).trans (members' key).symm]

theorem Follows.unique {saved : Saved} {requests : List Request} {as bs : List (Except Fault Reply)}
    (first : Follows saved requests as) (second : Follows saved requests bs) : as = bs := by
  induction first generalizing bs with
  | nil =>
    cases second
    rfl
  | cons answer _ ih =>
    cases second with
    | cons answer' rest => rw [answer.unique answer', ih rest]

end ProgramGym.Checkpoints
