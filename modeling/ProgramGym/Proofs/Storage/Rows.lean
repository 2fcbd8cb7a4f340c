import Mathlib.Data.List.Nodup
import ProgramGym.Proofs.Storage.Requests
import ProgramGym.Storage.Database

/-! Checkpoints in the rows of a database. A row is replaced or added for one key of one
namespace, and the rows of another namespace stay as they are. Main statement: while requests to
any namespaces are served, those to one of them are answered as by a map of its own. -/
namespace ProgramGym.Database
open Checkpoints
variable {own namespace_ key payload : String} {rows : List CheckpointRow} {d : Database}
  {saved : Saved}

def payload? (own key : String) (rows : List CheckpointRow) : Option String :=
  (rows.find? fun row => row.namespace_ == own && row.key == key).map (·.payload)

def keysOf (own : String) (rows : List CheckpointRow) : List String :=
  (rows.filter (·.namespace_ == own)).map (·.key)

theorem payload?_cons (row : CheckpointRow) : payload? own key (row :: rows) =
    if row.namespace_ = own ∧ row.key = key then some row.payload else payload? own key rows := by
  rw [payload?, List.find?_cons]
  by_cases here : row.namespace_ = own ∧ row.key = key
  · rw [if_pos here, here.1, here.2, beq_self_eq_true, beq_self_eq_true]
    rfl
  · rw [if_neg here, show (row.namespace_ == own && row.key == key) = false by simpa using here]
    rfl

theorem keysOf_cons (row : CheckpointRow) : keysOf own (row :: rows) =
    if row.namespace_ = own then row.key :: keysOf own rows else keysOf own rows := by
  rw [keysOf, List.filter_cons]
  by_cases here : row.namespace_ = own
  · rw [if_pos here, if_pos (by simpa using here), List.map_cons]
    rfl
  · rw [if_neg here, if_neg (by simpa using here)]
    rfl

theorem putCheckpoint_cons (row : CheckpointRow) :
    putCheckpoint namespace_ key payload (row :: rows) =
      if row.namespace_ = namespace_ ∧ row.key = key then { row with payload } :: rows
      else row :: putCheckpoint namespace_ key payload rows := by
  simp only [putCheckpoint, Bool.and_eq_true, beq_iff_eq]

theorem mem_keysOf_iff : key ∈ keysOf own rows ↔ (payload? own key rows).isSome := by
  induction rows with
  | nil => simp [keysOf, payload?]
  | cons row rows ih =>
    rw [keysOf_cons, payload?_cons]
    by_cases here : row.namespace_ = own
    · by_cases same : row.key = key
      · simp [here, same]
      · simp [here, same, Ne.symm same, ih]
    · simp [here, ih]

/-- A save shows under its namespace and key alone. -/
theorem payload?_putCheckpoint (own other : String) :
    payload? own other (putCheckpoint namespace_ key payload rows) =
      if own = namespace_ ∧ other = key then some payload else payload? own other rows := by
  induction rows with
  | nil =>
    rw [putCheckpoint, payload?_cons]
    simp only [eq_comm]
  | cons row rows ih =>
    rw [putCheckpoint_cons]
    by_cases here : row.namespace_ = namespace_ ∧ row.key = key
    · obtain ⟨rfl, rfl⟩ := here
      rw [if_pos ⟨rfl, rfl⟩, payload?_cons, payload?_cons]
      dsimp only
      by_cases asked : own = row.namespace_ ∧ other = row.key
      · rw [if_pos asked, if_pos ⟨asked.1.symm, asked.2.symm⟩]
      · have elsewhere : ¬ (row.namespace_ = own ∧ row.key = other) := by
          rintro ⟨rfl, rfl⟩
          exact asked ⟨rfl, rfl⟩
        rw [if_neg asked, if_neg elsewhere, if_neg elsewhere]
    · rw [if_neg here, payload?_cons, payload?_cons, ih]
      by_cases asked : own = namespace_ ∧ other = key
      · obtain ⟨rfl, rfl⟩ := asked
        rw [if_neg here, if_pos ⟨rfl, rfl⟩, if_pos ⟨rfl, rfl⟩]
      · rw [if_neg asked, if_neg asked]

theorem keysOf_putCheckpoint (own : String) :
    keysOf own (putCheckpoint namespace_ key payload rows) =
      if own = namespace_ ∧ key ∉ keysOf own rows then keysOf own rows ++ [key]
      else keysOf own rows := by
  induction rows with
  | nil =>
    rw [putCheckpoint, keysOf_cons]
    simp [keysOf, eq_comm]
  | cons row rows ih =>
    rw [putCheckpoint_cons, keysOf_cons]
    by_cases here : row.namespace_ = namespace_ ∧ row.key = key
    · obtain ⟨rfl, rfl⟩ := here
      have known : ¬ (own = row.namespace_ ∧
          row.key ∉ if row.namespace_ = own then row.key :: keysOf own rows else keysOf own rows) := by
        rintro ⟨rfl, new⟩
        rw [if_pos rfl] at new
        exact new List.mem_cons_self
      rw [if_pos ⟨rfl, rfl⟩, if_neg known, keysOf_cons]
    · rw [if_neg here, keysOf_cons, ih]
      by_cases inside : row.namespace_ = own
      · subst inside
        rw [if_pos rfl, if_pos rfl]
        by_cases served : row.namespace_ = namespace_
        · have other : key ≠ row.key := fun same => here ⟨served, same.symm⟩
          simp only [served, true_and, List.mem_cons, other, false_or]
          split <;> rfl
        · simp only [served, false_and, if_false]
      · rw [if_neg inside, if_neg inside]

/-- The rows of a namespace are what was saved in it. -/
structure Keeps (own : String) (saved : Saved) (d : Database) : Prop where
  isOpen : d.isOpen = true
  payloads : ∀ key, payload? own key d.checkpoints = saved key
  once : (keysOf own d.checkpoints).Nodup

theorem keeps_empty (own : String) (now : Instant) : Keeps own (fun _ => none) (empty now) :=
  ⟨rfl, fun _ => rfl, List.nodup_nil⟩

theorem ask_save (isOpen : d.isOpen = true) :
    ask (store namespace_) (.save key payload) d =
      (.ok .done, { d with checkpoints := putCheckpoint namespace_ key payload d.checkpoints }) := by
  obtain ⟨_, now, experiments, episodes, evaluations, checkpoints⟩ := d
  cases isOpen
  rfl

theorem ask_load (isOpen : d.isOpen = true) :
    ask (store namespace_) (.load key) d = match payload? namespace_ key d.checkpoints with
      | some payload => (.ok (.payload payload), d)
      | none => (.error (.checkpoint key .notFound), d) := by
  obtain ⟨_, now, experiments, episodes, evaluations, checkpoints⟩ := d
  cases isOpen
  rw [payload?]
  cases found : checkpoints.find? fun row => row.namespace_ == namespace_ && row.key == key with
  | none => simp [ask, store, statement, requireOpen, found, Except.bind, Except.map, ExceptT.run]
  | some row => simp [ask, store, statement, requireOpen, found, Except.bind, Except.map, ExceptT.run]

theorem ask_list (isOpen : d.isOpen = true) :
    ask (store namespace_) .list d =
      (.ok (.keys ((keysOf namespace_ d.checkpoints).mergeSort fun a b => !(b < a))), d) := by
  obtain ⟨_, now, experiments, episodes, evaluations, checkpoints⟩ := d
  cases isOpen
  rfl

/-- What a request to the namespace is answered, and that its rows are kept. -/
theorem Keeps.ask (keeps : Keeps own saved d) (request : Request) :
    Answers saved request (ask (store own) request d).1 ∧
      Keeps own (saved.after request) (ask (store own) request d).2 := by
  cases request with
  | save key payload =>
    rw [ask_save keeps.isOpen]
    refine ⟨.save key payload, keeps.isOpen, fun other => ?_, ?_⟩
    · rw [payload?_putCheckpoint, Saved.after, Function.update_apply, keeps.payloads]
      simp only [true_and]
    · rw [keysOf_putCheckpoint]
      split
      · next new =>
        rw [← List.concat_eq_append]
        exact keeps.once.concat new.2
      · exact keeps.once
  | load key =>
    rw [ask_load keeps.isOpen, keeps.payloads]
    cases found : saved key with
    | none => exact ⟨.missing found, keeps⟩
    | some payload => exact ⟨.found found, keeps⟩
  | list =>
    rw [ask_list keeps.isOpen]
    refine ⟨.list ?_ fun key => ?_, keeps⟩
    · apply Text.ascending_sorted _ keeps.once
      intro a b
      rw [Bool.not_eq_true', decide_eq_false_iff_not, not_lt]
    · rw [List.mem_mergeSort, mem_keysOf_iff, keeps.payloads]

/-- A request to another namespace leaves the rows of this one. -/
theorem Keeps.frame (keeps : Keeps own saved d) (apart : own ≠ namespace_) (request : Request) :
    Keeps own saved (Checkpoints.ask (store namespace_) request d).2 := by
  cases request with
  | save key payload =>
    rw [ask_save keeps.isOpen]
    refine ⟨keeps.isOpen, fun other => ?_, ?_⟩
    · rw [payload?_putCheckpoint, if_neg fun same => apart same.1, keeps.payloads]
    · rw [keysOf_putCheckpoint, if_neg fun same => apart same.1]
      exact keeps.once
  | load key =>
    rw [ask_load keeps.isOpen]
    split <;> exact keeps
  | list =>
    rw [ask_list keeps.isOpen]
    exact keeps

/-! Requests to several namespaces. -/

/-- The requests to one namespace among those to any. -/
def asked (own : String) (visits : List (String × Request)) : List Request :=
  (visits.filter (·.1 == own)).map (·.2)

/-- The answers in one namespace while requests to any are served. -/
def answersIn (own : String) : List (String × Request) → Database → List (Except Fault Reply)
  | [], _ => []
  | (namespace_, request) :: visits, d =>
    let next := Checkpoints.ask (store namespace_) request d
    if namespace_ = own then next.1 :: answersIn own visits next.2 else answersIn own visits next.2

theorem Keeps.follows (keeps : Keeps own saved d) (visits : List (String × Request)) :
    Follows saved (asked own visits) (answersIn own visits d) := by
  induction visits generalizing saved d with
  | nil => exact .nil
  | cons visit visits ih =>
    obtain ⟨namespace_, request⟩ := visit
    by_cases here : namespace_ = own
    · subst here
      obtain ⟨answered, kept⟩ := keeps.ask request
      rw [asked, List.filter_cons_of_pos (by simp), answersIn, if_pos rfl]
      exact .cons answered (ih kept)
    · rw [asked, List.filter_cons_of_neg (by simpa using here), answersIn, if_neg here]
      exact ih (keeps.frame (Ne.symm here) request)

end ProgramGym.Database
