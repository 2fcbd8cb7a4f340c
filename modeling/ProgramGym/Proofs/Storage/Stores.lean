import ProgramGym.Proofs.Storage.Files
import ProgramGym.Proofs.Storage.Rows

/-! Files in a directory against rows in a database. A directory that starts out empty has one file
for each key that was saved and none that a save could stumble over, so that its answers are those
of a map. Main statement: the two stores answer alike, whatever is asked in other namespaces of
the database. -/
namespace ProgramGym.Checkpoints
variable {directory : Location} {d d' : Disk} {saved : Saved} {key payload : String}

/-! Requests to files. -/

theorem load_unchanged (directory : Location) (key : String) (d : Disk) :
    (((files directory).load key).run d).2 = d := by
  cases valid : isKey key with
  | false => rw [loaded_of_invalid valid]
  | true =>
    rw [run_load valid]
    split
    · rfl
    · split <;> rfl

theorem list_unchanged (directory : Location) (d : Disk) : ((files directory).list.run d).2 = d := by
  rw [run_list]
  split
  · rfl
  · split <;> rfl

theorem nodup_keysIn (wf : d.WellFormed) (path : List String) : (keysIn d path).Nodup := by
  refine (wf.nodup_children path).filterMap fun name other key found again => ?_
  rw [(keyOf?_eq_some_iff name key).mp found, (keyOf?_eq_some_iff other key).mp again]

theorem toNat_lt_of_isAlphanum {c : Char} (alphanumeric : c.isAlphanum = true) :
    c.toNat < 0x10000 := by
  change ((c.val ≥ 'A'.val ∧ c.val ≤ 'Z'.val : Bool) || (c.val ≥ 'a'.val && c.val ≤ 'z'.val) ||
    (c.val ≥ '0'.val && c.val ≤ '9'.val)) = true at alphanumeric
  simp only [Bool.or_eq_true, Bool.and_eq_true, decide_eq_true_eq, UInt32.le_iff_toNat_le,
    ge_iff_le] at alphanumeric
  change c.val.toNat < 0x10000
  rcases alphanumeric with (⟨_, upper⟩ | ⟨_, lower⟩) | ⟨_, digit⟩
  · exact Nat.lt_of_le_of_lt upper (by decide)
  · exact Nat.lt_of_le_of_lt lower (by decide)
  · exact Nat.lt_of_le_of_lt digit (by decide)

theorem basic_of_isKey (valid : isKey key = true) : Text.Basic key := by
  intro c inside
  rw [isKey, Bool.and_eq_true, Bool.and_eq_true, List.all_eq_true] at valid
  have char := valid.1.2 c inside
  simp only [isKeyChar, Bool.or_eq_true, beq_iff_eq] at char
  rcases char with ((alphanumeric | rfl) | rfl) | rfl
  · exact toNat_lt_of_isAlphanum alphanumeric
  · decide
  · decide
  · decide

/-! A directory as a map. -/

/-- A directory that is empty, or that is missing and can be made. -/
structure Vacant (directory : Location) (d : Disk) : Prop extends d.Usable directory where
  empty : ∀ name, d.entry? (directory.below name).path = none

/-- The files of a directory are what was saved in it. -/
structure Holds (directory : Location) (saved : Saved) (d : Disk) : Prop
    extends d.Usable directory where
  entries : ∀ key, d.entry? (directory.below (fileName key)).path = (saved key).map .file
  drafts : ∀ key, d.entry? (Disk.draft directory (fileName key)).path ≠ some .directory
  accepted : ∀ key, (saved key).isSome →
    isKey key = true ∧ (directory.below (fileName key)).Named

theorem Vacant.holds (vacant : Vacant directory d) : Holds directory (fun _ => none) d where
  toUsable := vacant.toUsable
  entries key := vacant.empty (fileName key)
  drafts key := by
    rw [vacant.empty]
    nofun
  accepted _ := nofun

/-- A request that the file system has names for. -/
def Accepted (directory : Location) : Request → Prop
  | .save key _ => isKey key = true ∧ (directory.below (fileName key)).Named ∧
      (Disk.draft directory (fileName key)).Named
  | .load key => isKey key = true
  | .list => True

theorem Holds.save (holds : Holds directory saved d)
    (accepted : Accepted directory (.save key payload)) :
    ∃ d', ((files directory).save key payload).run d = (.ok (), d') ∧
      Holds directory (saved.after (.save key payload)) d' := by
  obtain ⟨valid, target, beside⟩ := accepted
  have free : d.entry? (directory.below (fileName key)).path ≠ some .directory := by
    rw [holds.entries]
    cases saved key <;> simp
  obtain ⟨d', done⟩ := save_ok holds.toUsable valid beside target (holds.drafts key) free payload
  obtain ⟨_, _, _, _, made, ext, _, wf, rfl⟩ := save_done holds.wellFormed done
  refine ⟨_, done, ⟨wf, holds.named, fun n _ content => ?_⟩, fun other => ?_, fun other => ?_,
    fun other there => ?_⟩
  · rw [Disk.entry?_moved, if_neg (Disk.take_ne_below _ _ n), if_neg (Disk.take_ne_below _ _ n),
      ext.entries, if_pos (List.take_prefix n _)]
    simp
  · rw [Disk.entry?_moved, Saved.after, Function.update_apply]
    by_cases same : other = key
    · rw [same, if_pos rfl, if_pos rfl, Option.map_some]
    · rw [if_neg fun same' => same (target_injective same'),
        if_neg (target_ne_draft directory key other), if_neg same, ext.entry?_below, holds.entries]
  · rw [Disk.entry?_moved, if_neg (target_ne_draft directory other key).symm]
    split
    · simp
    · rw [ext.entry?_below]
      exact holds.drafts other
  · rw [Saved.after, Function.update_apply] at there
    by_cases same : other = key
    · rw [same]
      exact ⟨valid, target⟩
    · rw [if_neg same] at there
      exact holds.accepted other there

theorem Holds.loaded (holds : Holds directory saved d) (valid : isKey key = true) :
    loaded directory key d = match saved key with
      | some payload => .ok payload
      | none => .error (.checkpoint key .notFound) := by
  have entry := holds.entries key
  cases there : saved key with
  | none =>
    rw [there] at entry
    by_cases named : (directory.below (fileName key)).Named
    · rw [loaded_named holds.wellFormed valid named, entry]
      rfl
    · exact loaded_unnamed holds.wellFormed valid named
  | some payload =>
    rw [there] at entry
    rw [loaded_named holds.wellFormed valid (holds.accepted key (by simp [there])).2, entry]
    rfl

theorem Holds.listed (holds : Holds directory saved d) :
    ∃ keys, listed directory d = .ok keys ∧ keys.Pairwise (· < ·) ∧
      ∀ key, key ∈ keys ↔ (saved key).isSome := by
  have members (key : String) : key ∈ keysIn d directory.path ↔ (saved key).isSome := by
    rw [mem_keysIn_iff, holds.entries, Option.isSome_map]
  cases there : d.entry? directory.path with
  | none =>
    rw [keysIn_missing holds.wellFormed there] at members
    exact ⟨[], listed_missing holds.wellFormed (by simp [there]), .nil, members⟩
  | some e =>
    cases e with
    | file content =>
      rw [← List.take_length (l := directory.path)] at there
      exact absurd there (holds.clear _ (Nat.le_refl _) content)
    | directory =>
      refine ⟨_, listed_directory holds.wellFormed holds.named there, ?_, fun key => ?_⟩
      · apply Text.ascending_mergeSort _ (nodup_keysIn holds.wellFormed _)
        intro key inside
        exact basic_of_isKey (holds.accepted key ((members key).mp inside)).1
      · rw [List.mem_mergeSort, members]

/-- What a request is answered, and that the directory goes on as a map. -/
theorem Holds.ask (holds : Holds directory saved d) {request : Request}
    (accepted : Accepted directory request) :
    Answers saved request (ask (files directory) request d).1 ∧
      Holds directory (saved.after request) (ask (files directory) request d).2 := by
  cases request with
  | save key payload =>
    obtain ⟨d', done, after⟩ := holds.save accepted
    rw [Checkpoints.ask, done]
    exact ⟨.save key payload, after⟩
  | load key =>
    change Answers saved _ ((Checkpoints.loaded directory key d).map .payload) ∧
      Holds directory saved (((files directory).load key).run d).2
    rw [load_unchanged, holds.loaded accepted]
    cases there : saved key with
    | none => exact ⟨.missing there, holds⟩
    | some payload => exact ⟨.found there, holds⟩
  | list =>
    change Answers saved _ ((Checkpoints.listed directory d).map .keys) ∧
      Holds directory saved ((files directory).list.run d).2
    obtain ⟨keys, answer, ascending, members⟩ := holds.listed
    rw [list_unchanged, answer]
    exact ⟨.list ascending members, holds⟩

theorem Holds.follows (holds : Holds directory saved d) {requests : List Request}
    (accepted : ∀ request ∈ requests, Accepted directory request) :
    Follows saved requests (answers (files directory) requests d) := by
  induction requests generalizing saved d with
  | nil => exact .nil
  | cons request requests ih =>
    obtain ⟨answered, after⟩ := holds.ask (accepted request List.mem_cons_self)
    exact .cons answered (ih after fun other inside =>
      accepted other (List.mem_cons_of_mem request inside))

/-- Files in a directory that starts out empty and rows of a namespace in a database that does are
the same map by key, whatever happens in other namespaces meanwhile. A key that is none is refused
and leaves all files as they are. -/
theorem stores_agree (vacant : Vacant directory d) (now : Instant) (own : String)
    (visits : List (String × Request))
    (accepted : ∀ request ∈ Database.asked own visits, Accepted directory request) :
    let fromFiles := answers (files directory) (Database.asked own visits) d
    Follows (fun _ => none) (Database.asked own visits) fromFiles ∧
    Database.answersIn own visits (.empty now) = fromFiles ∧
    (∀ key, (Fault.checkpoint key .notFound).message = "Checkpoint not found: " ++ key) ∧
    ∀ key payload, isKey key = false → ∀ d : Disk,
      ((files directory).save key payload).run d = (.error (.checkpoint key .invalidKey), d) ∧
      ((files directory).load key).run d = (.error (.checkpoint key .invalidKey), d) := by
  intro fromFiles
  have follows := vacant.holds.follows accepted
  refine ⟨follows, ?_, fun key => rfl, fun key payload invalid d => ?_⟩
  · exact ((Database.keeps_empty own now).follows visits).unique follows
  · exact ⟨saved_of_invalid invalid, loaded_of_invalid invalid⟩

def sampleVisits : List (String × Request) :=
  [("x", .save "a" "1"), ("y", .save "a" "2"), ("x", .save "a.json" "3"), ("y", .save "../a" "4"),
    ("x", .list), ("x", .load "a"), ("x", .load "b")]

/-- One key's file name is another key. -/
theorem stores_agree_sample :
    Database.answersIn "x" sampleVisits (.empty (.moment 0)) =
      answers (files sampleDirectory) (Database.asked "x" sampleVisits) .empty ∧
    answers (files sampleDirectory) (Database.asked "x" sampleVisits) .empty =
      [.ok .done, .ok .done, .ok (.keys ["a", "a.json"]), .ok (.payload "1"),
        .error (.checkpoint "b" .notFound)] := by
  have vacant : Vacant sampleDirectory .empty := by
    refine ⟨⟨Disk.wellFormed_of_entries (by decide) (by decide), ⟨by decide, by decide⟩, ?_⟩, ?_⟩
    · intro n below content
      rcases n with _ | _ | n
      · intro taken
        cases taken
      · intro taken
        cases taken
      · exact absurd below (by simp [sampleDirectory, Location.ofPath])
    · intro name
      exact Disk.entry?_child .empty sampleDirectory.path name
  have accepted : ∀ request ∈ Database.asked "x" sampleVisits,
      Accepted sampleDirectory request := by
    have requests : Database.asked "x" sampleVisits =
        [.save "a" "1", .save "a.json" "3", .list, .load "a", .load "b"] := by decide
    rw [requests]
    simp only [List.forall_mem_cons]
    refine ⟨⟨by decide, named_sample _ ?_, named_sample _ ?_⟩,
      ⟨by decide, named_sample _ ?_, named_sample _ ?_⟩, trivial, (by decide : isKey "a" = true),
      (by decide : isKey "b" = true), List.forall_mem_nil _⟩ <;> decide
  obtain ⟨follows, same, _⟩ := stores_agree vacant (.moment 0) "x" sampleVisits accepted
  refine ⟨same, follows.unique ?_⟩
  refine .cons (.save _ _) (.cons (.save _ _) (.cons (.list ?_ fun key => ?_)
    (.cons (.found ?_) (.cons (.missing ?_) .nil))))
  · decide
  · simp only [Saved.after, Function.update_apply, List.mem_cons, List.not_mem_nil, or_false]
    by_cases first : key = "a"
    · simp [first]
    · by_cases second : key = "a.json" <;> simp [first, second]
  · decide
  · decide

end ProgramGym.Checkpoints
