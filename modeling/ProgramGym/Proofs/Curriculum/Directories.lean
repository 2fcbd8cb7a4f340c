import Mathlib
import ProgramGym.Curriculum
import ProgramGym.Proofs.Decimal.Reading
import ProgramGym.Proofs.Storage.Paths

/-! Where the stages of a curriculum log. The number of a stage ends at the first underscore behind
it, so that a name cannot pass for a part of the number, and a name has no slashes and no dots left
once it is made plain. A stage is numbered by its place in a list and its number is written in full,
digit by digit. Numbers are written so below 10^21 and with an exponent from there on; no list has
as many places. Main statement: stages of different numbers have different directories, and each is
one plain name below the directory of the curriculum. -/
namespace ProgramGym.Curriculum

theorem isPlain_iff (c : Char) : isPlain c = true ↔
    ('A' ≤ c ∧ c ≤ 'Z') ∨ ('a' ≤ c ∧ c ≤ 'z') ∨ ('0' ≤ c ∧ c ≤ '9') ∨ c = '_' ∨ c = '-' := by
  simp only [isPlain, Char.isAlphanum, Char.isAlpha, Char.isUpper, Char.isLower, Char.isDigit,
    Bool.or_eq_true, Bool.and_eq_true, decide_eq_true_eq, beq_iff_eq, Char.le_def, or_assoc]

theorem isPlain_plainName (name : Text) : ∀ c ∈ (plainName name).toList, isPlain c = true := by
  intro c inside
  rw [plainName, String.toList_ofList, List.mem_map] at inside
  obtain ⟨d, _, rfl⟩ := inside
  split
  · assumption
  · rfl

theorem toList_directoryName (stage : String) (name : Text) :
    (directoryName stage name).toList =
      "stage_".toList ++ (stage.toList ++ '_' :: (plainName name).toList) := by
  simp [directoryName, String.append_assoc]

section
variable {stage other : String}

theorem isPlain_directoryName (plain : ∀ c ∈ stage.toList, isPlain c = true) (name : Text) :
    ∀ c ∈ (directoryName stage name).toList, isPlain c = true := by
  have front : ∀ c ∈ "stage_".toList, isPlain c = true := List.all_eq_true.mp rfl
  have back : ∀ c ∈ '_' :: (plainName name).toList, isPlain c = true :=
    List.forall_mem_cons.mpr ⟨rfl, isPlain_plainName name⟩
  rw [toList_directoryName]
  exact List.forall_mem_append.mpr ⟨front, List.forall_mem_append.mpr ⟨plain, back⟩⟩

/-- Neither a slash nor a dot is plain. -/
theorem isName_directoryName (plain : ∀ c ∈ stage.toList, isPlain c = true) (name : Text) :
    Path.IsName (directoryName stage name) := by
  have plain := isPlain_directoryName plain name
  have never (c : Char) (other : isPlain c = false) : c ∉ (directoryName stage name).toList :=
    fun inside => by simp [plain c inside] at other
  refine ⟨⟨fun same => ?_, fun same => never '.' rfl ?_, never '/' rfl⟩,
    fun same => never '.' rfl ?_⟩
  · have := congrArg String.toList same
    simp [toList_directoryName] at this
  · rw [same]
    decide
  · rw [same]
    decide

/-- The stage is read back from the name of its directory. -/
theorem directoryName_stage (bare : '_' ∉ stage.toList) (bare' : '_' ∉ other.toList)
    {name name' : Text} (same : directoryName stage name = directoryName other name') :
    stage = other := by
  have upTo (s : String) (absent : '_' ∉ s.toList) (rest : List Char) :
      (s.toList ++ '_' :: rest).takeWhile (· != '_') = s.toList := by
    rw [List.takeWhile_append_of_pos fun c inside => ?_]
    · simp
    · exact bne_iff_ne.mpr fun here => absent (here ▸ inside)
  have chars := congrArg String.toList same
  rw [toList_directoryName, toList_directoryName, List.append_cancel_left_eq] at chars
  have numbers := congrArg (List.takeWhile (· != '_')) chars
  rw [upTo stage bare, upTo other bare'] at numbers
  exact String.toList_injective numbers

end

section
variable (directory : String) (n : Nat)

theorem digit_toString {c : Char} (inside : c ∈ (toString n).toList) : '0' ≤ c ∧ c ≤ '9' := by
  rw [Numeral.toList_toString] at inside
  simpa [Numeral.isDigit] using Numeral.isDigit_of_mem_toDigits inside

theorem isPlain_toString : ∀ c ∈ (toString n).toList, isPlain c = true := fun c inside =>
  (isPlain_iff c).mpr (.inr (.inr (.inl (digit_toString n inside))))

theorem underscore_not_mem_toString : '_' ∉ (toString n).toList := fun inside =>
  absurd (digit_toString n inside).2 (by decide)

end

/-- Stages of a curriculum that logs to any directory. The directory of a stage is the normalized
one with one name behind it, and below any working directory it is that entry of the place that the
directory leads to. The name has only letters, digits, underscores and hyphens, whatever the stage
is called. Stages of different numbers have different directories, and so have all stages of a
curriculum, which are numbered from one on. A number is taken by all its digits, as it is written
where counts are exact (`Number.text_ofNat`); the places of a list are far below that bound. -/
theorem stage_directories (directory : String) :
    (∀ (n : Nat) (name : Text),
      let last := directoryName s!"{n}" name
      let whole := stageDirectory directory s!"{n}" name
      whole = Path.root (Path.isAbsolute (Path.normalize directory)) ++
        "/".intercalate (Path.parts (Path.normalize directory) ++ [last]) ∧
      (∀ working, Path.components working whole =
        Path.components working (Path.normalize directory) ++ [last]) ∧
      ∀ c ∈ last.toList,
        ('A' ≤ c ∧ c ≤ 'Z') ∨ ('a' ≤ c ∧ c ≤ 'z') ∨ ('0' ≤ c ∧ c ≤ '9') ∨ c = '_' ∨ c = '-') ∧
    (∀ (n m : Nat) (name other : Text), n ≠ m →
      stageDirectory directory s!"{n}" name ≠ stageDirectory directory s!"{m}" other ∧
      ∀ working, Path.components working (stageDirectory directory s!"{n}" name) ≠
        Path.components working (stageDirectory directory s!"{m}" other)) ∧
    ∀ names : List Text,
      ((names.zipIdx 1).map fun (name, n) => stageDirectory directory s!"{n}" name).Nodup := by
  have isName (n : Nat) (name : Text) : Path.IsName (directoryName s!"{n}" name) :=
    isName_directoryName (isPlain_toString n) name
  have place (n : Nat) (name : Text) (working : List String) :
      Path.components working (stageDirectory directory s!"{n}" name) =
        Path.components working (Path.normalize directory) ++ [directoryName s!"{n}" name] :=
    Path.components_join (isName n name) working
  have apart {n m : Nat} (name other : Text) (differ : n ≠ m) (working : List String) :
      Path.components working (stageDirectory directory s!"{n}" name) ≠
        Path.components working (stageDirectory directory s!"{m}" other) := by
    intro same
    rw [place, place, List.append_cancel_left_eq, List.singleton_inj] at same
    exact differ (Nat.repr_injective (directoryName_stage (underscore_not_mem_toString n)
      (underscore_not_mem_toString m) same))
  have differs {n m : Nat} (name other : Text) (differ : n ≠ m) :
      stageDirectory directory s!"{n}" name ≠ stageDirectory directory s!"{m}" other :=
    fun same => apart name other differ [] (by rw [same])
  refine ⟨fun n name => ⟨Path.join_name (isName n name), place n name, fun c inside => ?_⟩,
    fun n m name other differ => ⟨differs name other differ, apart name other differ⟩,
    fun names => ?_⟩
  · exact (isPlain_iff c).mp (isPlain_directoryName (isPlain_toString n) name c inside)
  · have numbers : ((names.zipIdx 1).map Prod.snd).Nodup := by
      rw [List.zipIdx_map_snd]
      exact List.nodup_range'
    rw [List.Nodup, List.pairwise_map] at numbers ⊢
    exact numbers.imp fun differ => differs _ _ differ

/-- A name that goes on with the number of its stage, and one that climbs out of the directory. -/
theorem stage_directories_climbing :
    1 ≠ 12 ∧ stageDirectory "logs/.." "1" "2_x" ≠ stageDirectory "logs/.." "12" "x" ∧
    ∀ working, Path.components working (stageDirectory "logs/.." "1" "../x") =
      Path.components working (Path.normalize "logs/..") ++ ["stage_1____x"] := by
  obtain ⟨below, apart, _⟩ := stage_directories "logs/.."
  have differ : 1 ≠ 12 := by decide
  exact ⟨differ, (apart 1 12 "2_x" "x" differ).1, (below 1 "../x").2.1⟩

end ProgramGym.Curriculum
