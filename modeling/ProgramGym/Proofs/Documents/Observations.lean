import ProgramGym.Environment.Printer
import ProgramGym.Observation.Documents
import ProgramGym.Proofs.Decimal.Writing
import ProgramGym.Proofs.Documents.Vectors
import ProgramGym.Proofs.Environment.Observations

/-! Observations among the documents. The features of a document are written one by one to places
that are computed, worded and read as indices again. For sizes below the bound of vectors and valid
actions every place is the one it should be: a block for each place of the window, and the rest
behind the blocks. Main statement: the observation that is made of the state that an environment
shows is the environment's own. -/
namespace ProgramGym

/-- The numeral of a count is its index. -/
theorem Json.Members.index?_ofNat {n : Nat} (small : n < 0xFFFFFFFF) :
    index? (Text.ofString (toString n)) = some n := by
  have narrow : ∀ c ∈ Nat.toDigits 10 n, c.toNat < 0x10000 := by
    intro c inside
    have digit := Nat.isDigit_of_mem_toDigits (by decide) (by decide) inside
    simp only [Char.isDigit, Bool.and_eq_true, decide_eq_true_eq] at digit
    have high : c.val.toNat ≤ 57 := digit.2
    exact Nat.lt_of_le_of_lt high (by decide)
  have chars : (Text.ofString (toString n)).unitChars = Nat.toDigits 10 n := by
    rw [Text.ofString, Numeral.toList_toString, Text.unitChars_ofChars narrow]
  have digits : (Nat.toDigits 10 n).all Char.isDigit = true :=
    List.all_eq_true.mpr fun _ => Nat.isDigit_of_mem_toDigits (by decide) (by decide)
  have some : (Nat.toDigits 10 n).isEmpty = false := by simp
  have lead : ((Nat.toDigits 10 n).head? == .some '0' &&
      (Nat.toDigits 10 n).length != 1) = false := by
    rcases Nat.eq_zero_or_pos n with rfl | pos
    · rfl
    · obtain ⟨d, rest, spelled⟩ :=
        List.exists_cons_of_ne_nil (Nat.toDigits_ne_nil (n := n) (b := 10))
      have other : d ≠ '0' := fun zero => Numeral.head_toDigits pos rest (zero ▸ spelled)
      simp [spelled, other]
  have spelled : (Nat.toDigits 10 n).foldl (fun n c => 10 * n + (c.toNat - '0'.toNat)) 0 = n :=
    Nat.ofDigitChars_ten_toDigits
  simp only [index?, chars, digits, some, lead, spelled, small, Bool.not_true, Bool.or_false,
    Bool.false_eq_true, if_false, if_true]

namespace Observation

/-- Sizes as a document. -/
def Shape.json (s : Shape) : Json :=
  .object
    [("vocabularySize", .nat s.vocabularySize), ("observationLength", .nat s.windowLength),
     ("maxSteps", .nat s.maxSteps)]

/-- A vector of every size that an encoding needs can be made. -/
structure Shape.Fits (s : Shape) : Prop where
  vocabularySize : s.vocabularySize < Linear.lengthLimit
  windowLength : s.windowLength < Linear.lengthLimit
  featureCount : s.featureCount < Linear.lengthLimit

theorem oneHot_none (size : Nat) : (oneHot size none : List Float) = List.replicate size 0 := by
  refine List.eq_replicate_iff.mpr ⟨length_oneHot size none, fun x inside => ?_⟩
  obtain ⟨_, _, rfl⟩ := List.mem_map.mp inside
  rfl

theorem oneHot_some (size k : Nat) :
    (oneHot size (some k) : List Float) = (List.replicate size 0).set k 1 := by
  refine List.ext_getElem (by simp [length_oneHot]) fun i lower upper => ?_
  simp only [oneHot, List.getElem_map, List.getElem_range, List.getElem_set,
    List.getElem_replicate]
  by_cases same : k = i
  · rw [if_pos same, same, beq_self_eq_true]
    rfl
  · rw [if_neg same, beq_eq_false_iff_ne.mpr fun marked => same (Option.some_inj.mp marked)]
    rfl

end Observation

namespace Observation.Documents
open Json

/-! Places. -/

/-- Numbers that were written. -/
def written (xs : List Float) : Entries := xs.map fun x => some (.number x)

@[simp] theorem length_written (xs : List Float) : (written xs).length = xs.length :=
  List.length_map ..

theorem written_append (xs ys : List Float) : written (xs ++ ys) = written xs ++ written ys :=
  List.map_append

theorem write_ofNat {entries : Entries} {n : Nat} (inside : n < entries.length)
    (few : entries.length < 2 ^ 32) (value : Json) :
    write entries (Number.text (Float.ofNat n)) value = entries.set n (some value) := by
  have numeral : Number.text (Float.ofNat n) = toString n :=
    Number.text_ofNat (by
      simp only [Quantity.exactBound]
      omega)
  rw [write, numeral, Members.index?_ofNat (by omega)]
  exact if_pos inside

/-- Values that are written over others, one after the other. -/
theorem writeFrom_values {values : List Json} {done old : Entries}
    (same : old.length = values.length) (few : done.length + old.length < 2 ^ 32) :
    writeFrom (done ++ old) (Float.ofNat done.length) values = done ++ values.map some := by
  induction values generalizing done old with
  | nil =>
    rw [List.length_nil, List.length_eq_zero_iff] at same
    rw [same]
    rfl
  | cons value values ih =>
    obtain ⟨first, old, rfl⟩ := List.exists_cons_of_length_eq_add_one same
    rw [List.length_cons, List.length_cons, Nat.add_right_cancel_iff] at same
    rw [List.length_cons] at few
    have first : write (done ++ first :: old) (Number.text (Float.ofNat done.length)) value =
        (done ++ [some value]) ++ old := by
      rw [write_ofNat (by simp) (by simp; omega)]
      simp
    have next : Float.ofNat done.length + 1 = Float.ofNat (done ++ [some value]).length := by
      rw [List.length_append, List.length_singleton]
      exact Number.ofNat_add (n := 1) (by omega)
    have others := @ih (done ++ [some value]) old same (by simp; omega)
    rw [writeFrom] at others ⊢
    rw [List.foldl_cons, first, next, others]
    simp

/-! The window. -/

/-- What stands in a document for a place of the window. -/
def shown (a : Option (Quantity Float)) : Json := (a.map Quantity.json).getD padding

theorem recent_actions {length : Nat} (few : length < Linear.lengthLimit)
    (actions : List (Quantity Float)) :
    recent (some (.array (actions.map Quantity.json))) (some (.nat length)) =
      .ok ((Observation.recent length actions).map shown) := by
  have steps : Linear.stepsBelow (numberOf (some (.nat length))) = length :=
    Linear.stepsBelow_of_toNat? (Binary64.toNat?_ofNat_le (few.le.trans (by decide)))
  have items : (Json.array (actions.map Quantity.json)).elements? =
      some (actions.map Quantity.json) := rfl
  refine bind_eq_ok.mpr ⟨length, Linear.lengthFor_ofNat few, ?_⟩
  simp only [steps, items, Observation.recent, Option.getD_some, ← List.map_reverse,
    ← List.map_take, List.length_map, List.map_append, List.map_map, List.map_replicate]
  rfl

/-- A one in the block of a place. -/
def mark (vocabulary : Float) (entries : Entries) (action : Json) (i : Nat) : Entries :=
  if same (some action) (some padding) then entries
  else
    let place := add (some (.number (Float.ofNat i * vocabulary))) (some action)
    write entries place.word (.number 1)

theorem writeWindow_eq (vocabulary : Float) (entries : Entries) (window : List Json) :
    writeWindow vocabulary entries window =
      window.zipIdx.foldl (fun entries p => mark vocabulary entries p.1 p.2) entries := rfl

/-- A valid action is written as a number that its index is added as, and that is not below
zero. -/
theorem json_of_index? {action : Quantity Float} {k : Nat} (index : action.index? = some k)
    (small : k ≤ 2 ^ 53) :
    ∃ x, action.json = .number x ∧ (x == -1) = false ∧
      ∀ n, n + k ≤ 2 ^ 53 → Float.ofNat n + x = Float.ofNat (n + k) := by
  cases action with
  | count =>
    cases index
    exact ⟨Float.ofNat k, rfl, Number.beq_neg_one (Number.nonNegative_ofNat small),
      fun n => Number.ofNat_add⟩
  | other x =>
    rw [Quantity.index?] at index
    split at index
    · next zero =>
      cases index
      have nonNegative : Binary64.NonNegative x.toModel.unpack := by
        obtain ⟨s, unpacked⟩ := Binary64.unpack_of_beq_zero zero
        rw [unpacked]
        trivial
      exact ⟨x, rfl, Number.beq_neg_one nonNegative,
        fun n few => Number.ofNat_add_zero few zero⟩
    · cases index
  | foreign value => cases index

/-- The block of a place becomes the block of the action that stands there. -/
theorem mark_shown {done : Entries} {size i : Nat} {a : Option (Quantity Float)} (rest : Entries)
    (placed : done.length = i * size) (few : done.length + size + rest.length < 2 ^ 32)
    (valid : ∀ action, a = some action → ∃ k, action.index? = some k ∧ k < size) :
    mark (Float.ofNat size) (done ++ written (List.replicate size 0) ++ rest) (shown a) i =
      done ++ written (oneHot size (a.bind Quantity.index?)) ++ rest := by
  cases a with
  | none =>
    have skipped : same (some padding) (some padding) = true := by decide +kernel
    rw [Option.bind_none, oneHot_none]
    exact if_pos skipped
  | some action =>
    obtain ⟨k, index, inside⟩ := valid action rfl
    obtain ⟨x, number, positive, sum⟩ := json_of_index? index (by omega)
    have other : same (some action.json) (some padding) = false := by
      rw [number]
      exact positive
    have before : i ≤ i * size := Nat.le_mul_of_pos_right i (Nat.zero_lt_of_lt inside)
    have block : Float.ofNat i * Float.ofNat size = Float.ofNat done.length := by
      rw [placed]
      exact Number.ofNat_mul (by omega) (by omega) (by omega)
    have place : (add (some (.number (Float.ofNat i * Float.ofNat size)))
        (some action.json)).word = Number.text (Float.ofNat (done.length + k)) := by
      rw [number, block, ← sum _ (by omega)]
      rfl
    have marked : shown (some action) = action.json := rfl
    simp only [mark, marked, other, place, Bool.false_eq_true, if_false]
    rw [write_ofNat (by simp [written]; omega) (by simp [written]; omega), Option.bind_some, index,
      oneHot_some]
    simp [written, inside]

/-- The blocks of a window are written one after the other. -/
theorem marks_shown (window : List (Option (Quantity Float))) {done : Entries}
    {size start : Nat} (rest : Entries) (placed : done.length = start * size)
    (few : done.length + window.length * size + rest.length < 2 ^ 32)
    (valid : ∀ action, some action ∈ window → ∃ k, action.index? = some k ∧ k < size) :
    ((window.map shown).zipIdx start).foldl
        (fun entries p => mark (Float.ofNat size) entries p.1 p.2)
        (done ++ written (List.replicate (window.length * size) 0) ++ rest) =
      done ++ written ((window.map (·.bind Quantity.index?)).flatMap (oneHot size)) ++ rest := by
  induction window generalizing done start with
  | nil => simp [written]
  | cons a window ih =>
    have longer : (window.length + 1) * size = size + window.length * size := by
      rw [Nat.succ_mul, Nat.add_comm]
    rw [List.length_cons, longer] at few
    have first := mark_shown (written (List.replicate (window.length * size) 0) ++ rest) placed
      (by simp; omega) fun action stands => valid action (stands ▸ List.mem_cons_self)
    have others := @ih (done ++ written (oneHot size (a.bind Quantity.index?))) (start + 1)
      (by simp [length_oneHot, placed, Nat.succ_mul]) (by simp [length_oneHot]; omega)
      fun action stands => valid action (.tail _ stands)
    rw [List.map_cons, List.zipIdx_cons, List.foldl_cons, List.length_cons, longer,
      ← List.replicate_append_replicate, written_append, List.map_cons, List.flatMap_cons,
      written_append]
    simp only [List.append_assoc] at first others ⊢
    rw [first, others]

/-! The whole. -/

variable {s : Shape} {e : Episode Float}

theorem featureCount_json (fits : s.Fits) :
    featureCount (some s.json) = .ok (Float.ofNat s.featureCount) := by
  obtain ⟨tokens, window, features⟩ := fits
  rw [Shape.featureCount, Linear.lengthLimit] at features
  rw [Linear.lengthLimit] at tokens window
  have blocks : Float.ofNat s.windowLength * Float.ofNat s.vocabularySize =
      Float.ofNat (s.windowLength * s.vocabularySize) :=
    Number.ofNat_mul (by omega) (by omega) (by omega)
  have sum : Float.ofNat s.windowLength * Float.ofNat s.vocabularySize + Float.ofNat 1 +
      Float.ofNat 2 + Float.ofNat 1 = Float.ofNat s.featureCount := by
    rw [blocks, Number.ofNat_add (by omega), Number.ofNat_add (by omega),
      Number.ofNat_add (by omega)]
    rfl
  exact congrArg Except.ok sum

/-- What is written over as many zeros as there are features are the features. -/
theorem features_written (fits : s.Fits)
    (valid : ∀ action ∈ e.actions, ∃ k, action.index? = some k ∧ k < s.vocabularySize) :
    let o := Observation.encode s e
    writeFrom
        (writeWindow (Float.ofNat s.vocabularySize)
          (List.replicate s.featureCount (some (.number 0))) (o.window.map shown))
        (Float.ofNat s.windowLength * Float.ofNat s.vocabularySize)
        [.number o.progress, .number o.emitted, .number o.similarity, .number 1] =
      written o.features := by
  intro o
  obtain ⟨tokens, window, features⟩ := fits
  rw [Shape.featureCount, Linear.lengthLimit] at features
  rw [Linear.lengthLimit] at tokens window
  have length : o.window.length = s.windowLength := length_recent ..
  have zeros : (List.replicate s.featureCount (some (.number 0)) : Entries) =
      [] ++ written (List.replicate (o.window.length * s.vocabularySize) 0) ++
        written (List.replicate 4 0) := by
    rw [List.nil_append, ← written_append, List.replicate_append_replicate, length, written,
      List.map_replicate, Shape.featureCount]
  have blocks := @marks_shown o.window [] s.vocabularySize 0 (written (List.replicate 4 0))
    (by simp) (by simp [length]; omega)
    fun action stands => valid action (mem_of_recent _ _ stands)
  have offset : Float.ofNat s.windowLength * Float.ofNat s.vocabularySize =
      Float.ofNat (s.windowLength * s.vocabularySize) :=
    Number.ofNat_mul (by omega) (by omega) (by omega)
  have placed : (written (o.indices.flatMap (oneHot s.vocabularySize))).length =
      s.windowLength * s.vocabularySize := (length_written _).trans (length_blocks s e)
  rw [zeros, writeWindow_eq, blocks, offset, List.nil_append, ← indices, ← placed,
    writeFrom_values rfl (by simp [placed]; omega), features_eq, written_append]
  rfl

/-- An observation as a document, whatever its entries are made of. -/
def document (o : Observation Float) (features : Entries) : Json :=
  Json.joined o.members [("features", .array (features.map (·.getD .null)))]

theorem document_written (o : Observation Float) : document o (written o.features) = o.json := by
  have entries : (written o.features).map (·.getD .null) = o.features.map .number := by
    rw [written, List.map_map]
    rfl
  rw [document, entries, Observation.json]

/-- The observation that is made of what an environment shows is the one that it makes itself. -/
theorem encode_stateJson {env : Environment Float} (fits : env.rules.shape.Fits)
    (valid : ∀ action ∈ env.episode.actions, env.rules.Valid action) :
    encode (some env.stateJson) (some env.rules.shape.json) = .ok env.observe.json := by
  have window := recent_actions fits.windowLength env.episode.actions
  have size := Linear.lengthFor_ofNat fits.featureCount
  have emitted : ((Json.array (env.episode.tokens.map .text)).elements?.map fun xs =>
      Float.ofNat xs.length).getD Number.absent = Float.ofNat env.episode.tokens.length := by
    simp [elements?]
  -- The window and the counts of the episode come first, then the sizes.
  refine bind_eq_ok.mpr ⟨_, rfl, bind_eq_ok.mpr ⟨_, rfl, bind_eq_ok.mpr ⟨_, window, ?_⟩⟩⟩
  refine bind_eq_ok.mpr ⟨_, rfl, bind_eq_ok.mpr ⟨_, rfl, bind_eq_ok.mpr ⟨_, rfl, ?_⟩⟩⟩
  refine bind_eq_ok.mpr ⟨_, rfl, bind_eq_ok.mpr ⟨_, rfl, ?_⟩⟩
  refine bind_eq_ok.mpr ⟨_, featureCount_json fits, ?_⟩
  refine bind_eq_ok.mpr ⟨_, size, bind_eq_ok.mpr ⟨_, rfl, bind_eq_ok.mpr ⟨_, rfl, ?_⟩⟩⟩
  simp only [emitted]
  exact (congrArg (fun entries => Except.ok (document env.observe entries))
    (features_written fits valid)).trans (congrArg Except.ok (document_written env.observe))

/-- So it is in every state of a run while the interpreter does not fault. -/
theorem encode_after {task : Task} {vocabulary : Vocabulary} {interpreter : Interpreter Float}
    {reward : Reward Float} {request : SettingsRequest} {env : Environment Float}
    (created : Environment.create task vocabulary interpreter reward request = .ok env)
    (total : interpreter.NeverFaults) (fits : env.rules.shape.Fits)
    (commands : List (Command Float)) :
    let now := env.after commands
    encode (some now.stateJson) (some now.rules.shape.json) = .ok now.observe.json := by
  obtain ⟨settings, resolved, made⟩ := Environment.create_eq_ok created
  obtain ⟨budget, _⟩ := Settings.sizes_pos resolved
  have start : env.Consistent := made ▸ Environment.consistent_restart (.ofRules _) budget
  have answers : env.rules.interpreter.NeverFaults := made ▸ total
  have positive : 0 < env.rules.settings.maxSteps := made ▸ budget
  exact encode_stateJson (Environment.after_rules env commands ▸ fits) fun _ taken =>
    (Environment.consistent_after answers positive start commands).valid taken

end Observation.Documents
end ProgramGym
