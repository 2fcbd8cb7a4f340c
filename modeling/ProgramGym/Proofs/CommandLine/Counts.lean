import Mathlib
import ProgramGym.Proofs.CommandLine.Choices

/-! Counts on the command line. Main statement: wherever options are read, the count of a flag is
the integer that the last value given to it denotes, rounded to a number, and not below the least
one admitted; only a blank value denotes nothing and stands for zero. -/
namespace ProgramGym.CommandLine
open Binary64 (RoundsTo ofFloat)

/-- What a value says of the count that is read from it. -/
structure Denoted (least : Nat) (s : String) (q : Quantity Float) : Prop where
  whole : ∃ z : ℤ, Number.Exactly q.toScalar z ∧ (least : ℤ) ≤ z
  blank : (∀ c ∈ s.toList, Text.isBlank c = true) → least = 0 ∧ q = .count 0
  spelled : (∃ c ∈ s.toList, Text.isBlank c = false) →
    (∃ c ∈ s.toList, Numeral.isDigit c = true) ∧
      ∃ negative v, Numeral.Denotes (Text.trimChars s.toList) negative v ∧
        RoundsTo negative v (ofFloat q.toScalar)

section
variable {least : Nat} {s : String} {q : Quantity Float}

theorem denoted_blank (whole : ∃ z : ℤ, Number.Exactly q.toScalar z ∧ (least : ℤ) ≤ z)
    (blank : ∀ c ∈ s.toList, Text.isBlank c = true) (zero : least = 0 ∧ q = .count 0) :
    Denoted least s q where
  whole := whole
  blank _ := zero
  spelled := fun ⟨c, inside, seen⟩ => by cases seen.symm.trans (blank c inside)

theorem denoted_spelled (whole : ∃ z : ℤ, Number.Exactly q.toScalar z ∧ (least : ℤ) ≤ z)
    {negative : Bool} {v : ℚ} (denotes : Numeral.Denotes (Text.trimChars s.toList) negative v)
    (rounds : RoundsTo negative v (ofFloat q.toScalar)) : Denoted least s q := by
  obtain ⟨c, inside, digit⟩ := denotes.exists_digit
  have inside := Text.mem_of_mem_trimChars inside
  refine ⟨whole, fun blank => ?_, fun _ => ⟨⟨c, inside, digit⟩, negative, v, denotes, rounds⟩⟩
  cases (Numeral.not_blank_of_isDigit digit).symm.trans (blank c inside)

end

namespace Options
variable {f : Flag} {least : Nat} {q : Quantity Float} {s : String}

/-- What is admitted is an integer that is not below the least one. -/
theorem exactly_of_admits (small : least ≤ Quantity.exactBound) (canonical : q.Canonical)
    (admitted : admits least q = true) :
    ∃ z : ℤ, Number.Exactly q.toScalar z ∧ (least : ℤ) ≤ z := by
  cases q with
  | count n =>
    refine ⟨n, Quantity.exactly_of_toNat? (Quantity.toNat?_of_canonical canonical), ?_⟩
    simpa [admits] using admitted
  | other x =>
    simp only [admits, Bool.and_eq_true, Bool.not_eq_true', decide_eq_false_iff_not] at admitted
    obtain ⟨whole, above⟩ := admitted
    obtain ⟨z, exact⟩ := Number.isWhole_iff.mp whole
    refine ⟨z, exact, ?_⟩
    by_contra below
    exact above (Quantity.lt_ofNat small exact (not_le.mp below))
  | foreign => cases admitted

/-- An infinity is not an integer. -/
theorem not_exactly_infinite {negative : Bool} {v : ℚ} :
    ¬ Number.Exactly (Quantity.ofNumeral (.infinite negative)).toScalar v := by
  rintro ⟨sign, m, e, pattern, _⟩
  have infinite : ofFloat (Quantity.ofNumeral (.infinite negative)).toScalar =
      .infinite negative := by
    refine (Quantity.ofFloat_ofScalar _).trans ?_
    cases negative <;> decide +kernel
  cases infinite.symm.trans pattern

/-- A value that is read denotes the integer that is returned, or it is blank and stands for
zero. -/
theorem integer_denoted (small : least ≤ Quantity.exactBound) (read : integer f least s = .ok q) :
    Denoted least s q := by
  unfold integer at read
  split at read
  · next found =>
    split at read
    · next admitted =>
      cases read
      obtain ⟨n, spelled, rfl⟩ := Option.map_eq_some_iff.mp found
      have whole := exactly_of_admits small (Quantity.canonical_ofNumeral n) admitted
      rcases Numeral.option?_sound spelled with
        ⟨empty, rfl⟩ | ⟨negative, rfl⟩ | ⟨negative, d, rfl, denotes⟩
      · have zero : Quantity.ofNumeral (Numeral.ofNat 0) = .count 0 :=
          Quantity.ofNumeral_ofNat (by decide)
        rw [zero] at admitted
        exact denoted_blank whole (Text.trimChars_eq_nil_iff.mp empty)
          ⟨by simpa [admits] using admitted, zero⟩
      · obtain ⟨z, exact, _⟩ := whole
        exact absurd exact not_exactly_infinite
      · exact denoted_spelled whole denotes (Quantity.roundsTo_ofNumeral d negative)
    · cases read
  · cases read

/-- Where options are read, every count that is given is an integer that its least value admits. It
is the one that the last value of its flag denotes unless that value is blank, which stands for
zero. -/
theorem parse_counts {texts : List String} {vars : Variables} {o : Options}
    (parsed : parse texts vars = .ok o) :
    ∃ arguments, Spells arguments texts ∧
      ∀ (n : Counter) (before after : List Argument) (s : String),
        arguments = before ++ .flag n.flag s :: after → (∀ t, .flag n.flag t ∉ after) →
          Denoted n.least s (o.count n) := by
  obtain ⟨arguments, spells, follow⟩ := parse_eq_ok_iff.mp parsed
  refine ⟨arguments, spells, fun n before after s split last => ?_⟩
  have value : valueOf? n.flag arguments = some s :=
    valueOf?_eq_some.mpr ⟨before, after, split, last⟩
  have read := follow.count n
  rw [readCount, value] at read
  exact integer_denoted (by cases n <;> decide) read

/-- Fifty episodes among other options. -/
theorem parse_counts_comparing :
    parse ["--quiet", "--seed", "7", "compare", "--episodes", "50", "--dsl", "compare"] [] =
      .ok (Choice.comparing.options []) ∧
    ∃ arguments, Spells arguments
        ["--quiet", "--seed", "7", "compare", "--episodes", "50", "--dsl", "compare"] ∧
      ∀ (n : Counter) (before after : List Argument) (s : String),
        arguments = before ++ .flag n.flag s :: after → (∀ t, .flag n.flag t ∉ after) →
          Denoted n.least s ((Choice.comparing.options []).count n) := by
  have parsed : parse _ [] = .ok (Choice.comparing.options []) := parse_eq_ok_iff.mpr
    ⟨_, Choice.spells_comparing, Choice.follow Choice.comparing_arguments (.inl rfl)⟩
  exact ⟨parsed, parse_counts parsed⟩

/-- An empty value is read as zero, though it has no digit. -/
theorem parse_empty_count : ∃ o, parse ["--episodes", ""] [] = .ok o ∧
    o.count .episodes = .count 0 ∧ ¬ ∃ c ∈ "".toList, Numeral.isDigit c = true := by
  refine ⟨⟨.train, "calc", "001", [], .qlearning, .count 0, .count 100, .count 10, .count 500,
    .count 20, "correctness", none, defaultDirectory, none, false, false⟩,
    parse_eq_ok_iff.mpr ⟨[.flag .episodes ""], .flag .episodes (by decide) .nil, ?_⟩, rfl, by simp⟩
  exact
    { command := Command.train.commandOf_name
      agent := Alias.qlearning.agentOf_name
      count := fun n => by cases n <;> rfl
      seed := rfl
      language := rfl
      task := rfl
      tasks := names_empty
      reward := rfl
      directory := rfl
      continueFrom := rfl
      quiet := rfl
      help := rfl }

end Options
end ProgramGym.CommandLine
