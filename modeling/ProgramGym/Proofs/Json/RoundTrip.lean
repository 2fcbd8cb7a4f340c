import Mathlib
import ProgramGym.Proofs.Decimal.Reading
import ProgramGym.Proofs.Json.Strings

/-! Values written on one line and read again. The reader finds every value at its first
character, and its fuel covers two for each character. Main statement: a written value is read as
itself, with each number as its text reads, null for a number that is not finite, and the members
of an object in the order of objects. -/
namespace ProgramGym

/-- The number that the text of a number is read as. -/
def Number.reread (x : Float) : Float :=
  match Numeral.json? (Number.chars x) with
  | some (n, _) => n.toFloat
  | none => Number.absent

theorem Number.reread_eq {x : Float} {n : Numeral} {rest : List Char}
    (read : Numeral.json? (Number.chars x) = some (n, rest)) : Number.reread x = n.toFloat := by
  simp [reread, read]

namespace Json

namespace Members
variable {β : Type}

/-- Members as an object keeps them: the names all different and none of them an index. -/
structure Ordered (members : Members β) : Prop where
  distinct : members.names.Nodup
  plain : ∀ name ∈ members.names, index? name = none

theorem Ordered.of_names {γ : Type} {members : Members β} {others : Members γ}
    (ordered : members.Ordered) (same : others.names = members.names) : others.Ordered :=
  ⟨same ▸ ordered.distinct, same ▸ ordered.plain⟩

theorem put_new {name : Text} {members : Members β} (fresh : name ∉ members.names) (value : β) :
    put name value members = members ++ [(name, value)] := by
  induction members with
  | nil => rfl
  | cons m rest ih =>
    obtain ⟨other, absent⟩ := not_or.mp (mt List.mem_cons.mpr fresh)
    rw [put, if_neg (by simpa using Ne.symm other), ih absent]
    rfl

theorem foldl_put {first rest : Members β} (distinct : (first ++ rest).names.Nodup) :
    rest.foldl (fun members (name, value) => put name value members) first = first ++ rest := by
  induction rest generalizing first with
  | nil => simp
  | cons m rest ih =>
    obtain ⟨name, value⟩ := m
    have fresh : name ∉ first.names := fun inside => by
      rw [names, List.map_append] at distinct
      exact (List.nodup_append.mp distinct).2.2 _ inside _ (by simp) rfl
    have appended := @ih (first ++ [(name, value)]) (by simpa using distinct)
    simpa [put_new fresh] using appended

theorem sortIndices_plain {members : Members β}
    (plain : ∀ name ∈ members.names, index? name = none) : sortIndices members = members := by
  have each : ∀ m ∈ members, index? m.1 = none := fun m inside =>
    plain m.1 (List.mem_map_of_mem inside)
  have indices : members.filter (fun m => (index? m.1).isSome) = [] :=
    List.filter_eq_nil_iff.mpr fun m inside => by simp [each m inside]
  have others : members.filter (fun m => (index? m.1).isNone) = members :=
    List.filter_eq_self.mpr fun m inside => by simp [each m inside]
  simp [sortIndices, indices, others]

theorem Ordered.ofEntries {members : Members β} (ordered : members.Ordered) :
    Members.ofEntries members = members := by
  rw [Members.ofEntries, foldl_put (by simpa using ordered.distinct), List.nil_append,
    sortIndices_plain ordered.plain]

end Members
/-- A value whose parts are read again already. -/
def rereadValue : Json → Json
  | .number x => if x.isFinite then .number (Number.reread x) else .null
  | .object members => ofEntries members
  | j => j

/-- What the text of a value is read as. -/
def reread (j : Json) : Json := j.mapValues rereadValue

namespace Reader

theorem skipSpace_cons {c : Char} (solid : isSpace c = false) (rest : List Char) :
    skipSpace (c :: rest) = c :: rest := by
  simp [skipSpace, solid]

/-- The first character of a value. -/
def Opens (c : Char) : Prop := isSpace c = false ∧ c ≠ ']' ∧ c ≠ '}'

theorem opens_digit {c : Char} (digit : Numeral.isDigit c = true) : Opens c := by
  have other {d : Char} (plain : Numeral.isDigit d = false) : c ≠ d := Numeral.digit_ne digit plain
  refine ⟨?_, other (by decide), other (by decide)⟩
  simp [isSpace, other (d := ' ') (by decide), other (d := '\t') (by decide),
    other (d := '\n') (by decide), other (d := '\r') (by decide)]

/-- A numeral starts with a sign or a digit. -/
theorem json?_head {cs rest : List Char} {n : Numeral} (read : Numeral.json? cs = some (n, rest)) :
    ∃ c tail, cs = c :: tail ∧ (c = '-' ∨ Numeral.isDigit c = true) := by
  cases cs with
  | nil => simp [Numeral.json?, Numeral.spanDigits] at read
  | cons c tail =>
    refine ⟨c, tail, rfl, ?_⟩
    by_contra other
    obtain ⟨sign, digit⟩ := not_or.mp other
    have none : Numeral.spanDigits (c :: tail) = ([], c :: tail) :=
      @Numeral.spanDigits_append [] _ (by simp)
        (Numeral.endsDigits_cons (Bool.eq_false_iff.mpr digit))
    simp [Numeral.json?, sign, none] at read

theorem value?_numeral {cs rest : List Char} {n : Numeral} (fuel : Nat)
    (read : Numeral.json? cs = some (n, rest)) :
    value? (fuel + 1) cs = some (.number n.toFloat, rest) := by
  obtain ⟨c, tail, rfl, front⟩ := json?_head read
  have other {d : Char} (sign : d ≠ '-') (plain : Numeral.isDigit d = false) : c ≠ d := by
    rcases front with rfl | digit
    · exact sign.symm
    · exact Numeral.digit_ne digit plain
  have solid : isSpace c = false := by
    rcases front with rfl | digit
    · decide
    · exact (opens_digit digit).1
  rw [value?, skipSpace_cons solid]
  simp [other (d := '"') (by decide) (by decide), other (d := '[') (by decide) (by decide),
    other (d := '\x7b') (by decide) (by decide), other (d := 'n') (by decide) (by decide),
    other (d := 't') (by decide) (by decide), other (d := 'f') (by decide) (by decide), read]

/-- The text of a number, whatever follows it. -/
theorem value?_numberChars (x : Float) (fuel : Nat) {rest : List Char} (ends : Numeral.Ends rest) :
    value? (fuel + 1) (numberChars x ++ rest) = some (rereadValue (.number x), rest) := by
  cases finite : x.isFinite with
  | true =>
    obtain ⟨n, reads⟩ := Number.reads_chars finite
    have alone := reads [] (by simp [Numeral.Ends])
    rw [List.append_nil] at alone
    simp only [numberChars, rereadValue, finite, if_true, Number.reread_eq alone]
    exact value?_numeral fuel (reads rest ends)
  | false =>
    simp only [numberChars, rereadValue, finite]
    rfl

theorem chars_opens (j : Json) : ∃ c cs, chars j = c :: cs ∧ Opens c := by
  have opens {c : Char} (opening : (!isSpace c && c != ']' && c != '\x7d') = true) : Opens c := by
    simpa [Opens, and_assoc] using opening
  cases j with
  | null => exact ⟨'n', _, rfl, opens (by decide)⟩
  | bool b =>
    cases b
    · exact ⟨'f', _, rfl, opens (by decide)⟩
    · exact ⟨'t', _, rfl, opens (by decide)⟩
  | number x =>
    rw [chars, numberChars]
    split
    · next finite =>
      obtain ⟨n, reads⟩ := Number.reads_chars finite
      obtain ⟨c, cs, spelled, front⟩ := json?_head (reads [] (by simp [Numeral.Ends]))
      rw [List.append_nil] at spelled
      refine ⟨c, cs, spelled, ?_⟩
      rcases front with rfl | digit
      · exact opens (by decide)
      · exact opens_digit digit
    · exact ⟨'n', _, rfl, opens (by decide)⟩
  | text t => exact ⟨'"', _, rfl, opens (by decide)⟩
  | array items => cases items <;> exact ⟨'[', _, rfl, opens (by decide)⟩
  | object members =>
    rcases members with _ | ⟨⟨n, v⟩, ms⟩ <;> exact ⟨'\x7b', _, rfl, opens (by decide)⟩

theorem ends_itemChars (xs : List Json) (rest : List Char) : Numeral.Ends (itemChars xs ++ rest) := by
  cases xs <;> (rintro _ ⟨⟩; decide)

theorem ends_memberChars (ms : List (Text × Json)) (rest : List Char) :
    Numeral.Ends (memberChars ms ++ rest) := by
  rcases ms with _ | ⟨⟨n, v⟩, ms⟩ <;> (rintro _ ⟨⟩; decide)

theorem value?_text (t : Text) (fuel : Nat) (rest : List Char) :
    value? (fuel + 1) (quoteChars t ++ rest) = some (.text t, rest) := by
  have read := string?_quoteChars t rest
  rw [quoteChars, List.cons_append] at read ⊢
  rw [value?, skipSpace_cons (by decide)]
  simp only [read]
  rfl

/-- A list with items is read item by item. -/
theorem value?_items {c : Char} {cs rest : List Char} {items : List Json} (opens : Opens c)
    (fuel : Nat) (read : items? fuel (c :: cs) = some (items, rest)) :
    value? (fuel + 1) ('[' :: c :: cs) = some (.array items, rest) := by
  rw [value?, skipSpace_cons (by decide)]
  simp [skipSpace_cons opens.1, opens.2.1, read]

theorem value?_entries {c : Char} {cs rest : List Char} {entries : List (Text × Json)}
    (opens : Opens c) (fuel : Nat) (read : entries? fuel (c :: cs) = some (entries, rest)) :
    value? (fuel + 1) ('\x7b' :: c :: cs) = some (ofEntries entries, rest) := by
  rw [value?, skipSpace_cons (by decide)]
  simp [skipSpace_cons opens.1, opens.2.2, read]

theorem items?_last {x : Json} {cs rest : List Char} (fuel : Nat)
    (first : value? fuel cs = some (x, ']' :: rest)) :
    items? (fuel + 1) cs = some ([x], rest) := by
  simp [items?, first, skipSpace_cons (c := ']') (by decide)]

theorem items?_more {x : Json} {items : List Json} {cs more rest : List Char} (fuel : Nat)
    (first : value? fuel cs = some (x, ',' :: more))
    (others : items? fuel more = some (items, rest)) :
    items? (fuel + 1) cs = some (x :: items, rest) := by
  simp [items?, first, skipSpace_cons (c := ',') (by decide), others]

section
variable {name : Text} {value : Json} {entries : List (Text × Json)} {cs more rest : List Char}

theorem entries?_last (fuel : Nat) (first : value? fuel cs = some (value, '\x7d' :: rest)) :
    entries? (fuel + 1) (quoteChars name ++ ':' :: cs) = some ([(name, value)], rest) := by
  have solid : skipSpace (quoteChars name ++ ':' :: cs) = quoteChars name ++ ':' :: cs :=
    skipSpace_cons (by decide) _
  simp [entries?, solid, string?_quoteChars, skipSpace_cons (c := ':') (by decide), first,
    skipSpace_cons (c := '\x7d') (by decide)]

theorem entries?_more (fuel : Nat) (first : value? fuel cs = some (value, ',' :: more))
    (others : entries? fuel more = some (entries, rest)) :
    entries? (fuel + 1) (quoteChars name ++ ':' :: cs) = some ((name, value) :: entries, rest) := by
  have solid : skipSpace (quoteChars name ++ ':' :: cs) = quoteChars name ++ ':' :: cs :=
    skipSpace_cons (by decide) _
  simp [entries?, solid, string?_quoteChars, skipSpace_cons (c := ':') (by decide), first,
    skipSpace_cons (c := ',') (by decide), others]

end

mutual

theorem value?_chars : ∀ (j : Json) (fuel : Nat) (rest : List Char),
    2 * (chars j).length ≤ fuel → Numeral.Ends rest →
      value? fuel (chars j ++ rest) = some (j.reread, rest)
  | .null, fuel + 1, rest, _, _ => rfl
  | .bool true, fuel + 1, rest, _, _ => rfl
  | .bool false, fuel + 1, rest, _, _ => rfl
  | .number x, fuel + 1, rest, _, ends => value?_numberChars x fuel ends
  | .text t, fuel + 1, rest, _, _ => value?_text t fuel rest
  | .array [], fuel + 1, rest, _, _ => rfl
  | .array (x :: xs), fuel + 1, rest, enough, _ => by
    have read := items?_chars (x :: xs) fuel rest (by simp) enough
    obtain ⟨c, cs, spelled, opens⟩ := chars_opens x
    simp only [itemChars, List.tail_cons, spelled, List.cons_append] at read
    rw [chars, spelled]
    exact value?_items opens fuel read
  | .object [], fuel + 1, rest, enough, _ => by
    have empty : reread (.object []) = .object [] := by
      simp [reread, mapValues, mapMembers, rereadValue, ofEntries, Members.ofEntries,
        Members.sortIndices]
    rw [empty]
    rfl
  | .object ((n, v) :: ms), fuel + 1, rest, enough, _ => by
    have read := entries?_chars ((n, v) :: ms) fuel rest (by simp) enough
    simp only [memberChars, List.tail_cons, quoteChars, List.cons_append] at read
    exact value?_entries (c := '"') ⟨by decide, by decide, by decide⟩ fuel read
  | .null, 0, rest, enough, _ => by simp [chars] at enough
  | .bool b, 0, rest, enough, _ => by cases b <;> simp [chars] at enough
  | j, 0, rest, enough, _ => by
    obtain ⟨c, cs, spelled, _⟩ := chars_opens j
    simp [spelled] at enough

theorem items?_chars : ∀ (items : List Json) (fuel : Nat) (rest : List Char), items ≠ [] →
    2 * (itemChars items).length ≤ fuel + 1 →
      items? fuel ((itemChars items).tail ++ rest) = some (mapItems rereadValue items, rest)
  | [], _, _, nonempty, _ => absurd rfl nonempty
  | x :: xs, fuel, rest, _, enough => by
    -- the comma in front of an item pays for the step to it, which reads no character
    simp only [itemChars, List.length_cons, List.length_append] at enough
    obtain ⟨fuel, rfl⟩ : ∃ n, fuel = n + 1 := ⟨fuel - 1, by omega⟩
    have first := value?_chars x fuel (itemChars xs ++ rest) (by omega) (ends_itemChars xs rest)
    have others := items?_chars xs fuel rest
    rw [itemChars, List.tail_cons, List.append_assoc]
    cases xs with
    | nil => exact items?_last fuel first
    | cons y ys => exact items?_more fuel first (others (by simp) (by omega))

theorem entries?_chars : ∀ (members : List (Text × Json)) (fuel : Nat) (rest : List Char),
    members ≠ [] → 2 * (memberChars members).length ≤ fuel + 1 →
      entries? fuel ((memberChars members).tail ++ rest) =
        some (mapMembers rereadValue members, rest)
  | [], _, _, nonempty, _ => absurd rfl nonempty
  | (n, v) :: ms, fuel, rest, _, enough => by
    simp only [memberChars, List.length_cons, List.length_append] at enough
    obtain ⟨fuel, rfl⟩ : ∃ n, fuel = n + 1 := ⟨fuel - 1, by omega⟩
    have first := value?_chars v fuel (memberChars ms ++ rest) (by omega) (ends_memberChars ms rest)
    have others := entries?_chars ms fuel rest
    rw [memberChars, List.tail_cons, List.append_assoc, List.cons_append, List.append_assoc]
    rcases ms with _ | ⟨⟨m, w⟩, ms⟩
    · exact entries?_last fuel first
    · exact entries?_more fuel first (others (by simp) (by omega))

end

end Reader

/-- A written value is read as itself. -/
theorem parse?_compact (j : Json) : parse? j.compact = some j.reread := by
  have read := Reader.value?_chars j (2 * (chars j).length + 2) [] (by omega)
    (by simp [Numeral.Ends])
  rw [List.append_nil] at read
  simp only [parse?, compact, String.toList_ofList, read]
  rfl

end Json
end ProgramGym
