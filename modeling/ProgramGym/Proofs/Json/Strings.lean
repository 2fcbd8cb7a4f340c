import Mathlib
import ProgramGym.Json.Printer
import ProgramGym.Json.Reader

/-! Strings between quotes. A unit is written as a character, as a character behind a backslash
or by its four hexadecimal digits, and each form is read as that unit. Main statement: a text is
read back from its quoted form, lone halves of characters included. -/
namespace ProgramGym
namespace Json.Reader

theorem digitInBase?_hexDigit {n : Nat} (small : n < 16) :
    Numeral.digitInBase? 16 (hexDigit n) = some n := by
  have all : ∀ n < 16, Numeral.digitInBase? 16 (hexDigit n) = some n := by decide
  exact all n small

theorem wholeInBase?_hexDigits {a b c d : Nat} (first : a < 16) (second : b < 16) (third : c < 16)
    (fourth : d < 16) :
    Numeral.wholeInBase? 16 [hexDigit a, hexDigit b, hexDigit c, hexDigit d] =
      some (16 * (16 * (16 * a + b) + c) + d) := by
  simp [Numeral.wholeInBase?, List.foldlM, digitInBase?_hexDigit, first, second, third, fourth]

section
variable (read : List UInt16) (rest : List Char)

theorem stringBody?_escapeUnit (u : UInt16) :
    stringBody? read (escapeUnit u ++ rest) = stringBody? (u :: read) rest := by
  have bound : u.toNat < 65536 := u.toNat_lt
  have digits := wholeInBase?_hexDigits (a := u.toNat / 4096) (b := u.toNat / 256 % 16)
    (c := u.toNat / 16 % 16) (d := u.toNat % 16) (by omega) (by omega) (by omega) (by omega)
  have value : 16 * (16 * (16 * (u.toNat / 4096) + u.toNat / 256 % 16) + u.toNat / 16 % 16)
      + u.toNat % 16 = u.toNat := by omega
  rw [value] at digits
  simp [escapeUnit, stringBody?, digits]

theorem stringBody?_simple {c d : Char} (escape : simpleEscape? c = some d) :
    stringBody? read ('\\' :: c :: rest) = stringBody? ((Text.unitsOf d).reverse ++ read) rest := by
  have other : c ≠ 'u' := by
    rintro rfl
    cases escape
  rw [stringBody?, escape]
  simp [other]

theorem stringBody?_plain {c : Char} (printable : 0x20 ≤ c.toNat) (quote : c ≠ '"')
    (backslash : c ≠ '\\') :
    stringBody? read (c :: rest) = stringBody? ((Text.unitsOf c).reverse ++ read) rest := by
  rw [stringBody?, if_neg (by omega)]
  all_goals simp [quote, backslash]

/-- A control character by its code, within the first 32. -/
theorem stringBody?_control {c : Char} (control : c.toNat < 0x20) :
    stringBody? read
        (['\\', 'u', '0', '0', hexDigit (c.toNat / 16), hexDigit (c.toNat % 16)] ++ rest) =
      stringBody? ((Text.unitsOf c).reverse ++ read) rest := by
  have unit : (UInt16.ofNat c.toNat).toNat = c.toNat := Text.toNat_ofNat_unit (by omega)
  have spelled := stringBody?_escapeUnit read rest (UInt16.ofNat c.toNat)
  have high : c.toNat / 4096 = 0 ∧ c.toNat / 256 % 16 = 0 ∧ c.toNat / 16 % 16 = c.toNat / 16 := by
    omega
  rw [escapeUnit, unit, high.1, high.2.1, high.2.2] at spelled
  rw [Text.unitsOf, if_pos (by omega)]
  exact spelled

theorem stringBody?_escapeChar (c : Char) :
    stringBody? read (escapeChar c ++ rest) =
      stringBody? ((Text.unitsOf c).reverse ++ read) rest := by
  have named {code : Nat} (same : c.toNat = code) : c = Char.ofNat code := by
    rw [← same, Char.ofNat_toNat]
  unfold escapeChar
  simp only [beq_iff_eq]
  split_ifs with quote backslash newline return_ tab backspace feed control
  · exact stringBody?_simple read rest (by rw [quote]; rfl)
  · exact stringBody?_simple read rest (by rw [backslash]; rfl)
  · exact stringBody?_simple read rest (by rw [newline]; rfl)
  · exact stringBody?_simple read rest (by rw [return_]; rfl)
  · exact stringBody?_simple read rest (by rw [tab]; rfl)
  · exact stringBody?_simple read rest (by rw [named backspace]; rfl)
  · exact stringBody?_simple read rest (by rw [named feed]; rfl)
  · exact stringBody?_control read rest control
  · exact stringBody?_plain read rest (by omega) quote backslash

end

theorem toNat_ofNat {n : Nat} (valid : n.isValidChar) : (Char.ofNat n).toNat = n := by
  rw [Char.toNat_ofNat, if_pos valid]

theorem unitsOf_ofUnit {u : UInt16} (high : Text.isHighHalf u = false)
    (low : Text.isLowHalf u = false) : Text.unitsOf (Text.ofUnit u) = [u] := by
  have bound : u.toNat < 65536 := u.toNat_lt
  have valid : u.toNat.isValidChar := by
    simp only [Text.isHighHalf, Text.isLowHalf, Bool.and_eq_false_iff,
      decide_eq_false_iff_not] at high low
    simp only [Nat.isValidChar]
    omega
  simp [Text.ofUnit, high, low, Text.unitsOf, toNat_ofNat valid, bound]

theorem unitsOf_ofPair {u v : UInt16} (high : Text.isHighHalf u = true)
    (low : Text.isLowHalf v = true) : Text.unitsOf (Text.ofPair u v) = [u, v] := by
  simp only [Text.isHighHalf, Text.isLowHalf, Bool.and_eq_true, decide_eq_true_eq] at high low
  have code : (Text.ofPair u v).toNat =
      0x10000 + (u.toNat - 0xD800) * 0x400 + (v.toNat - 0xDC00) := by
    refine toNat_ofNat ?_
    simp only [Nat.isValidChar]
    omega
  have first : 0xD800 + ((Text.ofPair u v).toNat - 0x10000) / 0x400 = u.toNat := by omega
  have second : 0xDC00 + ((Text.ofPair u v).toNat - 0x10000) % 0x400 = v.toNat := by omega
  rw [Text.unitsOf, if_neg (by omega), first, second, UInt16.ofNat_toNat, UInt16.ofNat_toNat]

section
variable (read : List UInt16) (rest : List Char)

theorem stringBody?_unitChars (u : UInt16) :
    stringBody? read (unitChars u ++ rest) = stringBody? (u :: read) rest := by
  unfold unitChars
  split
  · exact stringBody?_escapeUnit read rest u
  · next whole =>
    simp only [Bool.not_eq_true, Bool.or_eq_false_iff] at whole
    rw [stringBody?_escapeChar, unitsOf_ofUnit whole.1 whole.2]
    rfl

theorem stringBody?_pair {u v : UInt16} (high : Text.isHighHalf u = true)
    (low : Text.isLowHalf v = true) :
    stringBody? read (Text.ofPair u v :: rest) = stringBody? (v :: u :: read) rest := by
  have units := unitsOf_ofPair high low
  have large : 0x10000 ≤ (Text.ofPair u v).toNat := by
    by_contra small
    rw [Text.unitsOf, if_pos (by omega)] at units
    simp at units
  rw [stringBody?_plain read rest (by omega), units]
  · rfl
  · intro quote
    rw [quote] at large
    exact absurd large (by decide)
  · intro backslash
    rw [backslash] at large
    exact absurd large (by decide)

end

theorem stringBody?_escapedChars (units read : List UInt16) (rest : List Char) :
    stringBody? read (escapedChars units ++ '"' :: rest) = some (⟨read.reverse ++ units⟩, rest) := by
  induction units using escapedChars.induct generalizing read with
  | case1 => simp [escapedChars, stringBody?]
  | case2 u =>
    rw [escapedChars, stringBody?_unitChars, stringBody?]
    simp
  | case3 u v units pair ih =>
    rw [Bool.and_eq_true] at pair
    rw [escapedChars, if_pos (by simp [pair]), List.cons_append,
      stringBody?_pair _ _ pair.1 pair.2, ih]
    simp
  | case4 u v units single ih =>
    rw [escapedChars, if_neg single, List.append_assoc, stringBody?_unitChars, ih]
    simp

/-- A text is read back from its quoted form. -/
theorem string?_quoteChars (t : Text) (rest : List Char) :
    string? (quoteChars t ++ rest) = some (t, rest) := by
  have body := stringBody?_escapedChars t.units [] rest
  simpa [quoteChars, string?] using body

end Json.Reader
end ProgramGym
