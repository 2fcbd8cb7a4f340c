/-! Characters in 16-bit units. A character outside the basic plane counts as two, a high and a
low half; lengths, positions and the order of file names use this measure. Main statement: the
units of characters spell the characters. -/
namespace ProgramGym.Text

def replacement : Char := Char.ofNat 0xFFFD

def unitsOf (c : Char) : List UInt16 :=
  let n := c.toNat
  if n < 0x10000 then [UInt16.ofNat n]
  else [UInt16.ofNat (0xD800 + (n - 0x10000) / 0x400), UInt16.ofNat (0xDC00 + (n - 0x10000) % 0x400)]

def unitsOfChars (cs : List Char) : List UInt16 := cs.flatMap unitsOf

def width (c : Char) : Nat := if c.toNat < 0x10000 then 1 else 2

def lengthOf : List Char → Nat
  | [] => 0
  | c :: cs => width c + lengthOf cs

def unitLength (s : String) : Nat := lengthOf s.toList

/-- The first unit of a character as a text of its own; half a character shows as the
replacement character. -/
def firstUnit (c : Char) : Char := if c.toNat < 0x10000 then c else replacement

def isHighHalf (u : UInt16) : Bool := 0xD800 ≤ u.toNat && u.toNat < 0xDC00

def isLowHalf (u : UInt16) : Bool := 0xDC00 ≤ u.toNat && u.toNat < 0xE000

/-- A unit as a character; half of one shows as the replacement character. -/
def ofUnit (u : UInt16) : Char :=
  if isHighHalf u || isLowHalf u then replacement else Char.ofNat u.toNat

def ofPair (high low : UInt16) : Char :=
  Char.ofNat (0x10000 + (high.toNat - 0xD800) * 0x400 + (low.toNat - 0xDC00))

/-- The characters that units spell. -/
def ofUnits : List UInt16 → List Char
  | [] => []
  | [u] => [ofUnit u]
  | u :: v :: rest =>
    if isHighHalf u && isLowHalf v then ofPair u v :: ofUnits rest
    else ofUnit u :: ofUnits (v :: rest)

def unitsLt : List UInt16 → List UInt16 → Bool
  | _, [] => false
  | [], _ :: _ => true
  | a :: as, b :: bs => a < b || (a == b && unitsLt as bs)

/-- Order by units. -/
def le (a b : String) : Bool := !unitsLt (unitsOfChars b.toList) (unitsOfChars a.toList)

/-- Blanks up to a width in units. -/
def padRight (width : Nat) (s : String) : String :=
  s ++ String.ofList (List.replicate (width - unitLength s) ' ')

theorem scalar_range (c : Char) :
    c.toNat < 0xD800 ∨ (0xE000 ≤ c.toNat ∧ c.toNat < 0x110000) := by
  have h : c.toNat.isValidChar := c.valid
  simp only [Nat.isValidChar] at h
  omega

theorem toNat_ofNat_unit {n : Nat} (h : n < 0x10000) : (UInt16.ofNat n).toNat = n := by
  simp only [UInt16.toNat_ofNat']
  omega

theorem ofUnits_cons {u : UInt16} (h : isHighHalf u = false) (us : List UInt16) :
    ofUnits (u :: us) = ofUnit u :: ofUnits us := by
  cases us with
  | nil => rfl
  | cons v us => simp [ofUnits, h]

theorem ofUnit_ofNat (c : Char) (h : c.toNat < 0x10000) :
    isHighHalf (UInt16.ofNat c.toNat) = false ∧ ofUnit (UInt16.ofNat c.toNat) = c := by
  have hv := scalar_range c
  have hh : isHighHalf (UInt16.ofNat c.toNat) = false := by
    simp only [isHighHalf, toNat_ofNat_unit h, Bool.and_eq_false_iff, decide_eq_false_iff_not]
    omega
  have hl : isLowHalf (UInt16.ofNat c.toNat) = false := by
    simp only [isLowHalf, toNat_ofNat_unit h, Bool.and_eq_false_iff, decide_eq_false_iff_not]
    omega
  exact ⟨hh, by simp [ofUnit, hh, hl, toNat_ofNat_unit h]⟩

theorem ofUnits_unitsOf_pair (c : Char) (h : 0x10000 ≤ c.toNat) (us : List UInt16) :
    ofUnits (unitsOf c ++ us) = c :: ofUnits us := by
  have hv := scalar_range c
  have ha := toNat_ofNat_unit (n := 0xD800 + (c.toNat - 0x10000) / 0x400) (by omega)
  have hb := toNat_ofNat_unit (n := 0xDC00 + (c.toNat - 0x10000) % 0x400) (by omega)
  have high : isHighHalf (UInt16.ofNat (0xD800 + (c.toNat - 0x10000) / 0x400)) = true := by
    simp only [isHighHalf, ha, Bool.and_eq_true, decide_eq_true_eq]
    omega
  have low : isLowHalf (UInt16.ofNat (0xDC00 + (c.toNat - 0x10000) % 0x400)) = true := by
    simp only [isLowHalf, hb, Bool.and_eq_true, decide_eq_true_eq]
    omega
  have same : 0x10000 + (0xD800 + (c.toNat - 0x10000) / 0x400 - 0xD800) * 0x400
      + (0xDC00 + (c.toNat - 0x10000) % 0x400 - 0xDC00) = c.toNat := by omega
  simp only [unitsOf, if_neg (Nat.not_lt.mpr h), List.cons_append, List.nil_append, ofUnits, high,
    low, Bool.and_self, if_true, ofPair, ha, hb, same, Char.ofNat_toNat]

theorem ofUnits_unitsOf_append (c : Char) (us : List UInt16) :
    ofUnits (unitsOf c ++ us) = c :: ofUnits us := by
  by_cases h : c.toNat < 0x10000
  · obtain ⟨high, same⟩ := ofUnit_ofNat c h
    simp only [unitsOf, if_pos h, List.cons_append, List.nil_append, ofUnits_cons high, same]
  · exact ofUnits_unitsOf_pair c (Nat.not_lt.mp h) us

/-- No character is lost in its units. -/
theorem ofUnits_unitsOfChars (cs : List Char) : ofUnits (unitsOfChars cs) = cs := by
  induction cs with
  | nil => rfl
  | cons c cs ih =>
    rw [unitsOfChars, List.flatMap_cons, ofUnits_unitsOf_append, ← unitsOfChars, ih]

end ProgramGym.Text
